import SheetMarkup.Proofs.Document.Closure

/-!
# Rendered documents are well formed

Whatever a sheet says, the styles of its document have identifiers and values of the right form, no
identifier stands for two of them, and every node has a style that the document knows.

* `IsIdentifier`, `IsHexDigit`: the forms of identifiers and of the digits of a colour;
* `isIdentifier_toIdentifier`, `isHexDigit_of_isHexColor`, `parseSize_eq_ok`: the values of a style;
* `Descriptor.WellFormed`, **`wellFormed_of_ofBlock`**: one style, as it is read from its block;
* `Document.WellFormed`, **`wellFormed_of_rendered_sheet`**: the document of a sheet.
-/

namespace SheetMarkup

open Outcome Registry

/-! ## Forms -/

/-- Some characters, all of them ASCII letters or digits. -/
def IsIdentifier (s : String) : Prop := s ≠ "" ∧ ∀ c ∈ s.toList, c.isAlphanum = true

/-- A hexadecimal digit of either case. -/
def IsHexDigit (c : Char) : Prop :=
  '0' ≤ c ∧ c ≤ '9' ∨ 'a' ≤ c ∧ c ≤ 'f' ∨ 'A' ≤ c ∧ c ≤ 'F'

theorem isIdentifier_toIdentifier {name : String} (h : toIdentifier name ≠ "") :
    IsIdentifier (toIdentifier name) :=
  ⟨h, fun _ hc => Text.isAsciiAlphanumeric_iff.mp (isAsciiAlphanumeric_of_mem_toIdentifier hc)⟩

theorem isHexDigit_of_hexValue? {c : Char} (h : (Text.hexValue? c).isSome = true) :
    IsHexDigit c := by
  simp only [IsHexDigit, Char.le_def, UInt32.le_iff_toNat_le]
  change 48 ≤ c.toNat ∧ c.toNat ≤ 57 ∨ 97 ≤ c.toNat ∧ c.toNat ≤ 102 ∨
    65 ≤ c.toNat ∧ c.toNat ≤ 70
  simp only [Text.hexValue?, Bool.and_eq_true, decide_eq_true_eq] at h
  split_ifs at h with hdigit hsmall hcapital
  · exact Or.inl hdigit
  · exact Or.inr (Or.inl hsmall)
  · exact Or.inr (Or.inr hcapital)
  · cases h

theorem isHexDigit_of_isHexColor {cs : List Char} (h : isHexColor cs = true) :
    cs.length = 6 ∧ ∀ c ∈ cs, IsHexDigit c := by
  rw [isHexColor, Bool.and_eq_true, beq_iff_eq, List.all_eq_true] at h
  exact ⟨h.1, fun c hc => isHexDigit_of_hexValue? (h.2 c hc)⟩

theorem parseSize_eq_ok {value : String} {size : Nat} (h : parseSize value = .ok size) :
    Even size ∧ size < Text.bound32 := by
  unfold parseSize at h
  split at h
  · split_ifs at h with hfits
    cases h
    exact ⟨⟨_, Nat.mul_two _⟩, hfits⟩
  · cases h

theorem getD_filter_ne_empty (text? : Option String) {other : String} (h : other ≠ "") :
    (text?.filter fun s => !s.isEmpty).getD other ≠ "" := by
  cases hf : text?.filter fun s => !s.isEmpty with
  | none => exact h
  | some s =>
    have hs := (Option.filter_eq_some_iff.mp hf).2
    rintro rfl
    cases hs

/-! ## Styles -/

/-- What every style of a document is like. -/
structure Descriptor.WellFormed (s : Descriptor) : Prop where
  id_eq : s.id = toIdentifier s.name
  id : IsIdentifier s.id
  parent : ∀ p ∈ s.parent, IsIdentifier p
  color : s.color.toList.length = 6 ∧ ∀ c ∈ s.color.toList, IsHexDigit c
  font : s.font ≠ ""
  size : Even s.size ∧ s.size ≤ 4294967294

/-- **A style that was read from a block is well formed.** Its defaults are, and so is each value that
was checked. -/
theorem Descriptor.wellFormed_of_ofBlock {b : Block} {s : Descriptor} (h : ofBlock b = .ok s) :
    s.WellFormed := by
  have hsound := ofBlock_sound h
  obtain ⟨name, -, color, size, hi, -, hs, rfl⟩ := ofArguments_eq_ok (mapError_eq_ok.mp h)
  refine ⟨hsound.id_eq, isIdentifier_toIdentifier hi, fun p hp => ?_,
    isHexDigit_of_isHexColor hsound.color, ?_, ?_⟩
  · obtain ⟨hne, hchars⟩ := hsound.parent p hp
    exact ⟨hne, fun c hc => Text.isAsciiAlphanumeric_iff.mp (hchars c hc)⟩
  · exact getD_filter_ne_empty _ (by decide)
  · have heven : Even size ∧ size < Text.bound32 := by
      rcases readValue_eq_ok hs with rfl | ⟨a, -, ha⟩
      · decide
      · exact parseSize_eq_ok ha
    obtain ⟨⟨half, rfl⟩, hfits⟩ := heven
    refine ⟨⟨half, rfl⟩, ?_⟩
    change half + half ≤ 4294967294
    unfold Text.bound32 at hfits
    omega

/-! ## Documents -/

/-- What every document of a sheet is like. -/
structure Document.WellFormed (d : Document) : Prop where
  distinct : (d.styles.map Descriptor.id).Nodup
  styles : ∀ s ∈ d.styles, s.WellFormed
  nodes : ∀ n ∈ d.nodes, n.style = d.defaultStyle ∨ ∃ s ∈ d.styles, n.style = s.id

theorem Document.wellFormed_of_render {blocks : List Block} {config : Config} {rendered : Rendered}
    (h : render blocks config = .ok rendered) : rendered.document.WellFormed := by
  have hclosed := closed_of_render h
  refine ⟨hclosed.nodup, fun s hs => ?_, fun n hn => ?_⟩
  · obtain ⟨b, -, hb⟩ := exists_block_of_mem_styles h hs
    exact Descriptor.wellFormed_of_ofBlock hb
  · rcases hclosed.nodes n hn with hdefault | hdeclared
    · exact Or.inl hdefault
    · obtain ⟨s, hs, he⟩ := List.mem_map.mp hdeclared
      exact Or.inr ⟨s, hs, he.symm⟩

/-- **The document of every sheet is well formed**, with any settings, whenever the sheet is read and
its script is rendered. -/
theorem wellFormed_of_rendered_sheet {rows : List Row} {config : Config} {rendered : Rendered}
    (h : (parse rows >>= (render · config)) = .ok rendered) : rendered.document.WellFormed := by
  obtain ⟨blocks, -, hrender⟩ := bind_eq_ok.mp h
  exact Document.wellFormed_of_render hrender

/-- A style with every value, declared again in another spelling, and lines in three styles. -/
def variedSheet : List Row :=
  [⟨0, [.ofText "s", .ofText "name=Big Té xt", .ofText "color=1fC", .ofText "size=2147483647",
      .ofText "font=", .ofText "parent=no one"]⟩,
    ⟨1, [.ofText "s", .ofText "name=small", .ofText "font=Georgia", .ofText "parent=!"]⟩,
    ⟨2, [.ofText "s", .ofText "name=SMALL", .ofText "size=7"]⟩,
    ⟨3, [.ofText "p", .ofText "style=big t xt"]⟩, ⟨4, [.empty, .ofText "first"]⟩,
    ⟨5, [.ofText "p", .ofText "style=Small"]⟩, ⟨6, [.empty, .image "pic.png"]⟩,
    ⟨7, [.ofText "p"]⟩, ⟨8, [.empty, .ofText "last"]⟩]

theorem wellFormed_of_rendered_sheet_variedSheet : ∃ rendered,
    (parse variedSheet >>= (render · {})) = .ok rendered ∧ rendered.document.WellFormed ∧
      rendered.document.styles = [⟨"BigTXt", "Big Té xt", some "NoOne", "11ffCC", "Aptos", 4294967294⟩,
        ⟨"Small", "SMALL", none, "000000", "Aptos", 14⟩] := by
  have h : (parse variedSheet >>= (render · {})).isOk = true := by decide +kernel
  obtain ⟨rendered, hr⟩ := exists_of_isOk h
  have hstyles : ((parse variedSheet >>= (render · {})).map fun r => r.document.styles) =
      .ok [⟨"BigTXt", "Big Té xt", some "NoOne", "11ffCC", "Aptos", 4294967294⟩,
        ⟨"Small", "SMALL", none, "000000", "Aptos", 14⟩] := by
    decide +kernel
  rw [hr] at hstyles
  exact ⟨rendered, hr, wellFormed_of_rendered_sheet hr, Except.ok.inj hstyles⟩

end SheetMarkup
