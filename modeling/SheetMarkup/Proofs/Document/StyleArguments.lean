import SheetMarkup.Proofs.Document.Identifiers
import SheetMarkup.Proofs.Text.Number

/-!
# What the arguments of a style decide

A style reads five of its arguments, and of each only the last with its name. The values are checked
in a fixed order: that there is a name, the colour, the size, and that the name gives an identifier.
The first check that fails decides about the fault and its place; where none fails, every part of
the style follows from the argument for it.

* `LastNamed`, **`lastNamed?_eq_some`**: the argument of a name that counts;
* `IsColor`, `ColorOf`, `normalizeColor_eq_ok_iff`, `normalizeColor_eq_error_iff`: colours;
* `IsSize`, `SizeOf`, `parseSize_eq_ok_iff`, `parseSize_eq_error_iff`: sizes;
* `Takes`: a value or its default;
* `Block.Faults`, `Block.Gives`, **`ofArguments_exact`**: the fault or the style of some
  arguments.
-/

namespace SheetMarkup

open Outcome

/-! ## The last argument of a name -/

/-- The argument has this name, and none after it has. -/
def LastNamed (arguments : List Argument) (name : String) (a : Argument) : Prop :=
  a.name = name ∧ ∃ before after, arguments = before ++ a :: after ∧ ∀ c ∈ after, c.name ≠ name

theorem lastNamed?_eq_some {arguments : List Argument} {name : String} {a : Argument} :
    lastNamed? arguments name = some a ↔ LastNamed arguments name a := by
  rw [lastNamed?, List.getLast?_filter, List.find?_eq_some_iff_append, LastNamed, beq_iff_eq]
  refine and_congr_right fun _ => ?_
  constructor
  · rintro ⟨after, before, hsplit, hafter⟩
    refine ⟨before.reverse, after.reverse, ?_, fun c hc => ?_⟩
    · rw [← List.reverse_reverse arguments, hsplit]
      simp
    · simpa using hafter c (List.mem_reverse.mp hc)
  · rintro ⟨before, after, rfl, hafter⟩
    refine ⟨after.reverse, before.reverse, by simp, fun c hc => ?_⟩
    simpa using hafter c (List.mem_reverse.mp hc)

/-! ## Colours -/

/-- The value without the blanks around it is three or six hexadecimal digits. -/
def IsColor (value : String) : Prop :=
  ((Text.trim value).toList.length = 3 ∨ (Text.trim value).toList.length = 6) ∧
    ∀ c ∈ (Text.trim value).toList, IsHexDigit c

/-- The colour of a value: its digits as they are written, each twice where there are three. -/
structure ColorOf (value color : String) : Prop where
  isColor : IsColor value
  three : (Text.trim value).toList.length = 3 →
    color.toList = (Text.trim value).toList.flatMap fun c => [c, c]
  six : (Text.trim value).toList.length = 6 → color = Text.trim value

theorem isSome_hexValue?_iff {c : Char} : (Text.hexValue? c).isSome = true ↔ IsHexDigit c := by
  refine ⟨isHexDigit_of_hexValue?, fun h => ?_⟩
  simp only [IsHexDigit, Char.le_def, UInt32.le_iff_toNat_le] at h
  change 48 ≤ c.toNat ∧ c.toNat ≤ 57 ∨ 97 ≤ c.toNat ∧ c.toNat ≤ 102 ∨
    65 ≤ c.toNat ∧ c.toNat ≤ 70 at h
  simp only [Text.hexValue?, Bool.and_eq_true, decide_eq_true_eq]
  split_ifs
  · rfl
  · rfl
  · rfl
  · omega

theorem isHexColor_expandColor_iff {cs : List Char} : isHexColor (expandColor cs) = true ↔
    (cs.length = 3 ∨ cs.length = 6) ∧ ∀ c ∈ cs, IsHexDigit c := by
  unfold expandColor
  split_ifs with hthree
  · obtain ⟨x, y, z, rfl⟩ := List.length_eq_three.mp hthree
    simp [isHexColor, isSome_hexValue?_iff]
  · simp only [isHexColor, Bool.and_eq_true, beq_iff_eq, List.all_eq_true, isSome_hexValue?_iff,
      hthree, false_or]

theorem isColor_iff {value : String} :
    IsColor value ↔ isHexColor (expandColor (Text.trimChars value.toList)) = true := by
  rw [isHexColor_expandColor_iff, IsColor, Text.trim_toList]

theorem normalizeColor_of_isColor {value : String} (h : IsColor value) :
    normalizeColor value = .ok (String.ofList (expandColor (Text.trim value).toList)) := by
  rw [Text.trim_toList]
  exact if_pos (isColor_iff.mp h)

theorem normalizeColor_of_not_isColor {value : String} (h : ¬ IsColor value) :
    normalizeColor value = .error (.invalidColor (Text.trim value)) :=
  if_neg (mt isColor_iff.mpr h)

theorem normalizeColor_eq_ok_iff {value color : String} :
    normalizeColor value = .ok color ↔ ColorOf value color := by
  constructor
  · intro h
    by_cases hcolor : IsColor value
    · rw [normalizeColor_of_isColor hcolor, Except.ok.injEq] at h
      subst h
      refine ⟨hcolor, fun hthree => ?_, fun hsix => ?_⟩
      · rw [String.toList_ofList, expandColor, if_pos hthree]
      · rw [expandColor, if_neg (by omega), String.ofList_toList]
    · rw [normalizeColor_of_not_isColor hcolor] at h
      cases h
  · intro h
    rw [normalizeColor_of_isColor h.isColor, expandColor]
    rcases h.isColor.1 with hthree | hsix
    · rw [if_pos hthree, ← h.three hthree, String.ofList_toList]
    · rw [if_neg (by omega), String.ofList_toList, h.six hsix]

theorem exists_normalizeColor_iff {value : String} :
    (∃ color, normalizeColor value = .ok color) ↔ IsColor value := by
  refine ⟨fun ⟨color, h⟩ => (normalizeColor_eq_ok_iff.mp h).isColor, fun h => ?_⟩
  exact ⟨_, normalizeColor_of_isColor h⟩

theorem normalizeColor_eq_error_iff {value : String} {fault : Fault} :
    normalizeColor value = .error fault ↔
      ¬ IsColor value ∧ fault = .invalidColor (Text.trim value) := by
  refine ⟨fun h => ⟨fun hcolor => ?_, normalizeColor_eq_error h⟩, ?_⟩
  · rw [normalizeColor_of_isColor hcolor] at h
    cases h
  · rintro ⟨hcolor, rfl⟩
    exact normalizeColor_of_not_isColor hcolor

/-! ## Sizes -/

/-- The value without the blanks around it is a number of points whose double fits 32 bits. -/
def IsSize (value : String) : Prop :=
  ∃ points, Text.IsNumber (Text.trim value).toList points ∧ points ≤ 2147483647

/-- The size of a value: twice its points. -/
def SizeOf (value : String) (size : Nat) : Prop :=
  ∃ points, Text.IsNumber (Text.trim value).toList points ∧ points ≤ 2147483647 ∧ size = 2 * points

theorem parseSize_eq_ok_iff {value : String} {size : Nat} :
    parseSize value = .ok size ↔ SizeOf value size := by
  have hread : parseSize value = .ok size ↔ ∃ points,
      Text.parseNat? Text.bound32 (Text.trim value) = some points ∧
        points * 2 < Text.bound32 ∧ points * 2 = size := by
    unfold parseSize
    cases Text.parseNat? Text.bound32 (Text.trim value) with
    | none => simp
    | some points => by_cases hfits : points * 2 < Text.bound32 <;> simp [hfits]
  rw [hread, SizeOf]
  refine exists_congr fun points => ?_
  rw [Text.parseNat?_eq_some, and_assoc]
  refine and_congr_right fun _ => ?_
  unfold Text.bound32
  omega

theorem exists_parseSize_iff {value : String} :
    (∃ size, parseSize value = .ok size) ↔ IsSize value := by
  simp only [parseSize_eq_ok_iff, IsSize, SizeOf]
  exact ⟨fun ⟨_, points, hn, hle, _⟩ => ⟨points, hn, hle⟩,
    fun ⟨points, hn, hle⟩ => ⟨_, points, hn, hle, rfl⟩⟩

theorem parseSize_eq_error_iff {value : String} {fault : Fault} :
    parseSize value = .error fault ↔ ¬ IsSize value ∧ fault = .invalidSize value := by
  refine ⟨fun h => ⟨fun hread => ?_, parseSize_eq_error h⟩, ?_⟩
  · obtain ⟨size, hok⟩ := exists_parseSize_iff.mpr hread
    rw [hok] at h
    cases h
  · rintro ⟨hunread, rfl⟩
    cases h : parseSize value with
    | ok size => exact absurd (exists_parseSize_iff.mp ⟨size, h⟩) hunread
    | error fault => rw [parseSize_eq_error h]

/-! ## Values and defaults -/

/-- The value is the one that the argument gives, or the default where there is no argument. -/
def Takes {α : Type} (argument? : Option Argument) (Gives : String → α → Prop) (default x : α) :
    Prop :=
  match argument? with
  | none => x = default
  | some a => Gives a.value x

/-- The font of a value: the value itself, or the fallback where it is empty. -/
def FontOf (value font : String) : Prop := font = if value = "" then "Aptos" else value

theorem takes_font (argument? : Option Argument) : Takes argument? FontOf "Aptos"
    (((argument?.map Argument.value).filter fun f => !f.isEmpty).getD fallbackFont) := by
  cases argument? with
  | none => rfl
  | some a =>
    change _ = if a.value = "" then "Aptos" else a.value
    by_cases hempty : a.value = "" <;> simp [hempty, fallbackFont, Option.filter_some]

theorem Takes.unique {α : Type} {argument? : Option Argument} {Gives : String → α → Prop}
    (h : ∀ value x y, Gives value x → Gives value y → x = y) {default x y : α}
    (hx : Takes argument? Gives default x) (hy : Takes argument? Gives default y) : x = y := by
  cases argument? with
  | none => exact Eq.trans hx (Eq.symm hy)
  | some a => exact h a.value x y hx hy

namespace Descriptor

variable {α : Type} {argument? : Option Argument} {read : String → Except Fault α}
  {Gives : String → α → Prop} {default x : α}

theorem readValue_eq_ok_iff (h : ∀ value x, read value = .ok x ↔ Gives value x) :
    readValue argument? read default = .ok x ↔ Takes argument? Gives default x := by
  cases argument? with
  | none => exact ⟨fun he => (Except.ok.inj he).symm, fun he => congrArg _ (Eq.symm he)⟩
  | some a => exact mapError_eq_ok.trans (h a.value x)

theorem exists_readValue_iff : (∃ x, readValue argument? read default = .ok x) ↔
    ∀ a ∈ argument?, ∃ x, read a.value = .ok x := by
  cases argument? with
  | none => simp [readValue]
  | some a =>
    simp only [Option.mem_some_iff, forall_eq']
    exact exists_congr fun x => mapError_eq_ok

theorem readValue_eq_error_iff {e : Error} : readValue argument? read default = .error e ↔
    ∃ a, argument? = some a ∧ read a.value = .error e.fault ∧ e.origin = a.origin := by
  refine ⟨readValue_eq_error, ?_⟩
  rintro ⟨a, rfl, hread, horigin⟩
  exact mapError_eq_error.mpr ⟨e.fault, hread, by rw [← horigin]⟩

end Descriptor

/-! ## Argument lists -/

/-- The fault of the arguments of a block: that of the first check that fails. -/
inductive Block.Faults (b : Block) : Error → Prop
  | unnamed : b.argument? "name" = none → Faults b ⟨.missingStyleName, none⟩
  | color {name a : Argument} : b.argument? "name" = some name →
      b.argument? "color" = some a → ¬ IsColor a.value →
      Faults b ⟨.invalidColor (Text.trim a.value), a.origin⟩
  | size {name a : Argument} : b.argument? "name" = some name →
      (∀ c ∈ b.argument? "color", IsColor c.value) →
      b.argument? "size" = some a → ¬ IsSize a.value →
      Faults b ⟨.invalidSize a.value, a.origin⟩
  | wordless {name : Argument} : b.argument? "name" = some name →
      (∀ c ∈ b.argument? "color", IsColor c.value) →
      (∀ c ∈ b.argument? "size", IsSize c.value) → ¬ HasWord name.value →
      Faults b ⟨.invalidStyleName name.value, name.origin⟩

/-- The style of the arguments of a block, part by part. -/
structure Block.Gives (b : Block) (s : Descriptor) : Prop where
  named : ∃ a, b.argument? "name" = some a ∧ HasWord a.value ∧ s.name = a.value ∧
    s.id = toIdentifier a.value
  parent : ∀ p, s.parent = some p ↔
    ∃ a, b.argument? "parent" = some a ∧ toIdentifier a.value = p ∧ p ≠ ""
  color : Takes (b.argument? "color") ColorOf "000000" s.color
  size : Takes (b.argument? "size") SizeOf 24 s.size
  font : Takes (b.argument? "font") FontOf "Aptos" s.font

namespace Descriptor

theorem readColor_ok_iff {argument? : Option Argument} {default : String} :
    (∃ color, readValue argument? normalizeColor default = .ok color) ↔
      ∀ a ∈ argument?, IsColor a.value := by
  simp only [exists_readValue_iff, exists_normalizeColor_iff]

theorem readColor_eq_error_iff {argument? : Option Argument} {default : String} {e : Error} :
    readValue argument? normalizeColor default = .error e ↔ ∃ a, argument? = some a ∧
      ¬ IsColor a.value ∧ e = ⟨.invalidColor (Text.trim a.value), a.origin⟩ := by
  obtain ⟨fault, origin⟩ := e
  simp only [readValue_eq_error_iff, normalizeColor_eq_error_iff, and_assoc, Error.mk.injEq]

theorem readSize_ok_iff {argument? : Option Argument} {default : Nat} :
    (∃ size, readValue argument? parseSize default = .ok size) ↔
      ∀ a ∈ argument?, IsSize a.value := by
  simp only [exists_readValue_iff, exists_parseSize_iff]

theorem readSize_eq_error_iff {argument? : Option Argument} {default : Nat} {e : Error} :
    readValue argument? parseSize default = .error e ↔ ∃ a, argument? = some a ∧
      ¬ IsSize a.value ∧ e = ⟨.invalidSize a.value, a.origin⟩ := by
  obtain ⟨fault, origin⟩ := e
  simp only [readValue_eq_error_iff, parseSize_eq_error_iff, and_assoc, Error.mk.injEq]

theorem ofArguments_of_unnamed {b : Block} (h : b.argument? "name" = none) :
    ofArguments b.arguments = .error ⟨.missingStyleName, none⟩ := by
  have hlast : lastNamed? b.arguments "name" = none := h
  rw [ofArguments, hlast]

theorem ofArguments_of_named {b : Block} {name : Argument} (h : b.argument? "name" = some name) :
    ofArguments b.arguments =
      (readValue (b.argument? "color") normalizeColor defaultColor >>= fun color =>
        readValue (b.argument? "size") parseSize defaultSize >>= fun size =>
          if (toIdentifier name.value).isEmpty then
            .error ⟨.invalidStyleName name.value, name.origin⟩
          else .ok (ofName name.value (((b.argument? "parent").map fun a =>
            toIdentifier a.value).filter fun id => !id.isEmpty) color
            ((((b.argument? "font").map Argument.value).filter fun f => !f.isEmpty).getD
              fallbackFont) size)) := by
  have hlast : lastNamed? b.arguments "name" = some name := h
  rw [ofArguments, hlast]
  rfl

theorem isEmpty_toIdentifier_iff {name : String} :
    (toIdentifier name).isEmpty = true ↔ ¬ HasWord name := by
  rw [← toIdentifier_ne_empty_iff, not_not, String.isEmpty_iff]

theorem ofArguments_eq_error_iff {b : Block} {e : Error} :
    ofArguments b.arguments = .error e ↔ b.Faults e := by
  constructor
  · intro h
    cases hn : b.argument? "name" with
    | none =>
      rw [ofArguments_of_unnamed hn] at h
      cases h
      exact .unnamed hn
    | some name =>
      rw [ofArguments_of_named hn] at h
      rcases bind_eq_error.mp h with h | ⟨color, hc, h⟩
      · obtain ⟨a, ha, hcolor, rfl⟩ := readColor_eq_error_iff.mp h
        exact .color hn ha hcolor
      have hcolors := readColor_ok_iff.mp ⟨color, hc⟩
      rcases bind_eq_error.mp h with h | ⟨size, hs, h⟩
      · obtain ⟨a, ha, hsize, rfl⟩ := readSize_eq_error_iff.mp h
        exact .size hn hcolors ha hsize
      have hsizes := readSize_ok_iff.mp ⟨size, hs⟩
      split_ifs at h with hword
      cases h
      exact .wordless hn hcolors hsizes (isEmpty_toIdentifier_iff.mp hword)
  · intro h
    cases h with
    | unnamed hn => exact ofArguments_of_unnamed hn
    | color hn ha hcolor =>
      rw [ofArguments_of_named hn]
      exact bind_eq_error.mpr (.inl (readColor_eq_error_iff.mpr ⟨_, ha, hcolor, rfl⟩))
    | size hn hcolors ha hsize =>
      obtain ⟨color, hc⟩ := readColor_ok_iff.mpr hcolors
      rw [ofArguments_of_named hn]
      refine bind_eq_error.mpr (.inr ⟨color, hc, bind_eq_error.mpr (.inl ?_)⟩)
      exact readSize_eq_error_iff.mpr ⟨_, ha, hsize, rfl⟩
    | wordless hn hcolors hsizes hword =>
      obtain ⟨color, hc⟩ := readColor_ok_iff.mpr hcolors
      obtain ⟨size, hs⟩ := readSize_ok_iff.mpr hsizes
      rw [ofArguments_of_named hn]
      refine bind_eq_error.mpr (.inr ⟨color, hc, bind_eq_error.mpr (.inr ⟨size, hs, ?_⟩)⟩)
      rw [if_pos (isEmpty_toIdentifier_iff.mpr hword)]

theorem parent_eq_some_iff {argument? : Option Argument} {p : String} :
    ((argument?.map fun a => toIdentifier a.value).filter fun id => !id.isEmpty) = some p ↔
      ∃ a, argument? = some a ∧ toIdentifier a.value = p ∧ p ≠ "" := by
  simp only [Option.filter_eq_some_iff, Option.map_eq_some_iff, Bool.not_eq_true',
    Bool.eq_false_iff, ne_eq, String.isEmpty_iff]
  exact ⟨fun ⟨⟨a, ha, hp⟩, hne⟩ => ⟨a, ha, hp, hne⟩, fun ⟨a, ha, hp, hne⟩ => ⟨⟨a, ha, hp⟩, hne⟩⟩

theorem ofArguments_eq_ok_iff {b : Block} {s : Descriptor} :
    ofArguments b.arguments = .ok s ↔ b.Gives s := by
  constructor
  · intro h
    obtain ⟨name, hn, color, size, hi, hc, hs, rfl⟩ := ofArguments_eq_ok h
    exact {
      named := ⟨name, hn, toIdentifier_ne_empty_iff.mp hi, rfl, rfl⟩
      parent := fun p => parent_eq_some_iff
      color := (readValue_eq_ok_iff fun _ _ => normalizeColor_eq_ok_iff).mp hc
      size := (readValue_eq_ok_iff fun _ _ => parseSize_eq_ok_iff).mp hs
      font := takes_font _ }
  · intro h
    obtain ⟨name, hn, hword, hname, hid⟩ := h.named
    have hc := (readValue_eq_ok_iff fun _ _ => normalizeColor_eq_ok_iff).mpr h.color
    have hs := (readValue_eq_ok_iff fun _ _ => parseSize_eq_ok_iff).mpr h.size
    rw [ofArguments_of_named hn]
    refine bind_eq_ok.mpr ⟨s.color, hc, bind_eq_ok.mpr ⟨s.size, hs, ?_⟩⟩
    have hparent := Option.ext fun p => parent_eq_some_iff.trans (h.parent p).symm
    have hfont := (takes_font _).unique (fun _ _ _ hx hy => hx.trans hy.symm) h.font
    rw [if_neg fun he => isEmpty_toIdentifier_iff.mp he hword]
    rw [hparent, hfont, ofName, ← hid, ← hname]

/-- **The style of an argument list, or its fault.** The last argument of a name counts, and the
first check that fails gives the fault. -/
theorem ofArguments_exact (b : Block) :
    (∀ name a, b.argument? name = some a ↔ LastNamed b.arguments name a) ∧
    (∀ c : Block, (∀ name ∈ ["name", "parent", "color", "size", "font"],
      c.argument? name = b.argument? name) → ofArguments c.arguments = ofArguments b.arguments) ∧
    (∀ e, ofArguments b.arguments = .error e ↔ b.Faults e) ∧
    ∀ s, ofArguments b.arguments = .ok s ↔ b.Gives s := by
  refine ⟨fun _ _ => lastNamed?_eq_some, fun c hc => ?_, fun _ => ofArguments_eq_error_iff,
    fun _ => ofArguments_eq_ok_iff⟩
  have hlast : ∀ name ∈ ["name", "parent", "color", "size", "font"],
      lastNamed? c.arguments name = lastNamed? b.arguments name := hc
  simp only [List.forall_mem_cons] at hlast
  obtain ⟨hname, hparent, hcolor, hsize, hfont, -⟩ := hlast
  rw [ofArguments, ofArguments, hname, hparent, hcolor, hsize, hfont]

/-- Values that are not accepted do no harm before others of their name. -/
example : ofArguments [⟨"size", "x", none⟩, ⟨"name", "--", none⟩, ⟨"name", "a b", none⟩,
    ⟨"size", " +07 ", none⟩, ⟨"font", "", none⟩] =
      .ok ⟨"AB", "a b", none, "000000", "Aptos", 14⟩ := by
  decide +kernel

end Descriptor

end SheetMarkup
