import SheetMarkup.Proofs.Outcome
import SheetMarkup.Proofs.Text.Ascii
import SheetMarkup.Style.Descriptor

/-!
# What a style block declares

Inversion of the reading of a style block, and what every descriptor that was read is like.

* `isAsciiAlphanumeric_of_mem_toIdentifier`: identifiers consist of ASCII letters and digits;
* **`ofArguments_eq_error`**, `ofBlock_eq_error`: the argument that a fault is found at;
* `ofArguments_eq_ok`: the arguments that a descriptor is made of;
* `Descriptor.Sound`, **`ofBlock_sound`**: what every descriptor of a block is like.
-/

namespace SheetMarkup

open Outcome

/-! ## Identifiers -/

theorem isAsciiAlphanumeric_of_mem_identifierFrom {inWord : Bool} {cs : List Char} {c : Char}
    (h : c ∈ identifierFrom inWord cs) : Text.isAsciiAlphanumeric c = true := by
  induction cs generalizing inWord with
  | nil => cases h
  | cons d cs ih =>
    unfold identifierFrom at h
    by_cases hd : Text.isAsciiAlphanumeric d = true
    · rw [if_pos hd, List.mem_cons] at h
      rcases h with rfl | h
      · split_ifs
        · exact Text.isAsciiAlphanumeric_asciiLower hd
        · exact Text.isAsciiAlphanumeric_asciiUpper hd
      · exact ih h
    · rw [if_neg hd] at h
      exact ih h

theorem isAsciiAlphanumeric_of_mem_toIdentifier {name : String} {c : Char}
    (h : c ∈ (toIdentifier name).toList) : Text.isAsciiAlphanumeric c = true := by
  rw [toIdentifier, String.toList_ofList] at h
  exact isAsciiAlphanumeric_of_mem_identifierFrom h

/-! ## Values -/

theorem mem_of_lastNamed? {arguments : List Argument} {name : String} {a : Argument}
    (h : lastNamed? arguments name = some a) : a ∈ arguments ∧ a.name = name := by
  have hm := List.mem_filter.mp (List.mem_of_getLast? h)
  exact ⟨hm.1, beq_iff_eq.mp hm.2⟩

theorem normalizeColor_eq_error {value : String} {fault : Fault}
    (h : normalizeColor value = .error fault) : fault = .invalidColor (Text.trim value) := by
  unfold normalizeColor at h
  simp only at h
  split_ifs at h
  cases h
  rfl

theorem normalizeColor_eq_ok {value color : String} (h : normalizeColor value = .ok color) :
    isHexColor color.toList = true := by
  unfold normalizeColor at h
  simp only at h
  split_ifs at h with hc
  cases h
  rwa [String.toList_ofList]

theorem parseSize_eq_error {value : String} {fault : Fault}
    (h : parseSize value = .error fault) : fault = .invalidSize value := by
  unfold parseSize at h
  split at h
  · split_ifs at h
    cases h
    rfl
  · cases h
    rfl

namespace Descriptor

variable {α : Type} {argument? : Option Argument} {read : String → Except Fault α} {default : α}

theorem readValue_eq_error {e : Error} (h : readValue argument? read default = .error e) :
    ∃ a ∈ argument?, read a.value = .error e.fault ∧ e.origin = a.origin := by
  cases argument? with
  | none => cases h
  | some a =>
    obtain ⟨fault, hf, rfl⟩ := mapError_eq_error.mp h
    exact ⟨a, rfl, hf, rfl⟩

theorem readValue_eq_ok {x : α} (h : readValue argument? read default = .ok x) :
    x = default ∨ ∃ a ∈ argument?, read a.value = .ok x := by
  cases argument? with
  | none => cases h; exact Or.inl rfl
  | some a => exact Or.inr ⟨a, rfl, mapError_eq_ok.mp h⟩

/-! ## Argument lists -/

/-- **The argument that a fault is found at.** Only a missing name is found at none. -/
theorem ofArguments_eq_error {arguments : List Argument} {e : Error}
    (h : ofArguments arguments = .error e) :
    e = ⟨.missingStyleName, none⟩ ∨ ∃ a ∈ arguments, e.origin = a.origin ∧
      (a.name = "name" ∧ e.fault = .invalidStyleName a.value ∨
        a.name = "color" ∧ e.fault = .invalidColor (Text.trim a.value) ∨
        a.name = "size" ∧ e.fault = .invalidSize a.value) := by
  unfold ofArguments at h
  cases hn : lastNamed? arguments "name" with
  | none =>
    rw [hn] at h
    cases h
    exact Or.inl rfl
  | some name =>
    rw [hn] at h
    refine Or.inr ?_
    rcases bind_eq_error.mp h with h | ⟨color, -, h⟩
    · obtain ⟨a, ha, hf, ho⟩ := readValue_eq_error h
      obtain ⟨hm, hname⟩ := mem_of_lastNamed? ha
      exact ⟨a, hm, ho, Or.inr (Or.inl ⟨hname, normalizeColor_eq_error hf⟩)⟩
    rcases bind_eq_error.mp h with h | ⟨size, -, h⟩
    · obtain ⟨a, ha, hf, ho⟩ := readValue_eq_error h
      obtain ⟨hm, hname⟩ := mem_of_lastNamed? ha
      exact ⟨a, hm, ho, Or.inr (Or.inr ⟨hname, parseSize_eq_error hf⟩)⟩
    · obtain ⟨hm, hname⟩ := mem_of_lastNamed? hn
      simp only at h
      split_ifs at h
      cases h
      exact ⟨name, hm, rfl, Or.inl ⟨hname, rfl⟩⟩

theorem ofArguments_eq_ok {arguments : List Argument} {s : Descriptor}
    (h : ofArguments arguments = .ok s) : ∃ name ∈ lastNamed? arguments "name", ∃ color size,
      toIdentifier name.value ≠ "" ∧
      readValue (lastNamed? arguments "color") normalizeColor defaultColor = .ok color ∧
      readValue (lastNamed? arguments "size") parseSize defaultSize = .ok size ∧
      s = ofName name.value (((lastNamed? arguments "parent").map fun a =>
        toIdentifier a.value).filter fun id => !id.isEmpty) color
        ((((lastNamed? arguments "font").map Argument.value).filter fun f => !f.isEmpty).getD
          fallbackFont) size := by
  unfold ofArguments at h
  cases hn : lastNamed? arguments "name" with
  | none => rw [hn] at h; cases h
  | some name =>
    rw [hn] at h
    obtain ⟨color, hc, h⟩ := bind_eq_ok.mp h
    obtain ⟨size, hs, h⟩ := bind_eq_ok.mp h
    simp only at h
    split_ifs at h with hi
    cases h
    exact ⟨name, rfl, color, size, fun he => hi (String.isEmpty_iff.mpr he), hc, hs, rfl⟩

/-! ## Blocks -/

theorem ofBlock_eq_error {b : Block} {e : Error} (h : ofBlock b = .error e) :
    e = ⟨.missingStyleName, b.origin⟩ ∨ ∃ a ∈ b.arguments, e.origin = a.origin.or b.origin ∧
      (a.name = "name" ∧ e.fault = .invalidStyleName a.value ∨
        a.name = "color" ∧ e.fault = .invalidColor (Text.trim a.value) ∨
        a.name = "size" ∧ e.fault = .invalidSize a.value) := by
  obtain ⟨e', he, rfl⟩ := mapError_eq_error.mp h
  rcases ofArguments_eq_error he with rfl | ⟨a, ha, ho, hf⟩
  · exact Or.inl rfl
  · exact Or.inr ⟨a, ha, by rw [ho], hf⟩

/-- What every descriptor of a block is like. -/
structure Sound (s : Descriptor) : Prop where
  id_eq : s.id = toIdentifier s.name
  id_ne : s.id ≠ ""
  color : isHexColor s.color.toList = true
  parent : ∀ p ∈ s.parent, p ≠ "" ∧ ∀ c ∈ p.toList, Text.isAsciiAlphanumeric c = true

/-- **A descriptor that was read from a block is sound.** -/
theorem ofBlock_sound {b : Block} {s : Descriptor} (h : ofBlock b = .ok s) : s.Sound := by
  obtain ⟨name, -, color, size, hi, hc, -, rfl⟩ := ofArguments_eq_ok (mapError_eq_ok.mp h)
  refine ⟨rfl, hi, ?_, fun p hp => ?_⟩
  · rcases readValue_eq_ok hc with rfl | ⟨a, -, ha⟩
    · exact (by decide : isHexColor defaultColor.toList = true)
    · exact normalizeColor_eq_ok ha
  · obtain ⟨hm, he⟩ := Option.filter_eq_some_iff.mp hp
    obtain ⟨a, -, rfl⟩ := Option.map_eq_some_iff.mp hm
    refine ⟨fun hempty => ?_, fun c hc => isAsciiAlphanumeric_of_mem_toIdentifier hc⟩
    rw [hempty] at he
    cases he

end Descriptor

end SheetMarkup
