import SheetMarkup.Proofs.Sheet.Columns
import SheetMarkup.Proofs.Text.Number

/-!
# What is read as an address

A text is split at its first character that is no letter. The part before it has to be a column, and
the part after it is left to the reader of whole numbers, which takes a plus sign as well. So a text
is an address exactly when it is in A1 notation or has a plus sign between its letters and digits.

* `Address.Places`: letters and digits that make a place;
* `Address.InNotation`, `Address.Signed`: texts without the sign and with it;
* `Address.parse_eq_ok_iff`: which address is read from a text;
* **`Address.exists_parse_iff`**: when there is one, and when that is A1 notation alone;
* `Address.exists_parse_signed`: a text that is read without being in A1 notation.
-/

namespace SheetMarkup.Address

/-! ## The notation -/

/-- One or more letters of a column that is read, and one or more digits of a row that is counted
from one and fits 64 bits. -/
structure Places (letters digits : List Char) : Prop where
  letters_ne_nil : letters ≠ []
  isAlpha : ∀ c ∈ letters, c.isAlpha = true
  digits_ne_nil : digits ≠ []
  isDigit : ∀ c ∈ digits, c.isDigit = true
  column : ∃ n, columnIndex? (String.ofList letters) = some n
  one_le : 1 ≤ Text.digitsValue digits
  le_last : Text.digitsValue digits ≤ 2 ^ 64 - 1

/-- Letters followed by digits and nothing else. -/
def InNotation (s : String) : Prop :=
  ∃ letters digits, s.toList = letters ++ digits ∧ Places letters digits

/-- Letters followed by a plus sign and digits. -/
def Signed (s : String) : Prop :=
  ∃ letters digits, s.toList = letters ++ '+' :: digits ∧ Places letters digits

/-! ## Reading -/

theorem not_isAsciiLetter_of_isNumber {cs : List Char} {n : Nat} (h : Text.IsNumber cs n) :
    ∃ c rest, cs = c :: rest ∧ Text.isAsciiLetter c = false := by
  obtain ⟨sign, digits, rfl, hsign, hne, hdigits, -⟩ := h
  obtain ⟨d, ds, rfl⟩ := List.exists_cons_of_ne_nil hne
  rcases hsign with rfl | rfl
  · exact ⟨d, ds, rfl, isAsciiLetter_of_isDigit (hdigits d List.mem_cons_self)⟩
  · exact ⟨'+', d :: ds, rfl, by decide⟩

/-- What the reader does with the two parts of a trimmed text. -/
theorem parse_eq_ok_iff_of_parts {s : String} {a : Address} : parse s = .ok a ↔
    columnIndex? (String.ofList ((Text.trim s).toList.takeWhile Text.isAsciiLetter)) =
        some a.column ∧
      Text.parseNat? Text.bound64
        (String.ofList ((Text.trim s).toList.dropWhile Text.isAsciiLetter)) = some (a.row + 1) := by
  rw [Text.trim_toList, parse]
  obtain ⟨row, column⟩ := a
  dsimp only
  constructor
  · intro h
    split at h
    · next hcolumn hrow =>
      cases h
      exact ⟨hcolumn, hrow⟩
    · cases h
  · rintro ⟨hcolumn, hrow⟩
    rw [hcolumn, hrow]

/-- **A text is read as an address exactly when letters of its column stand before the number of its
row.** The letters of a column hold no digit and no sign, so the split stands behind them. -/
theorem parse_eq_ok_iff {s : String} {a : Address} : parse s = .ok a ↔
    ∃ letters number, (Text.trim s).toList = letters ++ number ∧
      columnIndex? (String.ofList letters) = some a.column ∧
      Text.IsNumber number (a.row + 1) ∧ a.row + 1 < Text.bound64 := by
  rw [parse_eq_ok_iff_of_parts, Text.parseNat?_eq_some, String.toList_ofList]
  constructor
  · rintro ⟨hcolumn, hrow⟩
    exact ⟨_, _, List.takeWhile_append_dropWhile.symm, hcolumn, hrow⟩
  · rintro ⟨letters, number, hs, hcolumn, hnumber, hfits⟩
    obtain ⟨-, hletters, -⟩ := columnIndex?_eq_some.mp hcolumn
    rw [String.toList_ofList] at hletters
    obtain ⟨c, rest, rfl, hc⟩ := not_isAsciiLetter_of_isNumber hnumber
    rw [hs, Text.takeWhile_append_stop hletters hc, Text.dropWhile_append_stop hletters hc]
    exact ⟨hcolumn, hnumber, hfits⟩

/-! ## Acceptance -/

theorem places_iff {letters digits : List Char} : Places letters digits ↔
    ∃ a : Address, columnIndex? (String.ofList letters) = some a.column ∧
      Text.digits? digits = some (a.row + 1) ∧ a.row + 1 < Text.bound64 := by
  have hbound : Text.bound64 = 2 ^ 64 := by decide
  constructor
  · intro h
    obtain ⟨column, hcolumn⟩ := h.column
    have hpos := h.one_le
    have hlast := h.le_last
    refine ⟨⟨Text.digitsValue digits - 1, column⟩, hcolumn, ?_, ?_⟩
    · refine Text.digits?_eq_some.mpr ⟨h.digits_ne_nil, fun c hc => ?_, ?_⟩
      · exact Text.isDigit_eq (h.isDigit c hc)
      · dsimp only
        omega
    · dsimp only
      omega
  · rintro ⟨a, hcolumn, hrow, hfits⟩
    obtain ⟨hletters_ne, hletters, -⟩ := columnIndex?_eq_some.mp hcolumn
    obtain ⟨hdigits_ne, hdigits, hvalue⟩ := Text.digits?_eq_some.mp hrow
    rw [String.toList_ofList] at hletters_ne hletters
    refine ⟨hletters_ne, fun c hc => Text.isAsciiLetter_iff.mp (hletters c hc), hdigits_ne,
      fun c hc => Text.isDigit_iff.mp (hdigits c hc), ⟨a.column, hcolumn⟩, by omega, by omega⟩

theorem exists_parse_iff_or (s : String) : (∃ a, parse s = .ok a) ↔
    InNotation (Text.trim s) ∨ Signed (Text.trim s) := by
  simp only [InNotation, Signed, places_iff, parse_eq_ok_iff, Text.isNumber_iff]
  constructor
  · rintro ⟨a, letters, number, hs, hcolumn, hnumber | ⟨digits, rfl, hdigits⟩, hfits⟩
    · exact .inl ⟨letters, number, hs, a, hcolumn, hnumber, hfits⟩
    · exact .inr ⟨letters, digits, hs, a, hcolumn, hdigits, hfits⟩
  · rintro (⟨letters, digits, hs, a, hcolumn, hrow, hfits⟩ |
      ⟨letters, digits, hs, a, hcolumn, hrow, hfits⟩)
    · exact ⟨a, letters, digits, hs, hcolumn, .inl hrow, hfits⟩
    · exact ⟨a, letters, '+' :: digits, hs, hcolumn, .inr ⟨digits, rfl, hrow⟩, hfits⟩

theorem InNotation.not_signed {s : String} (h : InNotation s) : ¬ Signed s := by
  obtain ⟨letters, digits, hs, hplaces⟩ := h
  rintro ⟨letters', digits', hs', -⟩
  have hplus : '+' ∈ letters ++ digits := by
    rw [← hs, hs']
    exact List.mem_append_right _ List.mem_cons_self
  rcases List.mem_append.mp hplus with hplus | hplus
  · exact absurd (hplaces.isAlpha _ hplus) (by decide)
  · exact absurd (hplaces.isDigit _ hplus) (by decide)

/-- **What is read as an address:** A1 notation, and the same with a plus sign before the row. -/
theorem exists_parse_iff (s : String) :
    ((∃ a, parse s = .ok a) ↔ InNotation (Text.trim s) ∨ Signed (Text.trim s)) ∧
      (((∃ a, parse s = .ok a) ↔ InNotation (Text.trim s)) ↔ ¬ Signed (Text.trim s)) := by
  refine ⟨exists_parse_iff_or s, ?_⟩
  rw [exists_parse_iff_or]
  constructor
  · intro h hsigned
    exact (h.mp (.inr hsigned)).not_signed hsigned
  · exact or_iff_left

/-- The sign is read over, though the text is not in A1 notation. -/
theorem exists_parse_signed : parse "A+1" = .ok ⟨0, 0⟩ ∧ ¬ InNotation (Text.trim "A+1") := by
  refine ⟨by decide +kernel, fun h => h.not_signed ⟨['A'], ['1'], by decide +kernel, ?_⟩⟩
  exact {
    letters_ne_nil := List.cons_ne_nil _ _
    isAlpha := List.forall_mem_singleton.mpr (by decide)
    digits_ne_nil := List.cons_ne_nil _ _
    isDigit := List.forall_mem_singleton.mpr (by decide)
    column := ⟨0, by decide +kernel⟩
    one_le := by decide
    le_last := by decide }

end SheetMarkup.Address
