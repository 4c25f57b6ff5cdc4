import SheetMarkup.Proofs.Text.Lowercase
import SheetMarkup.Text.Number

/-!
# ASCII letters and their case

The classes of ASCII characters by the bounds of their numbers, and what the change of case does to
them.

* `isUpper_iff`, `isAlpha_iff`, `isAsciiAlphanumeric_bounds`: the classes by their bounds, which are
  the classes of the library (`isAsciiLetter_iff`, `isAsciiAlphanumeric_iff`);
* `toNat_asciiUpper`, `toNat_asciiLower`: the number of a letter in the other case;
* `isUpper_asciiUpper`, `isUpper_asciiLower`, `asciiLower_eq_self_iff`: which characters are
  capitals.
-/

namespace SheetMarkup.Text

/-! ## Classes -/

theorem isUpper_iff {c : Char} : c.isUpper = true ↔ 65 ≤ c.toNat ∧ c.toNat ≤ 90 := by
  delta Char.isUpper
  simp only [decide_eq_true_eq, ge_iff_le, UInt32.le_iff_toNat_le]
  rfl

theorem isAlpha_iff {c : Char} : c.isAlpha = true ↔
    (65 ≤ c.toNat ∧ c.toNat ≤ 90) ∨ (97 ≤ c.toNat ∧ c.toNat ≤ 122) := by
  delta Char.isAlpha Char.isLower
  simp only [Bool.or_eq_true, isUpper_iff, Bool.and_eq_true, decide_eq_true_eq, ge_iff_le,
    UInt32.le_iff_toNat_le]
  rfl

theorem isAsciiLetter_iff {c : Char} : isAsciiLetter c = true ↔ c.isAlpha = true := by
  rw [isAlpha_iff]
  simp only [isAsciiLetter, Bool.or_eq_true, Bool.and_eq_true, decide_eq_true_eq]

theorem isAsciiAlphanumeric_bounds {c : Char} : isAsciiAlphanumeric c = true ↔
    (48 ≤ c.toNat ∧ c.toNat ≤ 57) ∨
      (65 ≤ c.toNat ∧ c.toNat ≤ 90) ∨ (97 ≤ c.toNat ∧ c.toNat ≤ 122) := by
  simp only [isAsciiAlphanumeric, isAsciiLetter, isDigit, Bool.or_eq_true, Bool.and_eq_true,
    decide_eq_true_eq]
  omega

theorem isAsciiAlphanumeric_iff {c : Char} :
    isAsciiAlphanumeric c = true ↔ c.isAlphanum = true := by
  delta Char.isAlphanum Char.isDigit
  simp only [isAsciiAlphanumeric, isDigit, Bool.or_eq_true, isAsciiLetter_iff, Bool.and_eq_true,
    decide_eq_true_eq, ge_iff_le, UInt32.le_iff_toNat_le]
  rfl

/-! ## Case -/

theorem toNat_asciiUpper (c : Char) : (asciiUpper c).toNat =
    if 97 ≤ c.toNat ∧ c.toNat ≤ 122 then c.toNat - 32 else c.toNat := by
  simp only [asciiUpper, Bool.and_eq_true, decide_eq_true_eq]
  split_ifs with h
  · exact Lowercase.toNat_ofNat (Or.inl (by omega))
  · rfl

theorem toNat_asciiLower (c : Char) : (asciiLower c).toNat =
    if 65 ≤ c.toNat ∧ c.toNat ≤ 90 then c.toNat + 32 else c.toNat := by
  simp only [asciiLower, Bool.and_eq_true, decide_eq_true_eq]
  split_ifs with h
  · exact Lowercase.toNat_ofNat (Or.inl (by omega))
  · rfl

theorem isAsciiAlphanumeric_asciiLower {c : Char} (h : isAsciiAlphanumeric c = true) :
    isAsciiAlphanumeric (asciiLower c) = true := by
  rw [isAsciiAlphanumeric_bounds] at h ⊢
  rw [toNat_asciiLower]
  split_ifs <;> omega

theorem isAsciiAlphanumeric_asciiUpper {c : Char} (h : isAsciiAlphanumeric c = true) :
    isAsciiAlphanumeric (asciiUpper c) = true := by
  rw [isAsciiAlphanumeric_bounds] at h ⊢
  rw [toNat_asciiUpper]
  split_ifs <;> omega

theorem asciiUpper_eq_toUpper (c : Char) : asciiUpper c = c.toUpper := by
  have hbounds : ('a'.val ≤ c.val ∧ c.val ≤ 'z'.val) ↔ 97 ≤ c.toNat ∧ c.toNat ≤ 122 := by
    simp only [UInt32.le_iff_toNat_le]
    rfl
  rw [← Char.toNat_inj, toNat_asciiUpper]
  delta Char.toUpper
  by_cases h : 'a'.val ≤ c.val ∧ c.val ≤ 'z'.val
  · have hsmall := hbounds.mp h
    rw [dif_pos h, if_pos hsmall]
    change _ = (c.val + ('A'.val - 'a'.val)).toNat
    rw [UInt32.toNat_add]
    change c.toNat - 32 = (c.toNat + 4294967264) % 4294967296
    omega
  · rw [dif_neg h, if_neg (mt hbounds.mpr h)]

theorem asciiUpper_asciiUpper (c : Char) : asciiUpper (asciiUpper c) = asciiUpper c := by
  rw [← Char.toNat_inj, toNat_asciiUpper (asciiUpper c), toNat_asciiUpper c]
  split_ifs <;> omega

theorem isUpper_asciiUpper (c : Char) : (asciiUpper c).isUpper = c.isAlpha := by
  rw [Bool.eq_iff_iff, isUpper_iff, isAlpha_iff, toNat_asciiUpper]
  split_ifs <;> omega

theorem isUpper_asciiLower (c : Char) : (asciiLower c).isUpper = false := by
  rw [Bool.eq_false_iff, ne_eq, isUpper_iff, toNat_asciiLower]
  split_ifs <;> omega

theorem asciiLower_eq_self_iff {c : Char} : asciiLower c = c ↔ c.isUpper = false := by
  rw [← Char.toNat_inj, toNat_asciiLower, Bool.eq_false_iff, ne_eq, isUpper_iff]
  split_ifs <;> omega

end SheetMarkup.Text
