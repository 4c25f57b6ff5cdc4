import SheetMarkup.Proofs.Text.Ascii
import SheetMarkup.Proofs.Text.Decimal
import SheetMarkup.Proofs.Text.Trim
import SheetMarkup.Sheet.Address

/-!
# Written addresses

Numbers, columns and addresses that fit 64 bits are read back from their written forms.

* `parseNat?_decimal`: numbers;
* `foldl_columnLetters`: the letters of a column, from the highest place down;
* `columnIndex?_columnName`: columns;
* **`Address.parse_text`**: addresses.
-/

namespace SheetMarkup

/-! ## Characters -/

theorem isBlank_of_isAsciiAlphanumeric {c : Char} (h : Text.isAsciiAlphanumeric c = true) :
    Text.isBlank c = false := by
  rw [Text.isAsciiAlphanumeric_bounds] at h
  simp only [Text.isBlank, Bool.or_eq_false_iff, Bool.and_eq_false_iff, decide_eq_false_iff_not,
    beq_eq_false_iff_ne]
  omega

theorem isAsciiLetter_of_isDigit {c : Char} (h : Text.isDigit c = true) :
    Text.isAsciiLetter c = false := by
  simp only [Text.isDigit, Bool.and_eq_true, decide_eq_true_eq] at h
  simp only [Text.isAsciiLetter, Bool.or_eq_false_iff, Bool.and_eq_false_iff,
    decide_eq_false_iff_not]
  omega

theorem trimChars_eq_self {cs : List Char} (h : ∀ c ∈ cs, Text.isAsciiAlphanumeric c = true) :
    Text.trimChars cs = cs := by
  apply Text.trimWhile_eq_self
  · intro c hc
    exact isBlank_of_isAsciiAlphanumeric (h c (List.mem_of_head? hc))
  · intro c hc
    exact isBlank_of_isAsciiAlphanumeric (h c (List.mem_of_getLast? hc))

/-! ## Numbers -/

theorem isDigit_decimal {n : Nat} {c : Char} (h : c ∈ (Text.decimal n).toList) :
    Text.isDigit c = true :=
  Text.isDigit_eq (Text.isDigit_of_mem_decimal h)

theorem exists_decimal (n : Nat) : ∃ c cs, (Text.decimal n).toList = c :: cs := by
  apply List.exists_cons_of_ne_nil
  rw [Text.decimal, String.toList_ofList]
  exact Nat.toDigits_ne_nil

theorem parseNat?_decimal {n bound : Nat} (h : n < bound) :
    Text.parseNat? bound (Text.decimal n) = some n := by
  obtain ⟨c, cs, hcs⟩ := exists_decimal n
  have hplus : c ≠ '+' := by
    rintro rfl
    have hdigit : Text.isDigit '+' = true := isDigit_decimal (n := n) (by rw [hcs]; simp)
    exact absurd hdigit (by decide)
  have hdigits := Text.digits?_decimal n
  rw [hcs] at hdigits
  unfold Text.parseNat?
  rw [hcs]
  split
  · next heq => exact absurd (List.cons.inj heq).1 hplus
  · show (Text.digits? (c :: cs)).filter (· < bound) = some n
    rw [hdigits]
    simp [h]

theorem trim_decimal (n : Nat) : Text.trim (Text.decimal n) = Text.decimal n := by
  have hall : ∀ c ∈ (Text.decimal n).toList, Text.isAsciiAlphanumeric c = true := by
    intro c hc
    rw [Text.isAsciiAlphanumeric, isDigit_decimal hc, Bool.or_true]
  rw [Text.trim, trimChars_eq_self hall, String.ofList_toList]

/-! ## Columns -/

theorem letter_spec : ∀ k < 26, Text.isAsciiLetter (Char.ofNat (65 + k)) = true ∧
    letterValue (Char.ofNat (65 + k)) = k + 1 := by
  decide

/-- One letter more, at the lowest place. -/
def addLetter (n? : Option Nat) (c : Char) : Option Nat := n?.bind fun n =>
  if Text.isAsciiLetter c && n * 26 + letterValue c < Text.bound64 then
    some (n * 26 + letterValue c)
  else none

/-- **Reading the letters of a number gives the number**, in front of the letters of lower places. -/
theorem foldl_columnLetters {n : Nat} (hn : n < Text.bound64) (lower : List Char) :
    (columnLetters n lower).foldl addLetter (some 0) = lower.foldl addLetter (some n) := by
  fun_induction columnLetters n lower with
  | case1 lower => rfl
  | case2 n lower hne ih =>
    have hsum : (n - 1) / 26 * 26 + ((n - 1) % 26 + 1) = n := by omega
    obtain ⟨hletter, hvalue⟩ := letter_spec ((n - 1) % 26) (by omega)
    rw [ih (by omega), List.foldl_cons]
    congr 1
    show (if _ then _ else _) = _
    rw [hletter, hvalue, hsum, Bool.true_and, if_pos (decide_eq_true hn)]

theorem columnLetters_eq (n : Nat) (lower : List Char) : ∃ letters,
    columnLetters n lower = letters ++ lower ∧ (∀ c ∈ letters, Text.isAsciiLetter c = true) ∧
      (n ≠ 0 → letters ≠ []) := by
  fun_induction columnLetters n lower with
  | case1 lower => exact ⟨[], rfl, by simp, fun h => absurd rfl h⟩
  | case2 n lower hne ih =>
    obtain ⟨letters, hsplit, hletters, -⟩ := ih
    have hletter := (letter_spec ((n - 1) % 26) (by omega)).1
    refine ⟨letters ++ [Char.ofNat (65 + (n - 1) % 26)], ?_, ?_, by simp⟩
    · rw [hsplit]
      simp
    · intro c hc
      rcases List.mem_append.mp hc with hc | hc
      · exact hletters c hc
      · rw [List.mem_singleton.mp hc]
        exact hletter

theorem columnName_spec (column : Nat) : (columnName column).toList ≠ [] ∧
    ∀ c ∈ (columnName column).toList, Text.isAsciiLetter c = true := by
  obtain ⟨letters, hsplit, hletters, hne⟩ := columnLetters_eq (column + 1) []
  rw [columnName, String.toList_ofList, hsplit, List.append_nil]
  exact ⟨hne (Nat.succ_ne_zero column), hletters⟩

theorem columnIndex?_columnName {column : Nat} (h : column + 1 < Text.bound64) :
    columnIndex? (columnName column) = some column := by
  have hvalue : lettersValue? (columnName column).toList = some (column + 1) := by
    rw [columnName, String.toList_ofList]
    exact foldl_columnLetters h []
  rw [columnIndex?, hvalue, if_neg (by simpa using (columnName_spec column).1)]
  rfl

/-! ## Addresses -/

theorem Address.isAsciiAlphanumeric_text {a : Address} {c : Char} (h : c ∈ a.text.toList) :
    Text.isAsciiAlphanumeric c = true := by
  rw [Address.text, String.toList_append] at h
  rcases List.mem_append.mp h with h | h
  · rw [Text.isAsciiAlphanumeric, (columnName_spec a.column).2 c h, Bool.true_or]
  · rw [Text.isAsciiAlphanumeric, isDigit_decimal h, Bool.or_true]

/-- **A written address is read back.** -/
theorem Address.parse_text {a : Address} (hrow : a.row + 1 < Text.bound64)
    (hcolumn : a.column + 1 < Text.bound64) : Address.parse a.text = .ok a := by
  have htrim : Text.trimChars a.text.toList =
      (columnName a.column).toList ++ (Text.decimal (a.row + 1)).toList := by
    rw [trimChars_eq_self fun c hc => Address.isAsciiAlphanumeric_text hc, Address.text,
      String.toList_append]
  -- the letters end at the first digit
  obtain ⟨d, ds, hds⟩ := exists_decimal (a.row + 1)
  have hd : Text.isAsciiLetter d = false :=
    isAsciiLetter_of_isDigit (isDigit_decimal (n := a.row + 1) (by rw [hds]; simp))
  have hletters := (columnName_spec a.column).2
  have htake := Text.takeWhile_append_stop hletters hd ds
  have hdrop := Text.dropWhile_append_stop hletters hd ds
  rw [← hds] at htake hdrop
  rw [Address.parse]
  simp only [htrim, htake, hdrop, String.ofList_toList]
  rw [columnIndex?_columnName hcolumn, parseNat?_decimal hrow]

end SheetMarkup
