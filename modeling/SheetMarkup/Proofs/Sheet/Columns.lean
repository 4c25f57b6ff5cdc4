import Mathlib.Data.List.Induction
import Mathlib.Data.Nat.Digits.Defs
import SheetMarkup.Proofs.Sheet.Address
import SheetMarkup.Proofs.Text.Ascii

/-!
# Columns as numbers in letters

The letters of a column are the digits of a number in base 26 that has no zero: each place counts
from one to twenty-six. So every number has one spelling in capitals, and every spelling stands for
one number. Reading it stops where the number no longer fits 64 bits.

* `columnNumber`, **`lettersValue?_eq_some`**: the number that letters stand for, and when it
  is read;
* `columnLetters_step`, **`columnLetters_columnNumber`**: writing the number gives the letters back,
  as capitals;
* `within64`, `lettersChecked`, `numberChecked`: writing and reading with a check of every number
  that comes up;
* **`columns_coded`**: columns, addresses and their texts.
-/

namespace SheetMarkup

/-! ## Letters -/

theorem letterValue_spec {c : Char} (h : Text.isAsciiLetter c = true) :
    1 ≤ letterValue c ∧ letterValue c ≤ 26 ∧
      Char.ofNat (65 + (letterValue c - 1)) = Text.asciiUpper c := by
  rw [Text.isAsciiLetter_iff, ← Text.isUpper_asciiUpper, Text.isUpper_iff] at h
  unfold letterValue
  refine ⟨by omega, by omega, ?_⟩
  rw [show 65 + ((Text.asciiUpper c).toNat - 64 - 1) = (Text.asciiUpper c).toNat by omega,
    Char.ofNat_toNat]

/-! ## Reading -/

/-- The number that letters stand for in base 26, with the lowest place at the end. -/
def columnNumber (cs : List Char) : Nat := Nat.ofDigits 26 (cs.reverse.map letterValue)

theorem columnNumber_append_singleton (cs : List Char) (c : Char) :
    columnNumber (cs ++ [c]) = columnNumber cs * 26 + letterValue c := by
  rw [columnNumber, List.reverse_append, List.reverse_singleton, List.singleton_append,
    List.map_cons, Nat.ofDigits_cons, columnNumber]
  exact (Nat.add_comm _ _).trans (by rw [Nat.mul_comm])

theorem addLetter_eq_some {n? : Option Nat} {c : Char} {n : Nat} :
    addLetter n? c = some n ↔ ∃ m, n? = some m ∧ Text.isAsciiLetter c = true ∧
      m * 26 + letterValue c = n ∧ n < Text.bound64 := by
  rw [addLetter, Option.bind_eq_some_iff]
  refine exists_congr fun m => and_congr_right fun _ => ?_
  rw [Option.ite_none_right_eq_some, Bool.and_eq_true, decide_eq_true_eq, Option.some.injEq]
  constructor
  · rintro ⟨⟨hletter, hfits⟩, rfl⟩
    exact ⟨hletter, rfl, hfits⟩
  · rintro ⟨hletter, rfl, hfits⟩
    exact ⟨⟨hletter, hfits⟩, rfl⟩

/-- **Letters are read as their number**, where it fits 64 bits. -/
theorem lettersValue?_eq_some {cs : List Char} {n : Nat} : lettersValue? cs = some n ↔
    (∀ c ∈ cs, Text.isAsciiLetter c = true) ∧ columnNumber cs = n ∧ n < Text.bound64 := by
  induction cs using List.reverseRecOn generalizing n with
  | nil =>
    change some 0 = some n ↔ _ ∧ 0 = n ∧ _
    simp only [List.not_mem_nil, IsEmpty.forall_iff, implies_true, true_and, Option.some.injEq]
    exact ⟨fun h => ⟨h, h ▸ by decide⟩, And.left⟩
  | append_singleton cs c ih =>
    have hstep : lettersValue? (cs ++ [c]) = addLetter (lettersValue? cs) c := by
      rw [lettersValue?, List.foldl_append]
      rfl
    rw [hstep, addLetter_eq_some, columnNumber_append_singleton, List.forall_mem_append,
      List.forall_mem_singleton]
    constructor
    · rintro ⟨m, hm, hletter, rfl, hfits⟩
      obtain ⟨hletters, rfl, -⟩ := ih.mp hm
      exact ⟨⟨hletters, hletter⟩, rfl, hfits⟩
    · rintro ⟨⟨hletters, hletter⟩, rfl, hfits⟩
      -- the number of the letters before the last one is smaller
      exact ⟨_, ih.mpr ⟨hletters, rfl, by omega⟩, hletter, rfl, hfits⟩

theorem lettersValue?_eq_none {cs : List Char} : lettersValue? cs = none ↔
    (∃ c ∈ cs, Text.isAsciiLetter c = false) ∨ Text.bound64 ≤ columnNumber cs := by
  rw [Option.eq_none_iff_forall_ne_some]
  constructor
  · intro h
    by_cases hletters : ∀ c ∈ cs, Text.isAsciiLetter c = true
    · refine .inr (Nat.le_of_not_lt fun hfits => ?_)
      exact h _ (lettersValue?_eq_some.mpr ⟨hletters, rfl, hfits⟩)
    · push Not at hletters
      exact .inl (by simpa only [ne_eq, Bool.not_eq_true] using hletters)
  · rintro h n hn
    obtain ⟨hletters, rfl, hfits⟩ := lettersValue?_eq_some.mp hn
    rcases h with ⟨c, hc, hother⟩ | hgreat
    · exact absurd (hletters c hc) (Bool.eq_false_iff.mp hother)
    · omega

theorem columnNumber_pos {cs : List Char} (hne : cs ≠ [])
    (h : ∀ c ∈ cs, Text.isAsciiLetter c = true) : 1 ≤ columnNumber cs := by
  obtain ⟨front, c, rfl⟩ := (List.eq_nil_or_concat' cs).resolve_left hne
  have hlow := (letterValue_spec (h c (by simp))).1
  rw [columnNumber_append_singleton]
  omega

theorem columnIndex?_eq_some {s : String} {n : Nat} : columnIndex? s = some n ↔
    s.toList ≠ [] ∧ (∀ c ∈ s.toList, Text.isAsciiLetter c = true) ∧
      columnNumber s.toList = n + 1 ∧ n + 1 < Text.bound64 := by
  rw [columnIndex?, Option.ite_none_left_eq_some, List.isEmpty_iff, Option.map_eq_some_iff]
  refine and_congr_right fun hne => ?_
  simp only [lettersValue?_eq_some]
  constructor
  · rintro ⟨m, ⟨hletters, hm, hfits⟩, rfl⟩
    have hpos := columnNumber_pos hne hletters
    exact ⟨hletters, by omega, by omega⟩
  · rintro ⟨hletters, hm, hfits⟩
    exact ⟨n + 1, ⟨hletters, hm, hfits⟩, rfl⟩

theorem columnIndex?_eq_none {s : String} : columnIndex? s = none ↔
    s.toList = [] ∨ (∃ c ∈ s.toList, Text.isAsciiLetter c = false) ∨
      Text.bound64 ≤ columnNumber s.toList := by
  rw [columnIndex?]
  split_ifs with hempty
  · simp only [List.isEmpty_iff.mp hempty, true_or]
  · rw [Option.map_eq_none_iff, lettersValue?_eq_none,
      or_iff_right fun he => hempty (List.isEmpty_iff.mpr he)]

/-! ## Writing -/

/-- The lowest place of a number is written last. -/
theorem columnLetters_step {d : Nat} (hlow : 1 ≤ d) (hhigh : d ≤ 26) (m : Nat)
    (lower : List Char) : columnLetters (m * 26 + d) lower =
      columnLetters m (Char.ofNat (65 + (d - 1)) :: lower) := by
  rw [columnLetters, dif_neg (by omega)]
  rw [show (m * 26 + d - 1) / 26 = m by omega, show (m * 26 + d - 1) % 26 = d - 1 by omega]

/-- **Writing the number of some letters gives them back as capitals.** -/
theorem columnLetters_columnNumber {cs : List Char} (h : ∀ c ∈ cs, Text.isAsciiLetter c = true)
    (lower : List Char) :
    columnLetters (columnNumber cs) lower = cs.map Text.asciiUpper ++ lower := by
  induction cs using List.reverseRecOn generalizing lower with
  | nil =>
    rw [columnLetters]
    rfl
  | append_singleton cs c ih =>
    rw [List.forall_mem_append, List.forall_mem_singleton] at h
    obtain ⟨hlow, hhigh, hcapital⟩ := letterValue_spec h.2
    rw [columnNumber_append_singleton, columnLetters_step hlow hhigh, hcapital, ih h.1,
      List.map_append, List.map_singleton, List.append_assoc, List.singleton_append]

/-! ## Numbers on the way -/

/-- A result, unless one of the numbers that come up for it does not fit 64 bits. -/
def within64 {α : Type} (numbers : List Nat) (result : Option α) : Option α :=
  if ∀ n ∈ numbers, n < Text.bound64 then result else none

/-- The letters of a number, where all numbers that come up have to fit 64 bits. -/
def lettersChecked (n : Nat) (lower : List Char) : Option (List Char) :=
  if h : n = 0 then some lower
  else
    within64 [n, n - 1, (n - 1) % 26, 65 + (n - 1) % 26, (n - 1) / 26]
      (lettersChecked ((n - 1) / 26) (Char.ofNat (65 + (n - 1) % 26) :: lower))
termination_by n
decreasing_by omega

/-- The number of some letters, where all numbers that come up have to fit 64 bits. -/
def numberChecked (cs : List Char) : Option Nat :=
  cs.foldlM (fun n c => within64 [n * 26, letterValue c, n * 26 + letterValue c]
    (some (n * 26 + letterValue c))) 0

/-- **Writing a number that fits needs no greater one.** -/
theorem lettersChecked_eq {n : Nat} (hn : n < Text.bound64) (lower : List Char) :
    lettersChecked n lower = some (columnLetters n lower) := by
  fun_induction columnLetters n lower with
  | case1 lower => rw [lettersChecked, dif_pos rfl]
  | case2 n lower hne ih =>
    have hfit : ∀ m ∈ [n, n - 1, (n - 1) % 26, 65 + (n - 1) % 26, (n - 1) / 26],
        m < Text.bound64 := by
      simp only [List.forall_mem_cons, Text.bound64] at hn ⊢
      refine ⟨hn, by omega, by omega, by omega, by omega, by simp⟩
    rw [lettersChecked, dif_neg hne, within64, if_pos hfit, ih (by omega)]

/-- **Reading a number that fits needs no greater one.** -/
theorem numberChecked_eq {cs : List Char} (hn : columnNumber cs < Text.bound64) :
    numberChecked cs = some (columnNumber cs) := by
  induction cs using List.reverseRecOn with
  | nil => rfl
  | append_singleton cs c ih =>
    rw [columnNumber_append_singleton] at hn ⊢
    have hcs := ih (by omega)
    rw [numberChecked] at hcs ⊢
    rw [List.foldlM_append, hcs]
    have hfit : ∀ m ∈ [columnNumber cs * 26, letterValue c, columnNumber cs * 26 + letterValue c],
        m < Text.bound64 := by
      simp only [List.forall_mem_cons]
      exact ⟨by omega, by omega, hn, by simp⟩
    simp only [Option.bind_eq_bind, Option.bind_some, List.foldlM_cons, List.foldlM_nil, bind_pure]
    rw [within64, if_pos hfit]

/-! ## The code -/

theorem columnName_columnNumber {cs : List Char} (h : ∀ c ∈ cs, Text.isAsciiLetter c = true)
    {n : Nat} (hn : columnNumber cs = n + 1) : (columnName n).toList = cs.map Char.toUpper := by
  rw [columnName, String.toList_ofList, ← hn, columnLetters_columnNumber h, List.append_nil]
  exact List.map_congr_left fun c _ => Text.asciiUpper_eq_toUpper c

/-- **Columns are a code in letters.** What has a number of 64 bits is written and read back in
either case, and no step needs a greater number. -/
theorem columns_coded :
    (∀ n < 2 ^ 64 - 1, columnIndex? (columnName n) = some n ∧
      lettersChecked (n + 1) [] = some (columnName n).toList) ∧
    (∀ s n, columnIndex? s = some n → (columnName n).toList = s.toList.map Char.toUpper ∧
      n < 2 ^ 64 - 1 ∧ numberChecked s.toList = some (n + 1)) ∧
    (∀ s, columnIndex? s = none ↔ s = "" ∨ (∃ c ∈ s.toList, c.isAlpha = false) ∨
      2 ^ 64 - 1 < columnNumber s.toList) ∧
    ∀ a : Address, a.row < 2 ^ 64 - 1 → a.column < 2 ^ 64 - 1 → Address.parse a.text = .ok a := by
  have hbound : Text.bound64 = 2 ^ 64 := by decide
  refine ⟨fun n hn => ?_, fun s n h => ?_, fun s => ?_, fun a hrow hcolumn => ?_⟩
  · have hfits : n + 1 < Text.bound64 := by omega
    refine ⟨columnIndex?_columnName hfits, ?_⟩
    rw [lettersChecked_eq hfits, columnName, String.toList_ofList]
  · obtain ⟨-, hletters, hn, hfits⟩ := columnIndex?_eq_some.mp h
    refine ⟨columnName_columnNumber hletters hn, by omega, ?_⟩
    rw [← hn]
    exact numberChecked_eq (hn ▸ hfits)
  · rw [columnIndex?_eq_none, String.toList_eq_nil_iff]
    simp only [Bool.eq_false_iff, ne_eq, Text.isAsciiLetter_iff]
    refine or_congr Iff.rfl (or_congr Iff.rfl ?_)
    omega
  · exact Address.parse_text (by omega) (by omega)

theorem columns_coded_last :
    columnIndex? (columnName 18446744073709551614) = some 18446744073709551614 ∧
      columnIndex? "gkgwBYLWRXTLPO" = some 18446744073709551614 ∧
      columnName 18446744073709551614 = "GKGWBYLWRXTLPO" ∧
      columnIndex? "GKGWBYLWRXTLPP" = none ∧ 2 ^ 64 - 1 < columnNumber "GKGWBYLWRXTLPP".toList ∧
      Address.parse (Address.text ⟨18446744073709551614, 26⟩) =
        .ok ⟨18446744073709551614, 26⟩ := by
  obtain ⟨hwritten, hread, hunread, haddress⟩ := columns_coded
  have hmixed : columnIndex? "gkgwBYLWRXTLPO" = some 18446744073709551614 := by decide +kernel
  have hgreat : 2 ^ 64 - 1 < columnNumber "GKGWBYLWRXTLPP".toList := by decide +kernel
  refine ⟨(hwritten _ (by decide)).1, hmixed, ?_, (hunread _).mpr (.inr (.inr hgreat)), hgreat,
    haddress _ (by decide) (by decide)⟩
  rw [← String.toList_inj, (hread _ _ hmixed).1]
  decide

end SheetMarkup
