import Mathlib.Data.List.Basic
import SheetMarkup.Text.Blank
import SheetMarkup.Text.Number

/-!
# Numbers in a text

What the readers of numbers accept, and which number they give.

* `IsNumber`, `Denotes`: the texts of a number;
* `digits?_eq_some`, `isNumber_iff`: rows of digits, and what a sign adds to them;
* **`parseNat?_eq_some`**: numbers below a bound;
* `IsNumber.unique`: no text is two numbers.
-/

namespace SheetMarkup.Text

/-- The characters of a whole number: digits, perhaps with a plus sign before them. -/
def IsNumber (cs : List Char) (n : Nat) : Prop :=
  ∃ sign digits, cs = sign ++ digits ∧ (sign = [] ∨ sign = ['+']) ∧ digits ≠ [] ∧
    (∀ c ∈ digits, isDigit c = true) ∧ digitsValue digits = n

/-- The text is a whole number, perhaps with blanks around it. -/
def Denotes (text : String) (n : Nat) : Prop :=
  ∃ before cs after, text.toList = before ++ cs ++ after ∧
    (∀ c ∈ before ++ after, isBlank c = true) ∧ IsNumber cs n

theorem digits?_eq_some {cs : List Char} {n : Nat} : digits? cs = some n ↔
    cs ≠ [] ∧ (∀ c ∈ cs, isDigit c = true) ∧ digitsValue cs = n := by
  simp [digits?, and_assoc]

theorem isNumber_iff {cs : List Char} {n : Nat} : IsNumber cs n ↔
    digits? cs = some n ∨ ∃ digits, cs = '+' :: digits ∧ digits? digits = some n := by
  simp only [digits?_eq_some]
  constructor
  · rintro ⟨sign, digits, rfl, rfl | rfl, h⟩
    · exact .inl h
    · exact .inr ⟨digits, rfl, h⟩
  · rintro (h | ⟨digits, rfl, h⟩)
    · exact ⟨[], cs, rfl, .inl rfl, h⟩
    · exact ⟨['+'], digits, rfl, .inr rfl, h⟩

theorem isNumber_plus {cs : List Char} {n : Nat} :
    IsNumber ('+' :: cs) n ↔ digits? cs = some n := by
  have hplus : isDigit '+' = false := by decide
  rw [isNumber_iff]
  constructor
  · rintro (h | ⟨digits, hcs, h⟩)
    · obtain ⟨-, hdigits, -⟩ := digits?_eq_some.mp h
      rw [List.forall_mem_cons, hplus] at hdigits
      exact absurd hdigits.1 (by simp)
    · cases hcs
      exact h
  · intro h
    exact .inr ⟨cs, rfl, h⟩

theorem isNumber_unsigned {cs : List Char} {n : Nat} (h : ∀ ds, cs ≠ '+' :: ds) :
    IsNumber cs n ↔ digits? cs = some n := by
  rw [isNumber_iff]
  exact or_iff_left fun ⟨digits, hcs, _⟩ => h digits hcs

/-- **What is read as a number is one, and every number below the bound is read.** -/
theorem parseNat?_eq_some {bound n : Nat} {s : String} :
    parseNat? bound s = some n ↔ IsNumber s.toList n ∧ n < bound := by
  unfold parseNat?
  split
  · next ds heq =>
    rw [heq, isNumber_plus, Option.filter_eq_some_iff, decide_eq_true_iff]
  · next hunsigned =>
    rw [isNumber_unsigned hunsigned, Option.filter_eq_some_iff, decide_eq_true_iff]

theorem IsNumber.unique {cs : List Char} {n m : Nat} (hn : IsNumber cs n) (hm : IsNumber cs m) :
    n = m := by
  have hread : ∀ k, IsNumber cs k → k < max n m + 1 →
      parseNat? (max n m + 1) (String.ofList cs) = some k := by
    intro k hk hlt
    rw [parseNat?_eq_some, String.toList_ofList]
    exact ⟨hk, hlt⟩
  exact Option.some.inj ((hread n hn (by omega)).symm.trans (hread m hm (by omega)))

theorem IsNumber.ne_nil {cs : List Char} {n : Nat} (h : IsNumber cs n) : cs ≠ [] := by
  obtain ⟨sign, digits, rfl, -, hne, -⟩ := h
  simp [hne]

theorem IsNumber.isBlank {cs : List Char} {n : Nat} (h : IsNumber cs n) :
    ∀ c ∈ cs, isBlank c = false := by
  obtain ⟨sign, digits, rfl, hsign, -, hdigits, -⟩ := h
  rw [List.forall_mem_append]
  refine ⟨?_, fun c hc => ?_⟩
  · rcases hsign with rfl | rfl
    · simp
    · exact List.forall_mem_singleton.mpr (by decide)
  · have hdigit := hdigits c hc
    simp only [isDigit, Bool.and_eq_true, decide_eq_true_eq] at hdigit
    simp only [Text.isBlank, Bool.or_eq_false_iff, Bool.and_eq_false_iff,
      decide_eq_false_iff_not, beq_eq_false_iff_ne]
    omega

end SheetMarkup.Text
