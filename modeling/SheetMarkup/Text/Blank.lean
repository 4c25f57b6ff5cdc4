/-!
# Blank characters

White space in the sense of Unicode, and the two ways in which the rest of the library uses it:
trimming a text and telling whether a text is blank.

* `isBlank`: the characters with the `White_Space` property.
* `trimChars`, `trim`: a text without the blanks at its two ends.
* `dropEndWhile`, `trimWhile`: the same for any class of elements.
-/

namespace SheetMarkup.Text

/-- The characters with the Unicode property `White_Space`. -/
def isBlank (c : Char) : Bool :=
  let n := c.toNat
  (9 ≤ n && n ≤ 13) || n == 0x20 || n == 0x85 || n == 0xA0 || n == 0x1680 ||
    (0x2000 ≤ n && n ≤ 0x200A) || n == 0x2028 || n == 0x2029 || n == 0x202F || n == 0x205F ||
    n == 0x3000

/-- A list without the elements of a class at its end. -/
def dropEndWhile {α : Type} (p : α → Bool) (xs : List α) : List α :=
  (xs.reverse.dropWhile p).reverse

/-- A list without the elements of a class at its two ends. -/
def trimWhile {α : Type} (p : α → Bool) (xs : List α) : List α :=
  dropEndWhile p (xs.dropWhile p)

/-- The characters of a text without the blanks at its two ends. -/
def trimChars (cs : List Char) : List Char := trimWhile isBlank cs

/-- A text without the blanks at its two ends. -/
def trim (s : String) : String := String.ofList (trimChars s.toList)

/-- A text without a visible character. -/
def isBlankText (s : String) : Bool := s.toList.all isBlank

@[simp] theorem trim_toList (s : String) : (trim s).toList = trimChars s.toList := by
  simp [trim]

theorem trimWhile_eq_nil_iff {α : Type} (p : α → Bool) (xs : List α) :
    trimWhile p xs = [] ↔ ∀ x ∈ xs, p x = true := by
  have key : ∀ ys : List α, ys.dropWhile p = [] ↔ ∀ y ∈ ys, p y = true := by
    intro ys
    induction ys with
    | nil => simp
    | cons y ys ih => by_cases h : p y <;> simp [h, ih]
  unfold trimWhile dropEndWhile
  rw [List.reverse_eq_nil_iff, key]
  constructor
  · intro h
    refine (key xs).mp ?_
    cases hd : xs.dropWhile p with
    | nil => rfl
    | cons y ys =>
      have hy : p y = true := h y (by simp [hd])
      have := List.head?_dropWhile_not p xs
      rw [hd] at this
      simp [hy] at this
  · intro h x hx
    have : x ∈ xs.dropWhile p := by simpa using hx
    exact h x ((List.dropWhile_sublist p).subset this)

theorem trimChars_eq_nil_iff (cs : List Char) : trimChars cs = [] ↔ cs.all isBlank = true := by
  rw [trimChars, trimWhile_eq_nil_iff, List.all_eq_true]

end SheetMarkup.Text
