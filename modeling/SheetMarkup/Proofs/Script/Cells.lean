import Mathlib.Data.List.Basic
import SheetMarkup.Proofs.Text.Lowercase
import SheetMarkup.Script.Parse

/-!
# What a cell says

In a command row the first cell is a word, and every further cell with content is a setting with
a key. Both are read off the cell as it stands, blanks included.

* `Cell.word`, `Cell.key`, `Cell.setting`: the readings of a cell;
* `Command.ofAlias?_word`: a word is looked up as it is read;
* **`Argument.parse_trim`**: the argument of a cell does not depend on the blanks around it;
* `Cell.value_ne_empty`, `Cell.classify_eq_image`: what content says about the value and kind.
-/

namespace SheetMarkup

namespace Cell

/-- The value as a word: trimmed and in lower case. -/
def word (c : Cell) : String := Text.lowercase (Text.trim c.value)

/-- What stands before the first equals sign, trimmed and in lower case. -/
def key (c : Cell) : String :=
  Text.lowercase (Text.trim (String.ofList (c.value.toList.takeWhile (· != '='))))

/-- What stands after the first equals sign, trimmed. -/
def setting (c : Cell) : String :=
  Text.trim (String.ofList (c.value.toList.dropWhile (· != '=')).tail)

end Cell

/-! ## Words -/

/-- **A word is looked up as it is read.** -/
theorem Command.ofAlias?_word (c : Cell) : ofAlias? c.word = ofWord? c.word := by
  rw [ofAlias?, Cell.word, Text.trim_lowercase_trim, Text.lowercase_lowercase]
  cases ofWord? (Text.lowercase (Text.trim c.value)) <;> rfl

theorem Command.ofWord?_eq_some {word : String} {command : Command} :
    ofWord? word = some command ↔ word ∈ command.aliases := by
  have key : ∀ w : String, w ∈ paragraph.aliases → w ∉ style.aliases := by
    intro w hp hs
    simp only [aliases, List.mem_cons, List.not_mem_nil, or_false] at hp hs
    rcases hp with rfl | rfl <;> revert hs <;> decide
  by_cases hp : word ∈ paragraph.aliases
  · have hw : ofWord? word = some paragraph := by simp [ofWord?, hp]
    rw [hw]
    cases command with
    | paragraph => simp [hp]
    | style => simp [key word hp]
  · by_cases hs : word ∈ style.aliases
    · have hw : ofWord? word = some style := by simp [ofWord?, hp, hs]
      rw [hw]
      cases command with
      | paragraph => simp [hp]
      | style => simp [hs]
    · have hw : ofWord? word = none := by simp [ofWord?, hp, hs]
      rw [hw]
      cases command with
      | paragraph => simp [hp]
      | style => simp [hs]

/-! ## Arguments -/

theorem bne_equals {xs : List Char} (h : '=' ∉ xs) : ∀ x ∈ xs, (x != '=') = true :=
  fun _ hx => bne_iff_ne.mpr fun e => h (e ▸ hx)

theorem takeWhile_append_equals {xs : List Char} (h : '=' ∉ xs) (ys : List Char) :
    (xs ++ '=' :: ys).takeWhile (· != '=') = xs :=
  Text.takeWhile_append_stop (bne_equals h) (by decide) ys

theorem dropWhile_append_equals {xs : List Char} (h : '=' ∉ xs) (ys : List Char) :
    (xs ++ '=' :: ys).dropWhile (· != '=') = '=' :: ys :=
  Text.dropWhile_append_stop (bne_equals h) (by decide) ys

namespace Argument

theorem parse_append {s : String} {xs ys : List Char} (hs : s.toList = xs ++ '=' :: ys)
    (h : '=' ∉ xs) : parse s = .ok {
      name := Text.lowercase (Text.trim (String.ofList xs))
      value := Text.trim (String.ofList ys) } := by
  rw [parse, hs, dropWhile_append_equals h, takeWhile_append_equals h]

theorem parse_of_not_mem {s : String} (h : '=' ∉ s.toList) :
    parse s = .error (.malformedArgument s) := by
  have hd : s.toList.dropWhile (· != '=') = [] :=
    List.dropWhile_eq_nil_iff.mpr fun c hc => bne_iff_ne.mpr fun e => h (e ▸ hc)
  rw [parse, hd]

theorem parse_value {c : Cell} (h : '=' ∈ c.value.toList) :
    parse c.value = .ok { name := c.key, value := c.setting } := by
  obtain ⟨xs, ys, hs, hx⟩ := List.eq_append_cons_of_mem h
  rw [parse_append hs hx, Cell.key, Cell.setting, hs, takeWhile_append_equals hx,
    dropWhile_append_equals hx, List.tail_cons]

theorem equals_mem_trim {s : String} : '=' ∈ (Text.trim s).toList ↔ '=' ∈ s.toList := by
  rw [Text.trim_toList]
  constructor
  · exact fun h => (Text.trimWhile_sublist s.toList).subset h
  · intro h
    obtain ⟨xs, ys, hs⟩ := List.append_of_mem h
    rw [hs, Text.trimChars, Text.trimWhile_append_cons (by decide)]
    simp

/-- **The argument of a text does not depend on the blanks around it.** The equals sign is not
blank, so that trimming the whole takes off only what trimming the two sides takes off. -/
theorem parse_trim {s : String} (h : '=' ∈ s.toList) : parse (Text.trim s) = parse s := by
  obtain ⟨xs, ys, hs, hx⟩ := List.eq_append_cons_of_mem h
  have ht : (Text.trim s).toList =
      xs.dropWhile Text.isBlank ++ '=' :: Text.dropEndWhile Text.isBlank ys := by
    rw [Text.trim_toList, Text.trimChars, hs, Text.trimWhile_append_cons (by decide)]
  have hx' : '=' ∉ xs.dropWhile Text.isBlank := fun hm =>
    hx ((List.dropWhile_sublist _).subset hm)
  rw [parse_append ht hx', parse_append hs hx]
  have h1 : Text.trimChars (xs.dropWhile Text.isBlank) = Text.trimChars xs :=
    Text.trimWhile_dropWhile xs
  have h2 : Text.trimChars (Text.dropEndWhile Text.isBlank ys) = Text.trimChars ys :=
    Text.trimWhile_dropEndWhile ys
  simp only [Text.trim, String.toList_ofList, h1, h2]

end Argument

/-! ## Content -/

theorem Cell.value_ne_empty {c : Cell} (h : c.hasContent = true) : c.value ≠ "" := by
  intro he
  rw [hasContent, classify, he] at h
  revert h
  simp [Text.trimChars, Text.trimWhile, Text.dropEndWhile]

theorem Cell.classify_eq_image {c : Cell} (h : c.hasContent = true) :
    c.classify = .image ↔ c.kind = .image := by
  rw [hasContent, Bool.and_eq_true, bne_iff_ne] at h
  have hc := h.1
  unfold classify at hc ⊢
  split_ifs at hc ⊢ with hb
  · exact absurd rfl hc
  · cases c.kind <;> simp

end SheetMarkup
