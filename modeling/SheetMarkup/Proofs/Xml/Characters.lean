import SheetMarkup.Proofs.Text.Ascii
import SheetMarkup.Proofs.Text.Decimal
import SheetMarkup.Proofs.Xml.Reading

/-!
# Characters of markup

Markup may not hold every character: control characters other than tabs and line ends, and two more,
have no place in it, and no entity stands for them. Nothing is taken out of a text when it is
escaped, so what is written has a character without a place exactly where the text has one.

* `isXmlChar`, `isXmlChar_eq_false_iff`: the characters that have a place in markup;
* `Legal`, **`legal_escape`**: texts of such characters only;
* `Tree.Legal`, **`legal_element`**, `legal_documentText`: written trees, part by part.
-/

namespace SheetMarkup.Xml

/-! ## Characters -/

/-- The characters that may stand in markup, `Char` in the grammar of XML 1.0. -/
def isXmlChar (c : Char) : Bool :=
  c == '\t' || c == '\n' || c == '\r' || 0x20 ≤ c.toNat && c.toNat ≤ 0xD7FF ||
    0xE000 ≤ c.toNat && c.toNat ≤ 0xFFFD || 0x10000 ≤ c.toNat && c.toNat ≤ 0x10FFFF

/-- All other characters: most control characters, and the last two of the first plane. -/
theorem isXmlChar_eq_false_iff {c : Char} : isXmlChar c = false ↔
    (c.toNat < 0x20 ∧ c ≠ '\t' ∧ c ≠ '\n' ∧ c ≠ '\r') ∨ c.toNat = 0xFFFE ∨ c.toNat = 0xFFFF := by
  have hne : ∀ d : Char, c ≠ d ↔ c.toNat ≠ d.toNat := fun d => by
    rw [ne_eq, ne_eq, Char.toNat_inj]
  -- no character is a surrogate, and none has a larger number
  have hvalid : c.toNat < 0xD800 ∨ 0xDFFF < c.toNat ∧ c.toNat < 0x110000 := c.valid
  have htab : '\t'.toNat = 9 := rfl
  have hlf : '\n'.toNat = 10 := rfl
  have hcr : '\r'.toNat = 13 := rfl
  simp only [isXmlChar, Bool.or_eq_false_iff, Bool.and_eq_false_iff, beq_eq_false_iff_ne,
    decide_eq_false_iff_not, hne, htab, hlf, hcr]
  omega

theorem isXmlChar_of_ascii {c : Char} (hl : 0x20 ≤ c.toNat) (hu : c.toNat < 0x80) :
    isXmlChar c = true := by
  rw [← Bool.not_eq_false, isXmlChar_eq_false_iff]
  omega

/-! ## Texts -/

/-- A text of characters that have a place in markup. -/
def Legal (s : String) : Prop := s.toList.all isXmlChar = true

instance (s : String) : Decidable (Legal s) := inferInstanceAs (Decidable (_ = _))

theorem legal_iff {s : String} : Legal s ↔ ∀ c ∈ s.toList, isXmlChar c = true := List.all_eq_true

theorem Legal.of_subset {s t : String} (h : Legal t) (hs : s.toList ⊆ t.toList) : Legal s :=
  legal_iff.mpr fun c hc => legal_iff.mp h c (hs hc)

@[simp] theorem legal_ofList (cs : List Char) :
    Legal (String.ofList cs) ↔ cs.all isXmlChar = true := by
  rw [Legal, String.toList_ofList]

@[simp] theorem legal_append (s t : String) : Legal (s ++ t) ↔ Legal s ∧ Legal t := by
  rw [Legal, String.toList_append, List.all_append, Bool.and_eq_true, Legal, Legal]

theorem all_isXmlChar_escapeChar (c : Char) : (escapeChar c).all isXmlChar = isXmlChar c := by
  have hentities : (entities.all fun e => isXmlChar e.2 &&
      ('&' :: (e.1.toList ++ [';'])).all isXmlChar) = true := by
    decide
  cases hn : entityName? c with
  | none =>
    rw [escapeChar_of_plain (Option.isNone_iff_eq_none.mpr hn)]
    exact Bool.and_true _
  | some name =>
    obtain ⟨n, hm, rfl⟩ := mem_of_entityName? hn
    obtain ⟨hc, hwritten⟩ := Bool.and_eq_true_iff.mp (List.all_eq_true.mp hentities _ hm)
    rw [escapeChar_of_entity hn, hwritten, hc]

/-- **Escaping neither adds nor removes a character without a place.** -/
@[simp] theorem legal_escape (s : String) : Legal (escape s) ↔ Legal s := by
  rw [Legal, Legal, toList_escape, escapeChars, List.all_flatMap]
  simp only [all_isXmlChar_escapeChar]

@[simp] theorem legal_decimal (n : Nat) : Legal (Text.decimal n) := by
  refine legal_iff.mpr fun c hc => ?_
  have hd := Text.isDigit_eq (Text.isDigit_of_mem_decimal hc)
  simp only [Text.isDigit, Bool.and_eq_true, decide_eq_true_eq] at hd
  exact isXmlChar_of_ascii (by omega) (by omega)

theorem isXmlChar_of_isAsciiAlphanumeric {c : Char} (h : Text.isAsciiAlphanumeric c = true) :
    isXmlChar c = true := by
  rw [Text.isAsciiAlphanumeric_bounds] at h
  exact isXmlChar_of_ascii (by omega) (by omega)

/-! ## Trees -/

/-- A tree whose written form holds only characters that have a place in markup. -/
def Tree.Legal (t : Tree) : Prop := t.chars.all isXmlChar = true

instance (t : Tree) : Decidable t.Legal := inferInstanceAs (Decidable (_ = _))

@[simp] theorem legal_text (written : String) : (Tree.text written).Legal ↔ Legal written := by
  rw [Tree.Legal, Tree.chars, Xml.Legal]

theorem all_isXmlChar_tagChars (name : String) (attributes : List (String × String)) :
    (tagChars name attributes).all isXmlChar = true ↔
      Legal name ∧ ∀ a ∈ attributes, Legal a.1 ∧ Legal a.2 := by
  have hmarks : isXmlChar ' ' = true ∧ isXmlChar '=' = true ∧ isXmlChar '"' = true := by decide
  simp [tagChars, attributeChars, List.all_flatMap, hmarks, Legal]

/-- **An element is legal where its name, its attributes and its children are.** -/
@[simp] theorem legal_element (name : String) (attributes : List (String × String))
    (children : List Tree) : (Tree.element name attributes children).Legal ↔
      Legal name ∧ (∀ a ∈ attributes, Legal a.1 ∧ Legal a.2) ∧ ∀ t ∈ children, t.Legal := by
  have hmarks : isXmlChar '<' = true ∧ isXmlChar '/' = true ∧ isXmlChar '>' = true := by decide
  have htag := all_isXmlChar_tagChars name attributes
  cases children with
  | nil =>
    simp [Tree.Legal, Tree.chars, hmarks, htag]
  | cons t ts =>
    have hname : Legal name ↔ name.toList.all isXmlChar = true := Iff.rfl
    have hchildren : (treesChars ts).all isXmlChar = true ↔ ∀ t ∈ ts, t.Legal := by
      rw [treesChars_eq, List.all_flatMap, List.all_eq_true]
      rfl
    -- the end tag repeats the name, which is no further condition
    simp only [Tree.Legal, Tree.chars, List.forall_mem_cons, List.cons_append, List.all_append,
      List.all_cons, List.all_nil, Bool.and_eq_true, hmarks, htag, hchildren, ← hname, true_and,
      and_true]
    tauto

@[simp] theorem legal_leaf (name : String) (attributes : List (String × String)) :
    (leaf name attributes).Legal ↔ Legal name ∧ ∀ a ∈ attributes, Legal a.1 ∧ Legal a.2 := by
  simp [leaf]

@[simp] theorem legal_group (name : String) (children : List Tree) :
    (group name children).Legal ↔ Legal name ∧ ∀ t ∈ children, t.Legal := by
  simp [group]

theorem legal_documentText {t : Tree} : Legal (documentText t) ↔ t.Legal := by
  have hd : Legal declaration := by decide
  rw [documentText, legal_append, and_iff_right hd, legal_ofList, Tree.Legal]

end SheetMarkup.Xml
