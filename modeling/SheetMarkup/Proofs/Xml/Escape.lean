import SheetMarkup.Proofs.Text.Trim
import SheetMarkup.Xml.Event

/-!
# Escaped texts

An escaped text has none of the five characters with a meaning left, except for the ampersands of
its entities, and reading it back gives the text.

* `entityName?`, `isPlain`: how characters are written;
* `reference?_append`: a reference is read up to its semicolon;
* **`unescape_escape`**: reading an escaped attribute value gives the value;
* `escape_eq_self`: a text of plain characters is written as it is.
-/

namespace SheetMarkup.Xml

/-- The name of the entity that a character is written as, if it is written as one. -/
def entityName? (c : Char) : Option (List Char) :=
  (entities.find? (·.2 == c)).map fun e => e.1.toList

/-- The character is written as it is. -/
def isPlain (c : Char) : Bool := (entityName? c).isNone

/-! ## Characters -/

theorem escapeChar_of_entity {c : Char} {name : List Char} (h : entityName? c = some name) :
    escapeChar c = '&' :: (name ++ [';']) := by
  obtain ⟨⟨n, d⟩, hf, rfl⟩ := Option.map_eq_some_iff.mp h
  rw [escapeChar, hf]
  rfl

theorem escapeChar_of_plain {c : Char} (h : isPlain c = true) : escapeChar c = [c] := by
  rw [isPlain, Option.isNone_iff_eq_none, entityName?, Option.map_eq_none_iff] at h
  rw [escapeChar, h]

/-- What the entities are like: no name holds a mark, and each name leads back to its character. -/
theorem entity_spec : ∀ e ∈ entities,
    (∀ c ∈ e.1.toList, (c != ';' && c != '&' && c != '<') = true) ∧
      '"' ∉ e.1.toList ∧ strictReference? e.1.toList = some e.2 ∧ resolve e.1.toList = [e.2] := by
  have h : (entities.all fun e => (e.1.toList.all fun c => c != ';' && c != '&' && c != '<') &&
      !e.1.toList.contains '"' && decide (strictReference? e.1.toList = some e.2) &&
      decide (resolve e.1.toList = [e.2])) = true := by
    decide
  intro e he
  simpa [and_assoc] using List.all_eq_true.mp h e he

theorem mem_of_entityName? {c : Char} {name : List Char} (h : entityName? c = some name) :
    ∃ n, (n, c) ∈ entities ∧ name = n.toList := by
  obtain ⟨⟨n, d⟩, hf, rfl⟩ := Option.map_eq_some_iff.mp h
  have hd := List.find?_some hf
  have hm := List.mem_of_find?_eq_some hf
  rw [beq_iff_eq] at hd
  exact ⟨n, hd ▸ hm, rfl⟩

theorem isPlain_iff {c : Char} :
    isPlain c = true ↔ c ≠ '<' ∧ c ≠ '>' ∧ c ≠ '&' ∧ c ≠ '\'' ∧ c ≠ '"' := by
  rw [isPlain, Option.isNone_iff_eq_none, entityName?, Option.map_eq_none_iff,
    List.find?_eq_none]
  simp only [entities, List.forall_mem_cons, beq_iff_eq, List.not_mem_nil, false_implies,
    implies_true, and_true, ne_eq, @eq_comm _ c]

theorem isPlain_of_class {p : Char → Bool} (hp : ['<', '>', '&', '\'', '"'].any p = false)
    {c : Char} (h : p c = true) : isPlain c = true := by
  have hne : ∀ d ∈ ['<', '>', '&', '\'', '"'], c ≠ d := by
    rintro d hd rfl
    exact List.any_eq_false.mp hp c hd h
  exact isPlain_iff.mpr ⟨hne _ (by decide), hne _ (by decide), hne _ (by decide),
    hne _ (by decide), hne _ (by decide)⟩

/-! ## Texts -/

def escapeChars (cs : List Char) : List Char := cs.flatMap escapeChar

@[simp] theorem toList_escape (s : String) : (escape s).toList = escapeChars s.toList := by
  simp [escape, escapeChars]

theorem escapeChars_cons_entity {c : Char} {name : List Char} (h : entityName? c = some name)
    (cs : List Char) : escapeChars (c :: cs) = '&' :: (name ++ ';' :: escapeChars cs) := by
  rw [escapeChars, List.flatMap_cons, escapeChar_of_entity h]
  simp [escapeChars]

theorem escapeChars_plain_append {ps : List Char} (h : ∀ c ∈ ps, isPlain c = true)
    (cs : List Char) : escapeChars (ps ++ cs) = ps ++ escapeChars cs := by
  induction ps with
  | nil => rfl
  | cons p ps ih =>
    have hp := escapeChar_of_plain (h p (by simp))
    rw [List.cons_append, escapeChars, List.flatMap_cons, hp]
    change p :: escapeChars (ps ++ cs) = _
    rw [ih fun c hc => h c (by simp [hc]), List.cons_append]

theorem escape_eq_self {s : String} (h : ∀ c ∈ s.toList, isPlain c = true) : escape s = s := by
  have hs := escapeChars_plain_append h []
  rw [List.append_nil, show escapeChars [] = [] from rfl, List.append_nil, escapeChars] at hs
  rw [escape, hs, String.ofList_toList]

theorem quote_not_mem_escapeChars (cs : List Char) : '"' ∉ escapeChars cs := by
  intro h
  obtain ⟨c, -, hc⟩ := List.mem_flatMap.mp h
  cases hn : entityName? c with
  | none =>
    have hp : isPlain c = true := Option.isNone_iff_eq_none.mpr hn
    rw [escapeChar_of_plain hp, List.mem_singleton] at hc
    exact (isPlain_iff.mp hp).2.2.2.2 hc.symm
  | some name =>
    obtain ⟨n, hm, rfl⟩ := mem_of_entityName? hn
    have hq := (entity_spec _ hm).2.1
    rw [escapeChar_of_entity hn] at hc
    simp [hq] at hc

/-! ## References -/

theorem reference?_append {name : List Char}
    (h : ∀ c ∈ name, (c != ';' && c != '&' && c != '<') = true) (rest : List Char) :
    reference? (name ++ ';' :: rest) = some (.reference name, rest) := by
  rw [reference?, Text.dropWhile_append_stop h (by decide),
    Text.takeWhile_append_stop h (by decide)]
  rfl

theorem unescapeFrom?_entity {c : Char} {name : List Char} (h : entityName? c = some name)
    (read rest : List Char) :
    unescapeFrom? read ('&' :: (name ++ ';' :: rest)) = unescapeFrom? (c :: read) rest := by
  obtain ⟨n, hm, rfl⟩ := mem_of_entityName? h
  obtain ⟨hmarks, -, hstrict, -⟩ := entity_spec _ hm
  have hr := reference?_append hmarks rest
  rw [unescapeFrom?]
  split
  · next name' rest' heq =>
    rw [hr] at heq
    cases heq
    rw [hstrict]
  · next hne => exact absurd hr (hne _ _)

theorem unescapeFrom?_plain {c : Char} (h : c ≠ '&') (read rest : List Char) :
    unescapeFrom? read (c :: rest) = unescapeFrom? (c :: read) rest := by
  rw [unescapeFrom?]
  exact h

theorem unescapeFrom?_escapeChars (cs read : List Char) :
    unescapeFrom? read (escapeChars cs) = some (read.reverse ++ cs) := by
  induction cs generalizing read with
  | nil => rw [escapeChars, List.flatMap_nil, unescapeFrom?, List.append_nil]
  | cons c cs ih =>
    cases hn : entityName? c with
    | some name => rw [escapeChars_cons_entity hn, unescapeFrom?_entity hn, ih]; simp
    | none =>
      have hp : isPlain c = true := Option.isNone_iff_eq_none.mpr hn
      have hc : escapeChars ([c] ++ cs) = [c] ++ escapeChars cs :=
        escapeChars_plain_append (by simpa using hp) cs
      rw [List.singleton_append, List.singleton_append] at hc
      rw [hc, unescapeFrom?_plain (isPlain_iff.mp hp).2.2.1, ih]
      simp

/-- **Reading an escaped attribute value gives the value.** -/
theorem unescape_escape (s : String) : unescape (escape s).toList = s.toList := by
  rw [unescape, toList_escape, unescapeFrom?_escapeChars]
  rfl

end SheetMarkup.Xml
