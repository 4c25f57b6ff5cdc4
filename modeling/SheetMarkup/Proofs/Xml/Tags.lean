import SheetMarkup.Proofs.Xml.Attributes

/-!
# Written tags

A tag that opens an element is read as it is written, whatever its blanks and quotes are. Another
attribute can be put in at any place.

* `TagText`: a tag as it is written;
* `read_flatMap`: what is read piece by piece is read as a whole;
* `tagEnd?_text`, `tagEnd?_content`: a tag up to its bracket (the step and the run);
* **`TagText.lexeme?_chars`**: a tag is one word;
* `TagText.attribute?_tag`: its attributes, by their local names;
* `TagText.insert`, **`TagText.attribute?_insert`**: one more attribute, and what it changes.
-/

namespace SheetMarkup.Xml

/-- The name of an attribute without its namespace. -/
def AttributeText.localName (a : AttributeText) : String := String.ofList (Xml.localName a.key)

/-- The value of an attribute with its references resolved. -/
def AttributeText.meaning (a : AttributeText) : String := String.ofList (unescape a.value)

/-- A tag that opens an element, as it is written: a name, attributes, and blanks before the bracket.
One that is closed ends the element too. -/
structure TagText where
  name : List Char
  attributes : List AttributeText
  blanks : List Char
  closed : Bool
  isNameText : IsNameText name
  nodup : (attributes.map AttributeText.key).Nodup
  isSpace_blanks : ∀ c ∈ blanks, isSpace c = true

namespace TagText

variable (e : TagText)

/-- What follows the name. -/
def rest : List Char := e.attributes.flatMap AttributeText.chars ++ e.blanks

/-- What stands between the brackets, without the mark of a closed tag. -/
def content : List Char := e.name ++ e.rest

/-- The written form of a tag. -/
def chars : List Char := '<' :: (e.content ++ if e.closed then ['/', '>'] else ['>'])

/-- The word that a tag is. -/
def word : Lexeme := if e.closed then .emptyTag e.content else .startTag e.content

def tag : Tag := ⟨e.name, e.rest⟩

end TagText

/-! ## The end of a tag -/

theorem read_flatMap {α β γ δ : Type} (run : List β → List α → δ) {f : γ → List α} {g : γ → List β}
    {ts : List γ}
    (h : ∀ t ∈ ts, ∀ read rest, run read (f t ++ rest) = run ((g t).reverse ++ read) rest)
    (read : List β) (rest : List α) :
    run read (ts.flatMap f ++ rest) = run ((ts.flatMap g).reverse ++ read) rest := by
  induction ts generalizing read with
  | nil => rfl
  | cons t ts ih =>
    rw [List.forall_mem_cons] at h
    rw [List.flatMap_cons, List.append_assoc, h.1, ih h.2]
    simp

/-- Neither a bracket nor a quote stands in a part of a tag. -/
def IsInner (cs : List Char) : Prop := ∀ c ∈ cs, c ≠ '>' ∧ c ≠ '"' ∧ c ≠ '\''

theorem isInner_of_isMark {cs : List Char} (h : ∀ c ∈ cs, isMark c = false) : IsInner cs :=
  fun c hc => ⟨ne_of_isMark (h c hc) (by decide), ne_of_isMark (h c hc) (by decide),
    ne_of_isMark (h c hc) (by decide)⟩

theorem isInner_of_isSpace {cs : List Char} (h : ∀ c ∈ cs, isSpace c = true) : IsInner cs := by
  have hne : ∀ d, isSpace d = false → ∀ c ∈ cs, c ≠ d := by
    rintro d hd c hc rfl
    rw [h c hc] at hd
    cases hd
  exact fun c hc => ⟨hne '>' rfl c hc, hne '"' rfl c hc, hne '\'' rfl c hc⟩

theorem tagEnd?_inner {cs : List Char} (h : IsInner cs) (read rest : List Char) :
    tagEnd? none read (cs ++ rest) = tagEnd? none (cs.reverse ++ read) rest := by
  induction cs generalizing read with
  | nil => rfl
  | cons c cs ih =>
    obtain ⟨h1, h2, h3⟩ := h c (by simp)
    have hstep : tagEnd? none read (c :: (cs ++ rest)) = tagEnd? none (c :: read) (cs ++ rest) := by
      simp [tagEnd?, h1, h2, h3]
    rw [List.cons_append, hstep, ih fun d hd => h d (by simp [hd])]
    simp

/-- Between quotes only the closing one counts. -/
theorem tagEnd?_value {quote : Char} {value : List Char} (h : quote ∉ value) (read rest : List Char) :
    tagEnd? (some quote) read (value ++ quote :: rest) =
      tagEnd? none (quote :: (value.reverse ++ read)) rest := by
  induction value generalizing read with
  | nil => simp [tagEnd?]
  | cons c value ih =>
    rw [List.mem_cons, not_or] at h
    have hstep : tagEnd? (some quote) read (c :: (value ++ quote :: rest)) =
        tagEnd? (some quote) (c :: read) (value ++ quote :: rest) := by
      simp [tagEnd?, Ne.symm h.1]
    rw [List.cons_append, hstep, ih h.2]
    simp

theorem tagEnd?_text (a : AttributeText) (read rest : List Char) :
    tagEnd? none read (a.chars ++ rest) = tagEnd? none (a.chars.reverse ++ read) rest := by
  have hchars : ∀ cs, a.chars ++ cs = a.blanks ++ (a.key ++ ((a.beforeSign ++ '=' :: a.afterSign) ++
      a.quote :: (a.value ++ a.quote :: cs))) := by
    intro cs
    simp [AttributeText.chars]
  have hsign : IsInner (a.beforeSign ++ '=' :: a.afterSign) := by
    have hspaces := isInner_of_isSpace a.isSpace_sign
    intro c hc
    rcases List.mem_append.mp hc with hc | hc
    · exact hspaces c (List.mem_append_left _ hc)
    · rcases List.mem_cons.mp hc with rfl | hc
      · decide
      · exact hspaces c (List.mem_append_right _ hc)
  have hquote : ∀ read cs,
      tagEnd? none read (a.quote :: cs) = tagEnd? (some a.quote) (a.quote :: read) cs := by
    intro read cs
    rcases a.isQuote with h | h <;> simp [h, tagEnd?]
  rw [hchars, tagEnd?_inner (isInner_of_isSpace a.isSpace_blanks),
    tagEnd?_inner (isInner_of_isMark a.isNameText.2), tagEnd?_inner hsign, hquote,
    tagEnd?_value a.quote_not_mem]
  simp [AttributeText.chars]

/-- What starts as no other kind of markup is a tag. -/
theorem markup?_tag {c : Char} (hdeclaration : c ≠ '!') (hinstruction : c ≠ '?') (hend : c ≠ '/')
    (cs : List Char) : markup? (c :: cs) = (tagEnd? none [] (c :: cs)).map fun r =>
      if r.1.getLast? = some '/' then (.emptyTag r.1.dropLast, r.2) else (.startTag r.1, r.2) := by
  unfold markup?
  split <;> simp_all

theorem AttributeText.getLast?_chars (a : AttributeText) : a.chars.getLast? = some a.quote := by
  have hsplit : a.chars = a.blanks ++ a.key ++ a.beforeSign ++ '=' :: a.afterSign ++
      a.quote :: a.value ++ [a.quote] := by
    simp [AttributeText.chars]
  rw [hsplit, List.getLast?_concat]

namespace TagText

variable (e : TagText)

/-- **A tag ends no earlier than at its bracket.** -/
theorem tagEnd?_content (cs : List Char) :
    tagEnd? none [] (e.content ++ cs) = tagEnd? none e.content.reverse cs := by
  rw [content, TagText.rest, List.append_assoc, List.append_assoc,
    tagEnd?_inner (isInner_of_isMark e.isNameText.2),
    read_flatMap (tagEnd? none) fun a _ => tagEnd?_text a,
    tagEnd?_inner (isInner_of_isSpace e.isSpace_blanks)]
  simp

theorem getLast?_content : e.content.getLast? ≠ some '/' := by
  intro h
  rw [content, TagText.rest, List.getLast?_append, List.getLast?_append] at h
  rcases Option.or_eq_some_iff.mp h with h | ⟨-, h⟩
  · rcases Option.or_eq_some_iff.mp h with h | ⟨-, h⟩
    · have := e.isSpace_blanks _ (List.mem_of_getLast? h)
      cases this
    · rw [List.getLast?_flatMap] at h
      obtain ⟨a, -, ha⟩ := List.exists_of_findSome?_eq_some h
      rw [a.getLast?_chars] at ha
      rcases a.isQuote with hq | hq <;> · rw [hq] at ha; cases ha
  · have := e.isNameText.2 _ (List.mem_of_getLast? h)
    cases this

theorem markup?_content (cs : List Char) :
    markup? (e.content ++ cs) = (tagEnd? none [] (e.content ++ cs)).map fun r =>
      if r.1.getLast? = some '/' then (.emptyTag r.1.dropLast, r.2) else (.startTag r.1, r.2) := by
  obtain ⟨c, tail, hc⟩ := List.exists_cons_of_ne_nil e.isNameText.1
  have hmark : isMark c = false := e.isNameText.2 c (by simp [hc])
  rw [content, hc, List.cons_append, List.cons_append]
  exact markup?_tag (ne_of_isMark hmark (by decide)) (ne_of_isMark hmark (by decide))
    (ne_of_isMark hmark (by decide)) _

/-- **A tag is read as one word.** -/
theorem lexeme?_chars (cs : List Char) : lexeme? (e.chars ++ cs) = some (e.word, cs) := by
  have hmarkup : lexeme? (e.chars ++ cs) =
      markup? (e.content ++ ((if e.closed then ['/', '>'] else ['>']) ++ cs)) := by
    rw [← List.append_assoc]
    rfl
  rw [hmarkup, markup?_content, tagEnd?_content, word]
  cases e.closed with
  | false =>
    have hend : tagEnd? none e.content.reverse ('>' :: cs) = some (e.content, cs) := by simp [tagEnd?]
    change (tagEnd? none e.content.reverse ('>' :: cs)).map _ = some (Lexeme.startTag e.content, cs)
    rw [hend, Option.map_some, if_neg e.getLast?_content]
  | true =>
    have hend : tagEnd? none e.content.reverse ('/' :: '>' :: cs) = some (e.content ++ ['/'], cs) := by
      simp [tagEnd?]
    change (tagEnd? none e.content.reverse ('/' :: '>' :: cs)).map _ = some (Lexeme.emptyTag e.content, cs)
    rw [hend, Option.map_some, if_pos (by simp), List.dropLast_concat]

/-! ## Attributes -/

theorem head?_rest : ∀ c ∈ e.rest.head?, isSpace c = true := by
  rw [TagText.rest]
  cases e.attributes with
  | nil => exact fun c hc => e.isSpace_blanks c (List.mem_of_mem_head? hc)
  | cons a attributes =>
    obtain ⟨b, bs, hb⟩ := List.exists_cons_of_ne_nil a.blanks_ne
    intro c hc
    simp only [List.flatMap_cons, AttributeText.chars, hb, List.cons_append, List.head?_cons,
      Option.mem_some_iff] at hc
    exact a.isSpace_blanks c (by simp [hb, ← hc])

theorem ofContent_content : Tag.ofContent e.content = e.tag := by
  have hname : ∀ c ∈ e.name, (!isSpace c) = true := by
    intro c hc
    rw [isSpace_of_isMark (e.isNameText.2 c hc)]
    rfl
  have hhead := e.head?_rest
  rw [Tag.ofContent, content, tag]
  cases hrest : e.rest with
  | nil => rw [List.append_nil, List.takeWhile_eq_self_iff.mpr hname, List.dropWhile_eq_nil_iff.mpr hname]
  | cons c cs =>
    have hc : (!isSpace c) = false := by rw [hhead c (by rw [hrest]; rfl)]; rfl
    rw [Text.takeWhile_append_stop hname hc, Text.dropWhile_append_stop hname hc]

theorem attribute?_tag (key : String) : e.tag.attribute? key =
    (e.attributes.find? fun a => a.localName == key).map AttributeText.meaning := by
  rw [Tag.attribute?, tag, TagText.rest, attributesFrom_texts e.nodup e.isSpace_blanks (by simp),
    List.find?_map, Option.map_map]
  rfl

/-! ## One more attribute -/

variable (i : Nat) (d : AttributeText) (hd : d.key ∉ e.attributes.map AttributeText.key)

/-- The tag with one more attribute, behind the first ones. -/
def insert : TagText :=
  { e with
    attributes := e.attributes.take i ++ d :: e.attributes.drop i
    nodup := by
      have hperm : (e.attributes.take i ++ d :: e.attributes.drop i).Perm (d :: e.attributes) := by
        conv_rhs => rw [← List.take_append_drop i e.attributes]
        exact List.perm_middle
      exact (hperm.map AttributeText.key).nodup_iff.mpr (List.nodup_cons.mpr ⟨hd, e.nodup⟩) }

/-- **An attribute that is put in hides those behind it of its local name**, and nothing else. -/
theorem attribute?_insert (key : String) : (e.insert i d hd).tag.attribute? key =
    if key = d.localName ∧ ∀ a ∈ e.attributes.take i, a.localName ≠ key then some d.meaning
    else e.tag.attribute? key := by
  have hsplit : e.attributes.find? (fun a => a.localName == key) =
      ((e.attributes.take i).find? fun a => a.localName == key).or
        ((e.attributes.drop i).find? fun a => a.localName == key) := by
    rw [← List.find?_append, List.take_append_drop]
  rw [attribute?_tag, attribute?_tag, hsplit]
  change ((e.attributes.take i ++ d :: e.attributes.drop i).find? _).map _ = _
  rw [List.find?_append, List.find?_cons]
  cases hfirst : (e.attributes.take i).find? fun a => a.localName == key with
  | some a =>
    have ha : a.localName = key := by simpa using List.find?_some hfirst
    rw [if_neg fun h => h.2 a (List.mem_of_find?_eq_some hfirst) ha]
    rfl
  | none =>
    have hnone : ∀ a ∈ e.attributes.take i, a.localName ≠ key := by simpa using hfirst
    by_cases hkey : key = d.localName
    · rw [if_pos ⟨hkey, hnone⟩, hkey, beq_self_eq_true]
      rfl
    · rw [if_neg fun h => hkey h.1, beq_eq_false_iff_ne.mpr (Ne.symm hkey)]

end TagText

/-! ## Tags of trees -/

theorem exists_tagText {name : String} {attributes : List (String × String)}
    (hn : isName name = true) (ha : SoundAttributes attributes) (closed : Bool) :
    ∃ e : TagText, e.tag = tagOf name attributes ∧ e.content = tagChars name attributes ∧
      e.closed = closed := by
  obtain ⟨hne, hname⟩ := isName_iff.mp hn
  obtain ⟨texts, hchars, hpairs⟩ := exists_texts (fun a h => ha.isName h) fun a h => ha.quote_not_mem h
  have hdistinct := nodup_texts hpairs ha.nodup
  refine ⟨⟨name.toList, texts, [], closed, ⟨hne, fun c hc => isMark_of_isNameChar (hname c hc)⟩,
    hdistinct, List.forall_mem_nil _⟩, ?_, ?_, rfl⟩
  · rw [TagText.tag, TagText.rest, hchars, List.append_nil]
    rfl
  · rw [TagText.content, TagText.rest, hchars, List.append_nil]
    rfl

end SheetMarkup.Xml
