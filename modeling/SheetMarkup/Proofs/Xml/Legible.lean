import SheetMarkup.Proofs.Xml.Reading
import SheetMarkup.Proofs.Xml.Spelling

/-!
# Legible trees

A tree whose texts are spelled in any way can be read back: what a reader sees is the tree, with the
stretches and references of its texts.

* `Tree.Legible`, `Tree.seen`: the trees, and what is seen of them;
* `ReadAs`: a written stretch that is read as some events, wherever it stands;
* `ReadAs.flatMap`, `ReadAs.element`, `readAs_empty`, `readAs_data`: how such stretches are put together;
* **`events_of_legible`**: a whole part is read back;
* `foldlM_data`, `foldl_data`: a reader that only takes up what the events of a text say;
* `Tag.attribute?_tagOf`, `Tag.attribute?_of_plain`: attributes by their local names.
-/

namespace SheetMarkup.Xml

/-! ## Trees -/

/-- What a reader sees of a written text. -/
def dataEvents (written : List Char) : List Event :=
  (lexemes written).lexemes.filterMap Lexeme.event?

/-- Trees that can be read back. An element holds one spelled text, or elements only. -/
inductive Tree.Legible : Tree → Prop
  | data {name : String} {attributes : List (String × String)} {text : List Char}
      {written : String} (hn : isName name = true) (ha : SoundAttributes attributes)
      (h : Spells text written.toList) : Tree.Legible (.element name attributes [.text written])
  | element {name : String} {attributes : List (String × String)} {children : List Tree}
      (hn : isName name = true) (ha : SoundAttributes attributes)
      (hc : ∀ t ∈ children, Tree.Legible t) : Tree.Legible (.element name attributes children)

mutual

/-- What is to be seen of a tree. -/
def Tree.seen : Tree → List Event
  | .text written => dataEvents written.toList
  | .element name attributes [] => [.empty (tagOf name attributes)]
  | .element name attributes (t :: ts) =>
    .start (tagOf name attributes) ::
      (t.seen ++ treesSeen ts ++ [.close (String.ofList (localName name.toList))])

def treesSeen : List Tree → List Event
  | [] => []
  | t :: ts => t.seen ++ treesSeen ts

end

theorem treesSeen_eq (ts : List Tree) : treesSeen ts = ts.flatMap Tree.seen := by
  induction ts with
  | nil => rfl
  | cons t ts ih => rw [treesSeen, ih, List.flatMap_cons]

theorem seen_nothing : [Tree.text ""].flatMap Tree.seen = [] := by
  simp [Tree.seen, dataEvents, lexemes, lexemesFrom]

theorem seen_leaf (name : String) (attributes : List (String × String)) :
    (Tree.element name attributes []).seen = [.empty (tagOf name attributes)] := rfl

theorem seen_element {children : List Tree} (hne : children ≠ []) (name : String)
    (attributes : List (String × String)) :
    (Tree.element name attributes children).seen = .start (tagOf name attributes) ::
      (children.flatMap Tree.seen ++ [.close (String.ofList (localName name.toList))]) := by
  obtain ⟨t, ts, rfl⟩ := List.exists_cons_of_ne_nil hne
  rw [Tree.seen, treesSeen_eq, List.flatMap_cons]

/-! ## Written stretches -/

/-- The written stretch is read as these events, wherever it stands. -/
def ReadAs (cs : List Char) (events : List Event) : Prop :=
  ∃ words : List Lexeme,
    (∀ read rest, lexemesFrom read (cs ++ rest) = lexemesFrom (words.reverse ++ read) rest) ∧
      ∀ complete names read xs, eventsFrom complete names read (words ++ xs) =
        eventsFrom complete names (events.reverse ++ read) xs

variable {name : String} {attributes : List (String × String)}

theorem ReadAs.flatMap {α : Type} {chars : α → List Char} {events : α → List Event} {ts : List α}
    (h : ∀ t ∈ ts, ReadAs (chars t) (events t)) :
    ReadAs (ts.flatMap chars) (ts.flatMap events) := by
  induction ts with
  | nil => exact ⟨[], fun _ _ => rfl, fun _ _ _ _ => rfl⟩
  | cons t ts ih =>
    rw [List.forall_mem_cons] at h
    obtain ⟨words, hl, he⟩ := h.1
    obtain ⟨words', hl', he'⟩ := ih h.2
    refine ⟨words ++ words', ?_, ?_⟩
    · intro read rest
      rw [List.flatMap_cons, List.append_assoc, hl, hl']
      simp
    · intro complete names read xs
      rw [List.flatMap_cons, List.append_assoc, he, he']
      simp

theorem readAs_empty (hn : isName name = true) (ha : SoundAttributes attributes) :
    ReadAs ('<' :: (tagChars name attributes ++ ['/', '>'])) [.empty (tagOf name attributes)] := by
  refine ⟨[.emptyTag (tagChars name attributes)], ?_, ?_⟩
  · intro read rest
    have hl := lexeme?_emptyTag hn ha rest
    have hc : '<' :: (tagChars name attributes ++ ['/', '>']) ++ rest =
        '<' :: (tagChars name attributes ++ '/' :: '>' :: rest) := by
      simp
    rw [hc, lexemesFrom_step hl]
    rfl
  · intro complete names read xs
    rw [List.singleton_append, eventsFrom, ofContent_tagChars hn ha]
    rfl

/-- **Between its tags an element holds what is written there.** -/
theorem ReadAs.element {inner : List Char} {events : List Event} {words : List Lexeme}
    (hn : isName name = true) (ha : SoundAttributes attributes)
    (hl : ∀ read rest, lexemesFrom read (inner ++ '<' :: rest) =
      lexemesFrom (words.reverse ++ read) ('<' :: rest))
    (he : ∀ complete names read xs, eventsFrom complete names read (words ++ xs) =
      eventsFrom complete names (events.reverse ++ read) xs) :
    ReadAs ('<' :: (tagChars name attributes ++ '>' ::
      (inner ++ '<' :: '/' :: (name.toList ++ ['>'])))) (.start (tagOf name attributes) ::
        (events ++ [.close (String.ofList (localName name.toList))])) := by
  refine ⟨.startTag (tagChars name attributes) :: (words ++ [.endTag name.toList]), ?_, ?_⟩
  · intro read rest
    have hc : '<' :: (tagChars name attributes ++ '>' ::
        (inner ++ '<' :: '/' :: (name.toList ++ ['>']))) ++ rest =
          '<' :: (tagChars name attributes ++ '>' ::
            (inner ++ '<' :: '/' :: (name.toList ++ '>' :: rest))) := by
      simp
    rw [hc, lexemesFrom_step (lexeme?_startTag hn ha _), hl,
      lexemesFrom_step (lexeme?_endTag hn rest)]
    simp
  · intro complete names read xs
    rw [List.cons_append, List.append_assoc, eventsFrom, he]
    simp [eventsFrom, ofContent_tagChars hn ha, endName_name hn, tagOf]

theorem eventsFrom_data {words : List Lexeme} (h : ∀ x ∈ words, x.isData = true) (complete : Bool)
    (names : List (List Char)) (read : List Event) (xs : List Lexeme) :
    eventsFrom complete names read (words ++ xs) =
      eventsFrom complete names ((words.filterMap Lexeme.event?).reverse ++ read) xs := by
  induction words generalizing read with
  | nil => rfl
  | cons x words ih =>
    rw [List.forall_mem_cons] at h
    obtain ⟨hx, hwords⟩ := h
    cases x with
    | text cs =>
      rw [List.cons_append, eventsFrom, ih hwords]
      simp [Lexeme.event?]
    | reference name =>
      rw [List.cons_append, eventsFrom, ih hwords]
      simp [Lexeme.event?]
    | startTag | emptyTag | endTag | other => cases hx

/-- **A legible tree is read as what is to be seen of it.** -/
theorem Tree.Legible.readAs {t : Tree} (h : t.Legible) : ReadAs t.chars t.seen := by
  induction h with
  | @data name attributes text written hn ha h =>
    obtain ⟨hdata, -, hl⟩ := lexemesFrom_data h
    have hread := ReadAs.element hn ha hl (eventsFrom_data hdata)
    simpa [Tree.chars, treesChars, Tree.seen, treesSeen, dataEvents] using hread
  | @element name attributes children hn ha _ ih =>
    cases children with
    | nil => exact readAs_empty hn ha
    | cons t ts =>
      obtain ⟨words, hl, he⟩ := ReadAs.flatMap ih
      have hread := ReadAs.element hn ha (fun read rest => hl read ('<' :: rest)) he
      simpa [Tree.chars, treesChars_eq, Tree.seen, treesSeen_eq] using hread

/-- **A whole part is read back.** -/
theorem events_of_legible {t : Tree} (h : t.Legible) :
    events (documentText t) = ⟨t.seen, true⟩ := by
  obtain ⟨words, hl, he⟩ := h.readAs
  have hwords := hl [.other] []
  rw [List.append_nil] at hwords
  have hevents := he true [] [] []
  rw [List.append_nil] at hevents
  have hlexemes : lexemes (documentText t).toList = ⟨.other :: words, true⟩ := by
    rw [lexemes, lexemesFrom_step (lexeme?_documentText t), hwords, lexemesFrom]
    simp
  rw [events, hlexemes]
  show eventsFrom true [] [] (.other :: words) = _
  rw [eventsFrom, hevents, eventsFrom]
  simp

/-! ## Readers of texts -/

/-- **A reader that takes up what the events of a text say takes up the text.** -/
theorem foldlM_data {σ ε : Type} {step : σ → Event → Except ε σ} {take : σ → String → σ}
    (htext : ∀ r s, step r (.text s) = .ok (take r s))
    (hreference : ∀ r name, step r (.reference name) = .ok (take r (String.ofList (resolve name))))
    (hnil : ∀ r, take r "" = r) (happend : ∀ r s t, take (take r s) t = take r (s ++ t))
    {text written : List Char} (h : Spells text written) (r : σ) :
    (dataEvents written).foldlM step r = .ok (take r (String.ofList text)) := by
  obtain ⟨hdata, hsaid, -⟩ := lexemesFrom_data h
  have hrun : ∀ (words : List Lexeme) (r : σ), (∀ x ∈ words, x.isData = true) →
      (words.filterMap Lexeme.event?).foldlM step r =
        .ok (take r (String.ofList (words.flatMap Lexeme.said))) := by
    intro words
    induction words with
    | nil =>
      intro r _
      exact congrArg _ (hnil r).symm
    | cons x words ih =>
      intro r hwords
      rw [List.forall_mem_cons] at hwords
      cases x with
      | text cs =>
        show (Event.text (String.ofList cs) :: words.filterMap Lexeme.event?).foldlM step r = _
        rw [List.foldlM_cons, htext]
        refine (ih _ hwords.2).trans ?_
        rw [happend, ← String.ofList_append]
        rfl
      | reference name =>
        show (Event.reference name :: words.filterMap Lexeme.event?).foldlM step r = _
        rw [List.foldlM_cons, hreference]
        refine (ih _ hwords.2).trans ?_
        rw [happend, ← String.ofList_append]
        rfl
      | startTag | emptyTag | endTag | other => exact absurd hwords.1 (by simp [Lexeme.isData])
  rw [dataEvents, hrun _ r hdata, hsaid]

theorem foldl_data {σ : Type} {step : σ → Event → σ} {take : σ → String → σ}
    (htext : ∀ r s, step r (.text s) = take r s)
    (hreference : ∀ r name, step r (.reference name) = take r (String.ofList (resolve name)))
    (hnil : ∀ r, take r "" = r) (happend : ∀ r s t, take (take r s) t = take r (s ++ t))
    {text written : List Char} (h : Spells text written) (r : σ) :
    (dataEvents written).foldl step r = take r (String.ofList text) := by
  have hrun : (dataEvents written).foldlM (fun r event => (.ok (step r event) : Except Unit σ)) r =
      .ok (take r (String.ofList text)) := by
    refine foldlM_data ?_ ?_ hnil happend h r
    · exact fun r s => congrArg Except.ok (htext r s)
    · exact fun r name => congrArg Except.ok (hreference r name)
  exact Except.ok.inj (List.foldlM_pure.symm.trans hrun)

/-! ## Attributes -/

theorem Tag.attribute?_tagOf (h : SoundAttributes attributes) (name key : String) :
    (tagOf name attributes).attribute? key =
      (attributes.find? fun a => String.ofList (Xml.localName a.1.toList) == key).map
        fun a => meaning a.2 := by
  rw [Tag.attribute?, tagOf, attributesFrom_written (fun a ha => h.isName ha)
    (fun a ha => h.quote_not_mem ha) h.nodup, List.find?_map, Option.map_map]
  rfl

theorem Tag.attribute?_of_plain (h : SoundAttributes attributes)
    (hplain : ∀ a ∈ attributes, a.2.toList.all isPlain = true) (key : String) :
    (tagOf name attributes).attribute? key =
      (attributes.find? fun a => String.ofList (Xml.localName a.1.toList) == key).map Prod.snd := by
  rw [Tag.attribute?_tagOf h]
  cases hf : attributes.find? fun a => String.ofList (Xml.localName a.1.toList) == key with
  | none => rfl
  | some a => exact congrArg some (meaning_of_plain (hplain a (List.mem_of_find?_eq_some hf)))

end SheetMarkup.Xml
