import Mathlib.Data.List.Forall2
import SheetMarkup.Proofs.Xml.Locality

/-!
# One tag exchanged

A text with one word exchanged is read with that word exchanged. Where a tag is exchanged for one of the
same name, what is seen of the text is the same but for that tag.

* **`lexemes_exchange`**: the words of a text with one word exchanged;
* `Lexeme.Alike`, `Event.Alike`, `Reading.Alike`: what is the same but for related tags;
* `eventsFrom_alike`: words that are alike become events that are alike;
* **`events_exchange`**: a text with one tag exchanged.
-/

namespace SheetMarkup.Xml

/-! ## Words -/

theorem exists_lexemesFrom (cs : List Char) : ∃ words complete, ∀ read,
    lexemesFrom read cs = ⟨read.reverse ++ words, complete⟩ := by
  induction hn : cs.length using Nat.strong_induction_on generalizing cs with
  | _ n ih =>
    cases cs with
    | nil => exact ⟨[], true, fun read => by rw [lexemesFrom, List.append_nil]⟩
    | cons c tail =>
      cases hword : lexeme? (c :: tail) with
      | none =>
        refine ⟨[], false, fun read => ?_⟩
        rw [lexemesFrom, List.append_nil]
        split
        · next heq => rw [hword] at heq; cases heq
        · rfl
      | some r =>
        obtain ⟨words, complete, hread⟩ := ih _ (hn ▸ lexeme?_length hword) r.2 rfl
        refine ⟨r.1 :: words, complete, fun read => ?_⟩
        rw [lexemesFrom_step hword, hread]
        simp

/-- **A text with one word exchanged** is read with that word exchanged, and all others as they were. -/
theorem lexemes_exchange {front word word' back : List Char} {x x' : Lexeme}
    (hplace : ReadsUpTo (front ++ (word ++ back)) (word ++ back))
    (hx : lexeme? (word ++ back) = some (x, back)) (hx' : lexeme? (word' ++ back) = some (x', back))
    (hhead : (word' ++ back).head? = (word ++ back).head?) :
    ∃ before after complete,
      lexemes (front ++ (word ++ back)) = ⟨before ++ x :: after, complete⟩ ∧
      lexemes (front ++ (word' ++ back)) = ⟨before ++ x' :: after, complete⟩ := by
  obtain ⟨before, hbefore⟩ := hplace.exists_words
  obtain ⟨after, complete, hafter⟩ := exists_lexemesFrom back
  refine ⟨before, after, complete, ?_, ?_⟩
  · rw [lexemes, hbefore _ rfl, lexemesFrom_step hx, hafter]
    simp
  · rw [lexemes, hbefore _ hhead, lexemesFrom_step hx', hafter]
    simp

/-! ## Events -/

variable {R : Tag → Tag → Prop}

/-- The same event, or two that open an element alike with related tags. -/
inductive Event.Alike (R : Tag → Tag → Prop) : Event → Event → Prop
  | same (e : Event) : Event.Alike R e e
  | start {t t' : Tag} (h : R t t') : Event.Alike R (.start t) (.start t')
  | empty {t t' : Tag} (h : R t t') : Event.Alike R (.empty t) (.empty t')

/-- The same word, or two tags of one kind that are related. -/
inductive Lexeme.Alike (R : Tag → Tag → Prop) : Lexeme → Lexeme → Prop
  | same (x : Lexeme) : Lexeme.Alike R x x
  | startTag {c c' : List Char} (h : R (Tag.ofContent c) (Tag.ofContent c')) :
      Lexeme.Alike R (.startTag c) (.startTag c')
  | emptyTag {c c' : List Char} (h : R (Tag.ofContent c) (Tag.ofContent c')) :
      Lexeme.Alike R (.emptyTag c) (.emptyTag c')

/-- Readings of the same length whose events are alike. -/
structure Reading.Alike (R : Tag → Tag → Prop) (r r' : Reading) : Prop where
  events : List.Forall₂ (Event.Alike R) r.events r'.events
  complete : r.complete = r'.complete

/-- **Words that are alike become events that are alike**, where related tags have one name. -/
theorem eventsFrom_alike (hR : ∀ t t', R t t' → t.name = t'.name) {xs xs' : List Lexeme}
    (hwords : List.Forall₂ (Lexeme.Alike R) xs xs') {read read' : List Event}
    (hread : List.Forall₂ (Event.Alike R) read read') (complete : Bool)
    (names : List (List Char)) :
    (eventsFrom complete names read xs).Alike R (eventsFrom complete names read' xs') := by
  induction hwords generalizing read read' names with
  | nil => exact ⟨List.rel_reverse hread, rfl⟩
  | @cons x _ _ _ hword _ ih =>
    cases hword with
    | startTag h =>
      rw [eventsFrom, eventsFrom, hR _ _ h]
      exact ih (.cons (.start h) hread) _
    | emptyTag h => exact ih (.cons (.empty h) hread) names
    | same =>
      cases x with
      | other => exact ih hread names
      | text cs => exact ih (.cons (.same _) hread) names
      | reference name => exact ih (.cons (.same _) hread) names
      | emptyTag content => exact ih (.cons (.same _) hread) names
      | startTag content => exact ih (.cons (.same _) hread) _
      | endTag content =>
        cases names with
        | nil => exact ⟨List.rel_reverse hread, rfl⟩
        | cons name names =>
          rw [eventsFrom, eventsFrom]
          split_ifs
          · exact ih (.cons (.same _) hread) names
          · exact ⟨List.rel_reverse hread, rfl⟩

/-- **A text with one tag exchanged** for a related one is seen as it was, but for that tag. -/
theorem events_exchange (hR : ∀ t t', R t t' → t.name = t'.name) {front back : List Char}
    {e e' : TagText} (h : R e.tag e'.tag) (hclosed : e.closed = e'.closed)
    (hplace : ReadsUpTo (front ++ (e.chars ++ back)) (e.chars ++ back)) :
    (events (String.ofList (front ++ (e.chars ++ back)))).Alike R
      (events (String.ofList (front ++ (e'.chars ++ back)))) := by
  obtain ⟨before, after, complete, hwords, hwords'⟩ :=
    lexemes_exchange hplace (e.lexeme?_chars back) (e'.lexeme?_chars back) rfl
  have halike : Lexeme.Alike R e.word e'.word := by
    rw [← e.ofContent_content, ← e'.ofContent_content] at h
    rw [TagText.word, TagText.word, ← hclosed]
    split_ifs
    · exact .emptyTag h
    · exact .startTag h
  rw [events, events, String.toList_ofList, String.toList_ofList, hwords, hwords']
  refine eventsFrom_alike hR ?_ .nil complete []
  exact List.rel_append (List.forall₂_same.mpr fun x _ => .same x)
    (.cons halike (List.forall₂_same.mpr fun x _ => .same x))

end SheetMarkup.Xml
