import SheetMarkup.Proofs.Xml.Words

/-!
# Written trees read back

What a reader sees of a written tree is the tree again: every end tag belongs to the element that
is open, and the markup is complete.

* `Tree.events`: what is to be seen of a tree;
* `eventsFrom_words`: the words of a tree become its events, inside any open elements;
* **`events_documentText`**: a whole part is read back;
* `Reading.elements`, `Reading.values`: the elements of a name, and their values of an attribute;
* `Tree.tags`, `Tree.named`, `elements_documentText`: the same, read off the tree.
-/

namespace SheetMarkup.Xml

/-! ## Events -/

/-- What a reader sees of a word inside a text. -/
def Lexeme.event? : Lexeme → Option Event
  | text cs => some (.text (String.ofList cs))
  | reference name => some (.reference name)
  | _ => none

mutual

/-- What is to be seen of a tree. -/
def Tree.events : Tree → List Event
  | .text written => (dataWords (meaning written).toList).filterMap Lexeme.event?
  | .element name attributes [] => [.empty (tagOf name attributes)]
  | .element name attributes (t :: ts) =>
    .start (tagOf name attributes) ::
      (t.events ++ treesEvents ts ++ [.close (String.ofList (localName name.toList))])

def treesEvents : List Tree → List Event
  | [] => []
  | t :: ts => t.events ++ treesEvents ts

end

theorem treesEvents_eq (ts : List Tree) : treesEvents ts = ts.flatMap Tree.events := by
  induction ts with
  | nil => rfl
  | cons t ts ih => rw [treesEvents, ih, List.flatMap_cons]

theorem ofContent_tagChars {name : String} {attributes : List (String × String)}
    (hn : isName name = true) (ha : SoundAttributes attributes) :
    Tag.ofContent (tagChars name attributes) = tagOf name attributes := by
  obtain ⟨e, htag, hcontent, -⟩ := exists_tagText hn ha false
  rw [← hcontent, e.ofContent_content, htag]

theorem endName_name {name : String} (hn : isName name = true) :
    endName name.toList = name.toList := by
  have hspace : name.toList.reverse.dropWhile isSpace = name.toList.reverse := by
    rw [List.dropWhile_eq_self_iff]
    intro hlen
    have hm : name.toList.reverse[0] ∈ name.toList := List.mem_reverse.mp (List.getElem_mem hlen)
    rw [isSpace_of_isNameChar ((isName_iff.mp hn).2 _ hm)]
    decide
  rw [endName, hspace, List.reverse_reverse]

theorem eventsFrom_dataWords (complete : Bool) (names : List (List Char)) (cs : List Char)
    (read : List Event) (xs : List Lexeme) :
    eventsFrom complete names read (dataWords cs ++ xs) =
      eventsFrom complete names (((dataWords cs).filterMap Lexeme.event?).reverse ++ read) xs := by
  fun_induction dataWords cs generalizing read with
  | case1 => rfl
  | case2 c cs name hn ih =>
    rw [List.cons_append, eventsFrom, ih]
    simp [Lexeme.event?]
  | case3 c cs hn ih =>
    rw [List.cons_append, eventsFrom, ih]
    simp [Lexeme.event?]

/-- **The words of a tree become its events.** The elements that are open around it stay open. -/
theorem eventsFrom_words {t : Tree} (ht : t.Sound) (complete : Bool) (names : List (List Char))
    (read : List Event) (xs : List Lexeme) :
    eventsFrom complete names read (t.words ++ xs) =
      eventsFrom complete names (t.events.reverse ++ read) xs := by
  induction ht generalizing names read xs with
  | @data name attributes hn ha s =>
    have hw : (Tree.element name attributes [.text (escape s)]).words ++ xs =
        .startTag (tagChars name attributes) :: (dataWords s.toList ++
          .endTag name.toList :: xs) := by
      simp [Tree.words, treesWords]
    rw [hw, eventsFrom, eventsFrom_dataWords, eventsFrom]
    simp [Tree.events, treesEvents, ofContent_tagChars hn ha, endName_name hn, tagOf]
  | @element name attributes children hn ha _ ih =>
    cases children with
    | nil => simp [Tree.words, Tree.events, eventsFrom, ofContent_tagChars hn ha]
    | cons t ts =>
      have hw : (Tree.element name attributes (t :: ts)).words ++ xs =
          .startTag (tagChars name attributes) :: ((t :: ts).flatMap Tree.words ++
            .endTag name.toList :: xs) := by
        simp [Tree.words, treesWords_eq]
      rw [hw, eventsFrom, read_flatMap (eventsFrom complete _) fun t ht => ih t ht _, eventsFrom]
      simp [Tree.events, treesEvents_eq, ofContent_tagChars hn ha, endName_name hn, tagOf]

theorem events_documentText {t : Tree} (ht : t.Sound) :
    events (documentText t) = ⟨t.events, true⟩ := by
  have he := eventsFrom_words ht true [] [] []
  rw [List.append_nil] at he
  rw [events, lexemes_documentText ht]
  change eventsFrom true [] [] (.other :: t.words) = _
  rw [eventsFrom, he, eventsFrom]
  simp

/-! ## Elements -/

/-- The tag that an event opens an element with. -/
def Event.tag? : Event → Option Tag
  | start tag => some tag
  | empty tag => some tag
  | _ => none

/-- The elements of a name, in the order of their tags. -/
def Reading.elements (r : Reading) (name : String) : List Tag :=
  (r.events.filterMap Event.tag?).filter fun t => t.name = name.toList

/-- The values of an attribute of the elements of a name. -/
def Reading.values (r : Reading) (element key : String) : List (Option String) :=
  (r.elements element).map fun t => t.value? key

def Tree.tags (t : Tree) : List Tag := t.events.filterMap Event.tag?

theorem tags_text (written : String) : (Tree.text written).tags = [] := by
  rw [Tree.tags, Tree.events, List.filterMap_filterMap, List.filterMap_eq_nil_iff]
  intro x _
  cases x <;> rfl

theorem tags_element (name : String) (attributes : List (String × String)) (children : List Tree) :
    (Tree.element name attributes children).tags =
      tagOf name attributes :: children.flatMap Tree.tags := by
  cases children with
  | nil => rfl
  | cons t ts =>
    have hstart : Event.tag? (.start (tagOf name attributes)) = some (tagOf name attributes) := rfl
    rw [Tree.tags, Tree.events, treesEvents_eq, ← List.flatMap_cons,
      List.filterMap_cons_some hstart, List.filterMap_append, List.filterMap_flatMap]
    exact congrArg _ (List.append_nil _)

/-- The tags of the elements of a name in a tree. -/
def Tree.named (name : String) (t : Tree) : List Tag :=
  t.tags.filter fun tag => tag.name = name.toList

@[simp] theorem named_text (name written : String) : (Tree.text written).named name = [] := by
  rw [Tree.named, tags_text]
  rfl

@[simp] theorem named_element (name n : String) (attributes : List (String × String))
    (children : List Tree) : (Tree.element n attributes children).named name =
      (if n = name then [tagOf n attributes] else []) ++ children.flatMap (Tree.named name) := by
  rw [Tree.named, tags_element, List.filter_cons, List.filter_flatMap]
  change (if decide (n.toList = name.toList) = true then
    tagOf n attributes :: children.flatMap (Tree.named name) else _) = _
  by_cases h : n = name
  · rw [if_pos (by simp [h]), if_pos h]
    rfl
  · rw [if_neg (by simpa using fun e => h (String.toList_injective e)), if_neg h]
    rfl

theorem elements_documentText {t : Tree} (ht : t.Sound) (name : String) :
    (events (documentText t)).elements name = t.named name := by
  rw [Reading.elements, events_documentText ht, Tree.named, Tree.tags]

end SheetMarkup.Xml
