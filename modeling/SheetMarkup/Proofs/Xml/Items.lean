import SheetMarkup.Proofs.Xml.Reading

/-!
# Elements with their content

The events of a part can be put together again: every element with what stands between its tags.
For a written tree this gives the tree back, so what is said about a part can be said about its
tree.

* `Item`, `Reading.items`: elements with their content, and how a reader finds them;
* `itemsFrom_events`: the events of a tree become its items, inside any open elements;
* **`items_documentText`**: a whole part is read as the items of its tree;
* `Item.elements`, `Item.named`, `Item.values`: all elements in an item;
* `Shape`, `items_shapes`: the names of elements and attributes, without any values.
-/

namespace SheetMarkup.Xml

/-- An element with what stands in it, or a stretch of text. -/
inductive Item where
  | element (tag : Tag) (items : List Item)
  | text (s : String)

/-! ## From events to items -/

/-- The items of some events. Every open element is given with the items that stand before it, the
innermost first; items are in reverse. What is still open at the end ends there. -/
def itemsFrom : List (Tag × List Item) → List Item → List Event → List Item
  | opened, read, [] =>
    (opened.foldl (fun items o => .element o.1 items.reverse :: o.2) read).reverse
  | opened, read, e :: es =>
    match e with
    | .start tag => itemsFrom ((tag, read) :: opened) [] es
    | .empty tag => itemsFrom opened (.element tag [] :: read) es
    | .text s => itemsFrom opened (.text s :: read) es
    | .reference name => itemsFrom opened (.text (String.ofList (resolve name)) :: read) es
    | .close _ =>
      match opened with
      | [] => itemsFrom [] read es
      | (tag, before) :: opened => itemsFrom opened (.element tag read.reverse :: before) es

/-- The items of a part. -/
def Reading.items (r : Reading) : List Item := itemsFrom [] [] r.events

/-- The stretch of text that a word inside a text stands for. -/
def Lexeme.item? : Lexeme → Option Item
  | text cs => some (.text (String.ofList cs))
  | reference name => some (.text (String.ofList (resolve name)))
  | _ => none

mutual

/-- The items of a tree. -/
def Tree.items : Tree → List Item
  | .text written => (dataWords (meaning written).toList).filterMap Lexeme.item?
  | .element name attributes children => [.element (tagOf name attributes) (treesItems children)]

def treesItems : List Tree → List Item
  | [] => []
  | t :: ts => t.items ++ treesItems ts

end

theorem treesItems_eq (ts : List Tree) : treesItems ts = ts.flatMap Tree.items := by
  induction ts with
  | nil => rfl
  | cons t ts ih => rw [treesItems, ih, List.flatMap_cons]

theorem items_element (name : String) (attributes : List (String × String))
    (children : List Tree) : (Tree.element name attributes children).items =
      [.element (tagOf name attributes) (children.flatMap Tree.items)] := by
  rw [Tree.items, treesItems_eq]

theorem exists_text_of_mem {ws : List Lexeme} {i : Item} (h : i ∈ ws.filterMap Lexeme.item?) :
    ∃ s, i = .text s := by
  obtain ⟨w, -, hw⟩ := List.mem_filterMap.mp h
  cases w <;> cases hw
  · exact ⟨_, rfl⟩
  · exact ⟨_, rfl⟩

theorem itemsFrom_dataWords (opened : List (Tag × List Item)) (cs : List Char)
    (read : List Item) (es : List Event) :
    itemsFrom opened read ((dataWords cs).filterMap Lexeme.event? ++ es) =
      itemsFrom opened (((dataWords cs).filterMap Lexeme.item?).reverse ++ read) es := by
  fun_induction dataWords cs generalizing read with
  | case1 => rfl
  | case2 c cs name hn ih =>
    simp only [Lexeme.event?, Lexeme.item?, List.filterMap_cons, List.cons_append, itemsFrom]
    rw [ih]
    simp
  | case3 c cs hn ih =>
    simp only [Lexeme.event?, Lexeme.item?, List.filterMap_cons, List.cons_append, itemsFrom]
    rw [ih]
    simp

/-- **The events of a tree become its items.** The elements that are open around it stay open. -/
theorem itemsFrom_events {t : Tree} (ht : t.Sound) (opened : List (Tag × List Item))
    (read : List Item) (es : List Event) :
    itemsFrom opened read (t.events ++ es) = itemsFrom opened (t.items.reverse ++ read) es := by
  induction ht generalizing opened read es with
  | @data name attributes hn ha s =>
    have he : (Tree.element name attributes [.text (escape s)]).events ++ es =
        .start (tagOf name attributes) :: ((dataWords s.toList).filterMap Lexeme.event? ++
          .close (String.ofList (localName name.toList)) :: es) := by
      simp [Tree.events, treesEvents]
    rw [he, itemsFrom, itemsFrom_dataWords, itemsFrom]
    simp [Tree.items, treesItems]
  | @element name attributes children hn ha _ ih =>
    cases children with
    | nil => simp [Tree.events, itemsFrom, Tree.items, treesItems]
    | cons t ts =>
      have he : (Tree.element name attributes (t :: ts)).events ++ es =
          .start (tagOf name attributes) :: ((t :: ts).flatMap Tree.events ++
            .close (String.ofList (localName name.toList)) :: es) := by
        simp [Tree.events, treesEvents_eq]
      rw [he, itemsFrom, read_flatMap (itemsFrom _) fun t ht => ih t ht _, itemsFrom,
        items_element]
      simp

theorem items_documentText {t : Tree} (ht : t.Sound) :
    (events (documentText t)).items = t.items := by
  have h := itemsFrom_events ht [] [] []
  rw [List.append_nil, List.append_nil] at h
  rw [Reading.items, events_documentText ht, h, itemsFrom]
  simp

/-! ## Elements of an item -/

mutual

/-- All elements in an item, in the order of their tags. -/
def Item.elements : Item → List Item
  | .text _ => []
  | .element tag items => .element tag items :: itemsElements items

def itemsElements : List Item → List Item
  | [] => []
  | i :: is => i.elements ++ itemsElements is

end

theorem itemsElements_eq (is : List Item) : itemsElements is = is.flatMap Item.elements := by
  induction is with
  | nil => rfl
  | cons i is ih => rw [itemsElements, ih, List.flatMap_cons]

namespace Item

/-- The tag of an element. -/
def tag? : Item → Option Tag
  | element tag _ => some tag
  | text _ => none

/-- The element has a name. -/
def hasName (name : String) (i : Item) : Bool := i.tag?.any fun t => t.name = name.toList

/-- The value of an attribute. -/
def value? (key : String) (i : Item) : Option String := i.tag?.bind fun t => t.value? key

/-- The elements of a name in an item. -/
def named (name : String) (i : Item) : List Item := i.elements.filter (hasName name)

/-- The values of an attribute of the elements of a name in an item. -/
def values (name key : String) (i : Item) : List (Option String) :=
  (i.named name).map (value? key)

def text? : Item → Option String
  | text s => some s
  | element _ _ => none

/-- The text that stands in an element, outside of other elements. -/
def content : Item → String
  | text s => s
  | element _ items => String.join (items.filterMap text?)

end Item

/-- The elements of a name in a part. -/
def Reading.named (r : Reading) (name : String) : List Item := r.items.flatMap (Item.named name)

@[simp] theorem elements_element (tag : Tag) (items : List Item) :
    (Item.element tag items).elements = .element tag items :: items.flatMap Item.elements := by
  rw [Item.elements, itemsElements_eq]

theorem join_dataWords (cs : List Char) :
    String.join (((dataWords cs).filterMap Lexeme.item?).filterMap Item.text?) =
      String.ofList cs := by
  apply String.toList_injective
  rw [String.toList_join, String.toList_ofList]
  fun_induction dataWords cs with
  | case1 => rfl
  | case2 c cs name hn ih =>
    obtain ⟨n, hm, rfl⟩ := mem_of_entityName? hn
    have hr : resolve n.toList = [c] := (entity_spec _ hm).2.2.2
    simp [Lexeme.item?, Item.text?, ih, hr]
  | case3 c cs hn ih => simp [Lexeme.item?, Item.text?, ih, List.takeWhile_append_dropWhile]

theorem content_data (tag : Tag) (s : String) :
    (Item.element tag (Tree.text (escape s)).items).content = s := by
  rw [Item.content, Tree.items, join_dataWords, meaning_escape, String.ofList_toList]

theorem map_value?_filter_hasName (name key : String) (is : List Item) :
    (is.filter (Item.hasName name)).map (Item.value? key) =
      ((is.filterMap Item.tag?).filter fun t => t.name = name.toList).map fun t =>
        t.value? key := by
  induction is with
  | nil => rfl
  | cons i is ih =>
    cases i with
    | text s => exact ih
    | element tag items =>
      have htag : (Item.element tag items).tag? = some tag := rfl
      have hname : (Item.element tag items).hasName name = decide (tag.name = name.toList) := rfl
      rw [List.filterMap_cons_some htag, List.filter_cons, List.filter_cons, hname]
      split_ifs
      · rw [List.map_cons, List.map_cons, ih]
        rfl
      · exact ih

theorem tags_items {t : Tree} (ht : t.Sound) :
    (t.items.flatMap Item.elements).filterMap Item.tag? = t.tags := by
  induction ht with
  | @data name attributes hn ha s =>
    have hwords :
        ((dataWords (meaning (escape s)).toList).filterMap Lexeme.item?).flatMap Item.elements =
          [] := by
      rw [List.flatMap_eq_nil_iff]
      intro i hi
      obtain ⟨u, rfl⟩ := exists_text_of_mem hi
      rfl
    rw [items_element, tags_element, List.flatMap_singleton, List.flatMap_singleton,
      List.flatMap_singleton, tags_text, elements_element, Tree.items, hwords]
    rfl
  | @element name attributes children hn ha _ ih =>
    have hchildren : ((children.flatMap Tree.items).flatMap Item.elements).filterMap Item.tag? =
        children.flatMap Tree.tags := by
      rw [List.flatMap_assoc, List.filterMap_flatMap]
      exact List.flatMap_congr ih
    have htag : (Item.element (tagOf name attributes) (children.flatMap Tree.items)).tag? =
        some (tagOf name attributes) := rfl
    rw [items_element, tags_element, List.flatMap_singleton, elements_element,
      List.filterMap_cons_some htag, hchildren]

theorem values_items {t : Tree} (ht : t.Sound) (name key : String) :
    t.items.flatMap (Item.values name key) = (t.named name).map fun tag => tag.value? key := by
  rw [Tree.named, ← tags_items ht, ← map_value?_filter_hasName, List.filter_flatMap,
    List.map_flatMap]
  rfl

theorem Item.named_element (name : String) (tag : Tag) (items : List Item) :
    (Item.element tag items).named name =
      (if tag.name = name.toList then [.element tag items] else []) ++
        items.flatMap (Item.named name) := by
  rw [Item.named, elements_element, List.filter_cons, List.filter_flatMap]
  change (if decide (tag.name = name.toList) = true then
    Item.element tag items :: items.flatMap (Item.named name) else _) = _
  split_ifs with h h' h'
  · rfl
  · exact absurd (of_decide_eq_true h) h'
  · exact absurd (decide_eq_true h') h
  · rfl

theorem values_of_items {t : Tree} (ht : t.Sound) {i : Item} (hi : t.items = [i])
    (name key : String) : i.values name key = (t.named name).map fun tag => tag.value? key := by
  have hv := values_items ht name key
  rwa [hi, List.flatMap_singleton] at hv

theorem named_items_eq_nil {t : Tree} (ht : t.Sound) {name : String} (h : t.named name = []) :
    t.items.flatMap (Item.named name) = [] := by
  have hv := values_items ht name name
  rw [h, List.map_nil, List.flatMap_eq_nil_iff] at hv
  rw [List.flatMap_eq_nil_iff]
  intro i hi
  exact List.map_eq_nil_iff.mp (hv i hi)

theorem named_items_of_ne {name n : String} (h : n ≠ name) (attributes : List (String × String))
    (children : List Tree) : (Tree.element n attributes children).items.flatMap (Item.named name) =
      children.flatMap fun t => t.items.flatMap (Item.named name) := by
  have hname : (tagOf n attributes).name ≠ name.toList := fun e => h (String.toList_injective e)
  rw [items_element, List.flatMap_singleton, Item.named_element, if_neg hname, List.nil_append,
    List.flatMap_assoc]

theorem named_items_self {name : String} {attributes : List (String × String)}
    {children : List Tree} (ht : (Tree.element name attributes children).Sound)
    (hc : children.flatMap (Tree.named name) = []) :
    (Tree.element name attributes children).items.flatMap (Item.named name) =
      (Tree.element name attributes children).items := by
  have hname : (tagOf name attributes).name = name.toList := rfl
  -- there are as many elements of the name as tags, and the outer one is one of them
  have hlength := congrArg List.length (values_items ht name name)
  rw [named_element, if_pos rfl, hc, items_element, List.flatMap_singleton, Item.values,
    List.length_map, List.length_map, Item.named_element, if_pos hname, List.length_append] at hlength
  have hnone : (children.flatMap Tree.items).flatMap (Item.named name) = [] := by
    apply List.eq_nil_of_length_eq_zero
    simpa using hlength
  rw [items_element, List.flatMap_singleton, Item.named_element, if_pos hname, hnone,
    List.append_nil]

/-! ## Shapes -/

/-- An element without values: its name, the names of its attributes, and the elements in it. -/
inductive Shape where
  | node (name : String) (keys : List String) (shapes : List Shape)

/-- An element with nothing in it. -/
def leafShape (name : String) (keys : List String := []) : Shape := .node name keys []

/-- An element without attributes. -/
def groupShape (name : String) (shapes : List Shape) : Shape := .node name [] shapes

mutual

/-- The shapes of the elements of an item. -/
def Item.shapes : Item → List Shape
  | .text _ => []
  | .element tag items =>
    [.node (String.ofList tag.name) (tag.attributes.map Prod.fst) (itemsShapes items)]

def itemsShapes : List Item → List Shape
  | [] => []
  | i :: is => i.shapes ++ itemsShapes is

end

mutual

def Tree.shapes : Tree → List Shape
  | .text _ => []
  | .element name attributes children =>
    [.node name (attributes.map Prod.fst) (treesShapes children)]

def treesShapes : List Tree → List Shape
  | [] => []
  | t :: ts => t.shapes ++ treesShapes ts

end

/-- The shapes of a part. -/
def Reading.shapes (r : Reading) : List Shape := itemsShapes r.items

theorem itemsShapes_eq (is : List Item) : itemsShapes is = is.flatMap Item.shapes := by
  induction is with
  | nil => rfl
  | cons i is ih => rw [itemsShapes, ih, List.flatMap_cons]

theorem treesShapes_eq (ts : List Tree) : treesShapes ts = ts.flatMap Tree.shapes := by
  induction ts with
  | nil => rfl
  | cons t ts ih => rw [treesShapes, ih, List.flatMap_cons]

/-- **What is read has the shape of what was written.** -/
theorem items_shapes {t : Tree} (ht : t.Sound) : itemsShapes t.items = t.shapes := by
  have hkeys : ∀ {name : String} {attributes : List (String × String)},
      SoundAttributes attributes →
        (tagOf name attributes).attributes.map Prod.fst = attributes.map Prod.fst := by
    intro name attributes ha
    rw [Tag.attributes_tagOf ha, List.map_map]
    rfl
  have hname : ∀ (name : String) (attributes : List (String × String)),
      String.ofList (tagOf name attributes).name = name := by
    intro name attributes
    exact String.ofList_toList
  induction ht with
  | @data name attributes hn ha s =>
    have hwords :
        ((dataWords (meaning (escape s)).toList).filterMap Lexeme.item?).flatMap Item.shapes =
          [] := by
      rw [List.flatMap_eq_nil_iff]
      intro i hi
      obtain ⟨u, rfl⟩ := exists_text_of_mem hi
      rfl
    rw [items_element, itemsShapes, itemsShapes, Item.shapes, itemsShapes_eq,
      List.flatMap_singleton, Tree.items, hwords, hkeys ha, hname]
    rfl
  | @element name attributes children hn ha _ ih =>
    have hchildren : itemsShapes (children.flatMap Tree.items) = treesShapes children := by
      rw [itemsShapes_eq, treesShapes_eq, List.flatMap_assoc]
      refine List.flatMap_congr fun t ht => ?_
      rw [← itemsShapes_eq, ih t ht]
    rw [items_element, itemsShapes, itemsShapes, Item.shapes, hchildren, hkeys ha, hname,
      Tree.shapes, List.append_nil]

end SheetMarkup.Xml
