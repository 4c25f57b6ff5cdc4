import SheetMarkup.Proofs.Workbook.PictureChain

/-!
# Rich values by their places

The value metadata of a workbook refer to rich values by their places in a part, so the part has to give
one rich value for each of its elements. The reader takes a rich value up at its end tag. An element that
closes itself has none and is passed over, and all rich values behind it move up.

* `ValueElement`, `Piece`, `RichElement`, `RichPart`: a part, element by element;
* `foldl_asides`, `foldl_value_events`, `foldl_pieces`, `foldl_rich`: what the reader makes of each of
  them (the steps);
* `foldl_nodes`: what it makes of a whole part (the run);
* `pictureIndex_congr`: of the part the index takes the rich values only;
* **`richValuesOf_part`**: the rich values of every part, and the index that they give.
-/

namespace SheetMarkup.Workbook

open Xml (Event)

/-! ## Parts -/

/-- The event neither opens nor ends a rich value or a value. -/
def isAside : Event → Bool
  | .start tag => tag.localName != "rv" && tag.localName != "v"
  | .empty tag => tag.localName != "rv" && tag.localName != "v"
  | .close name => name != "rv" && name != "v"
  | _ => true

/-- What an event says in a text. -/
def told : Event → String
  | .text s => s
  | .reference name => String.ofList (Xml.resolve name)
  | _ => ""

/-- What some events say. -/
def textOf (events : List Event) : String := events.foldr (fun e s => told e ++ s) ""

/-- A value: an element with some data, or one that closes itself. -/
structure ValueElement where
  tag : Xml.Tag
  data : Option (List Event)
  named : tag.localName = "v"
  plain : ∀ e ∈ data.getD [], isAside e = true

def ValueElement.events (v : ValueElement) : List Event :=
  match v.data with
  | some data => .start v.tag :: (data ++ [.close "v"])
  | none => [.empty v.tag]

def ValueElement.text (v : ValueElement) : String := textOf (v.data.getD [])

/-- What stands in a rich value, or around rich values. -/
inductive Piece where
  | aside (e : Event) (h : isAside e = true)
  | value (v : ValueElement)

def Piece.events : Piece → List Event
  | aside e _ => [e]
  | value v => v.events

/-- The text of a value. -/
def Piece.text? : Piece → Option String
  | aside _ _ => none
  | value v => some v.text

/-- A rich value: an element with a body, or one that closes itself. -/
structure RichElement where
  tag : Xml.Tag
  body : Option (List Piece)
  named : tag.localName = "rv"

namespace RichElement

variable (x : RichElement)

def events : List Event :=
  match x.body with
  | some body => .start x.tag :: (body.flatMap Piece.events ++ [.close "rv"])
  | none => [.empty x.tag]

/-- The element has an end tag of its own. -/
def hasEnd : Bool := x.body.isSome

/-- The rich value that the element writes: its structure, and the text of each of its values. -/
def entry : RichValue :=
  ⟨(x.tag.attribute? "s").bind index?, (x.body.getD []).filterMap Piece.text?⟩

end RichElement

/-- What stands in a part. -/
inductive Node where
  | piece (x : Piece)
  | rich (x : RichElement)

def Node.events : Node → List Event
  | piece x => x.events
  | rich x => x.events

def Node.rich? : Node → Option RichElement
  | piece _ => none
  | rich x => some x

/-- A part with rich values, none of which holds another one. -/
structure RichPart where
  nodes : List Node

namespace RichPart

variable (part : RichPart)

def events : List Event := part.nodes.flatMap Node.events

/-- The rich values of the part, in the order of the document. -/
def elements : List RichElement := part.nodes.filterMap Node.rich?

/-- What the elements with an end tag write. -/
def endedEntries : List RichValue := (part.elements.filter RichElement.hasEnd).map RichElement.entry

end RichPart

/-! ## Reading -/

theorem step_aside {e : Event} (h : isAside e = true) (r : RichValueReader) :
    r.step e = r.addText (told e) := by
  have hempty := r.addText_empty
  cases e with
  | start tag =>
    simp only [isAside, Bool.and_eq_true, bne_iff_ne] at h
    refine Eq.trans ?_ hempty.symm
    rw [RichValueReader.step]
    split
    · next heq => exact absurd heq h.1
    · next heq => exact absurd heq h.2
    · rfl
  | empty tag =>
    simp only [isAside, Bool.and_eq_true, bne_iff_ne] at h
    refine Eq.trans ?_ hempty.symm
    rw [RichValueReader.step, if_neg (by simpa using h.2)]
  | close name =>
    simp only [isAside, Bool.and_eq_true, bne_iff_ne] at h
    refine Eq.trans ?_ hempty.symm
    rw [RichValueReader.step.eq_def]
    dsimp only
    split
    · exact absurd rfl h.2
    · exact absurd rfl h.1
    · rfl
  | text s => rfl
  | reference name => rfl

/-- **What stands aside only adds to an open text.** -/
theorem foldl_asides {events : List Event} (h : ∀ e ∈ events, isAside e = true) (r : RichValueReader) :
    events.foldl RichValueReader.step r = r.addText (textOf events) := by
  induction events generalizing r with
  | nil => exact r.addText_empty.symm
  | cons e events ih =>
    rw [List.forall_mem_cons] at h
    rw [List.foldl_cons, step_aside h.1, ih h.2, RichValueReader.addText_addText]
    rfl

/-- A rich value with some more values. -/
def RichValue.extend (v : RichValue) (texts : List String) : RichValue :=
  { v with values := v.values ++ texts }

theorem foldl_value_events (v : ValueElement) (done : List RichValue) (current : Option RichValue) :
    v.events.foldl RichValueReader.step ⟨done, current, none⟩ =
      ⟨done, current.map fun x => x.extend [v.text], none⟩ := by
  have hnamed := v.named
  have hplain := v.plain
  rw [ValueElement.events, ValueElement.text]
  cases hdata : v.data with
  | none =>
    show RichValueReader.step ⟨done, current, none⟩ (.empty v.tag) = _
    rw [RichValueReader.step, if_pos (by simp [hnamed])]
    rfl
  | some data =>
    have hstart : RichValueReader.step ⟨done, current, none⟩ (.start v.tag) =
        ⟨done, current, some ""⟩ := by
      rw [RichValueReader.step, hnamed]
      rfl
    rw [hdata, Option.getD_some] at hplain
    rw [List.foldl_cons, hstart, List.foldl_append, foldl_asides hplain, Option.getD_some,
      RichValueReader.addText, Option.map_some, String.empty_append]
    rfl

/-- **The reader passes over what stands aside and takes up the values.** -/
theorem foldl_pieces (xs : List Piece) (done : List RichValue) (current : Option RichValue) :
    (xs.flatMap Piece.events).foldl RichValueReader.step ⟨done, current, none⟩ =
      ⟨done, current.map fun v => v.extend (xs.filterMap Piece.text?), none⟩ := by
  induction xs generalizing current with
  | nil => cases current <;> simp [RichValue.extend]
  | cons x xs ih =>
    rw [List.flatMap_cons, List.foldl_append]
    cases x with
    | aside e h =>
      show (xs.flatMap Piece.events).foldl _ (RichValueReader.step _ e) = _
      rw [step_aside h, RichValueReader.addText, Option.map_none, ih]
      rfl
    | value v =>
      rw [Piece.events, foldl_value_events, ih, Option.map_map]
      cases current <;> simp [RichValue.extend, Piece.text?]

/-- **A rich value is taken up at its end tag.** One without an end tag is passed over. -/
theorem foldl_rich (x : RichElement) (done : List RichValue) :
    x.events.foldl RichValueReader.step ⟨done, none, none⟩ =
      ⟨(if x.hasEnd then [x.entry] else []) ++ done, none, none⟩ := by
  have hnamed := x.named
  rw [RichElement.events, RichElement.hasEnd, RichElement.entry]
  cases hbody : x.body with
  | none =>
    show RichValueReader.step ⟨done, none, none⟩ (.empty x.tag) = _
    rw [RichValueReader.step, if_neg (by simp [hnamed])]
    rfl
  | some body =>
    have hstart : RichValueReader.step ⟨done, none, none⟩ (.start x.tag) =
        ⟨done, some ⟨(x.tag.attribute? "s").bind index?, []⟩, none⟩ := by
      rw [RichValueReader.step, hnamed]
      rfl
    rw [List.foldl_cons, hstart, List.foldl_append, foldl_pieces]
    rfl

theorem foldl_nodes (nodes : List Node) (done : List RichValue) :
    (nodes.flatMap Node.events).foldl RichValueReader.step ⟨done, none, none⟩ =
      ⟨(RichPart.endedEntries ⟨nodes⟩).reverse ++ done, none, none⟩ := by
  induction nodes generalizing done with
  | nil => rfl
  | cons node nodes ih =>
    rw [List.flatMap_cons, List.foldl_append]
    cases node with
    | piece x =>
      have hpiece := foldl_pieces [x] done none
      rw [List.flatMap_singleton] at hpiece
      rw [Node.events, hpiece]
      exact ih done
    | rich x =>
      rw [Node.events, foldl_rich, ih]
      have hcons : RichPart.endedEntries ⟨.rich x :: nodes⟩ =
          (if x.hasEnd then [x.entry] else []) ++ RichPart.endedEntries ⟨nodes⟩ := by
        have helements : RichPart.elements ⟨.rich x :: nodes⟩ = x :: RichPart.elements ⟨nodes⟩ := rfl
        rw [RichPart.endedEntries, helements, List.filter_cons]
        split_ifs <;> rfl
      rw [hcons]
      split_ifs <;> simp

/-- **The rich values that are read are those with an end tag.** -/
theorem richValuesOf_events (part : RichPart) : richValuesOf part.events = part.endedEntries := by
  have hread := foldl_nodes part.nodes []
  rw [List.append_nil] at hread
  rw [richValuesOf, RichPart.events]
  exact (congrArg (fun r => r.done.reverse) hread).trans (List.reverse_reverse _)

theorem endedEntries_eq_iff (part : RichPart) :
    part.endedEntries = part.elements.map RichElement.entry ↔ ∀ x ∈ part.elements, x.hasEnd = true := by
  rw [RichPart.endedEntries]
  constructor
  · intro h
    have hlength := congrArg List.length h
    rw [List.length_map, List.length_map] at hlength
    rw [← List.filter_eq_self]
    exact List.filter_sublist.eq_of_length hlength
  · intro h
    rw [List.filter_eq_self.mpr h]

/-! ## The index -/

/-- The package holds the part. -/
def RichPart.HeldBy (part : RichPart) (p : Package) : Prop :=
  ∃ xml, p.text? richValuePart = .ok (some xml) ∧ (Xml.events xml).events = part.events ∧
    (Xml.events xml).complete = true

theorem readPart_congr {α : Type} {p q : Package} {name : String} (h : p.part name = q.part name)
    (absent : α) (read : List Event → Except Refusal α) :
    p.readPart name absent read = q.readPart name absent read := by
  rw [Package.readPart, Package.readPart, Package.text?, Package.text?, Package.bytes?,
    Package.bytes?, h]

theorem RichPart.HeldBy.readPart_eq {part : RichPart} {p : Package} (h : part.HeldBy p) :
    (p.readPart richValuePart none fun events => .ok (some (richValuesOf events))) =
      .ok (some part.endedEntries) := by
  obtain ⟨xml, htext, hevents, hcomplete⟩ := h
  rw [← richValuesOf_events]
  exact Workbook.readPart_eq htext hevents hcomplete none fun events => some (richValuesOf events)

/-- Of the part the index takes the rich values only. -/
theorem pictureIndex_congr {p q : Package} {part other : RichPart} (hp : part.HeldBy p)
    (hq : other.HeldBy q) (hsame : ∀ name, name ≠ richValuePart → p.part name = q.part name)
    (hvalues : part.endedEntries = other.endedEntries) : p.pictureIndex = q.pictureIndex := by
  have hpart : ∀ (name : String), name ≠ richValuePart → ∀ {α : Type} (absent : α)
      (read : List Event → Except Refusal α),
        p.readPart name absent read = q.readPart name absent read :=
    fun name hname _ absent read => readPart_congr (hsame name hname) absent read
  have hstructures := @hpart structurePart (by decide)
  have hids := @hpart relationPart (by decide)
  have hrelationships := @hpart (relationshipsPart relationPart) (by decide)
  have hmetadata := @hpart metadataPart (by decide)
  rw [Package.pictureIndex, Package.pictureIndex, hp.readPart_eq, hq.readPart_eq, hvalues]
  simp only [Package.relationships, hstructures, hids, hrelationships, hmetadata]

/-- **The rich values of a part** are those whose elements have an end tag, in the order of the
document. -/
theorem richValuesOf_part (part : RichPart) :
    richValuesOf part.events = part.endedEntries ∧
      (richValuesOf part.events = part.elements.map RichElement.entry ↔
        ∀ x ∈ part.elements, x.hasEnd = true) ∧
      ∀ (other : RichPart) (p q : Package), part.HeldBy p → other.HeldBy q →
        (∀ name, name ≠ richValuePart → p.part name = q.part name) →
        part.endedEntries = other.endedEntries → p.pictureIndex = q.pictureIndex := by
  refine ⟨richValuesOf_events part, ?_, ?_⟩
  · rw [richValuesOf_events]
    exact endedEntries_eq_iff part
  · intro other p q hp hq hsame hvalues
    exact pictureIndex_congr hp hq hsame hvalues

/-- An empty rich value and one with a picture. -/
def twoValues (empty : Option (List Piece)) : RichPart where
  nodes := [.piece (.aside (.start ⟨['r', 'v', 'D', 'a', 't', 'a'], []⟩) (by decide)),
    .rich ⟨⟨['r', 'v'], [' ', 's', '=', '"', '0', '"']⟩, empty, by decide⟩,
    .rich ⟨⟨['r', 'v'], [' ', 's', '=', '"', '0', '"']⟩,
      some [.value ⟨⟨['v'], []⟩, some [.text "0"], by decide, by decide⟩], by decide⟩,
    .piece (.aside (.close "rvData") (by decide))]

/-- A package with these rich values and one picture. Without metadata its pictures are counted by their
rich values. -/
def richValuePackage (values : String) : Package :=
  .ofParts [(richValuePart, values.toUTF8),
    (relationPart, "<richValueRels><rel r:id=\"a\"/></richValueRels>".toUTF8),
    (relationshipsPart relationPart,
      "<Relationships><Relationship Id=\"a\" Target=\"/a.png\"/></Relationships>".toUTF8)]

theorem reads_oneRelation {p : Package}
    (hids : p.part relationPart =
      some (.ok "<richValueRels><rel r:id=\"a\"/></richValueRels>".toUTF8))
    (hrelationships : p.part (relationshipsPart relationPart) = some
      (.ok "<Relationships><Relationship Id=\"a\" Target=\"/a.png\"/></Relationships>".toUTF8)) :
    (p.readPart relationPart [] fun events => .ok (relationIdsOf events)) = .ok ["a"] ∧
      p.relationships relationPart = .ok [("a", "a.png")] := by
  have hid : relationIdsOf (Xml.events "<richValueRels><rel r:id=\"a\"/></richValueRels>").events =
      ["a"] := by decide +kernel
  have hrelationship : relationshipsOf relationPart (Xml.events
      "<Relationships><Relationship Id=\"a\" Target=\"/a.png\"/></Relationships>").events =
        [("a", "a.png")] := by decide +kernel
  rw [← hid, ← hrelationship]
  exact ⟨readPart_eq (text?_written hids) rfl (by decide +kernel) [] relationIdsOf,
    readPart_eq (text?_written hrelationships) rfl (by decide +kernel) []
      (relationshipsOf relationPart)⟩

theorem pictureIndex_richValuePackage {values : String} {part : RichPart}
    (h : part.HeldBy (richValuePackage values)) :
    (richValuePackage values).pictureIndex = .ok ⟨((List.range part.endedEntries.length).map some).map
      (pictureTarget? part.endedEntries [] ["a"] [("a", "a.png")])⟩ := by
  have hstructures : ∀ read : List Event → Except Refusal (List (Option Nat)),
      (richValuePackage values).readPart structurePart [] read = .ok [] := fun _ => rfl
  have hmetadata : ∀ absent (read : List Event → Except Refusal (List (Option Nat))),
      (richValuePackage values).readPart metadataPart absent read = .ok absent := fun _ _ => rfl
  obtain ⟨hids, hrelationships⟩ := reads_oneRelation (p := richValuePackage values) rfl rfl
  rw [Package.pictureIndex, h.readPart_eq]
  simp only [bind, Except.bind, hstructures, hids, hrelationships, hmetadata]

/-- The part with an empty rich value that has an end tag. -/
def endedText : String := "<rvData><rv s=\"0\"></rv><rv s=\"0\"><v>0</v></rv></rvData>"

/-- The part with an empty rich value that closes itself. -/
def closedText : String := "<rvData><rv s=\"0\"/><rv s=\"0\"><v>0</v></rv></rvData>"

theorem heldBy_endedText : (twoValues (some [])).HeldBy (richValuePackage endedText) :=
  ⟨endedText, text?_written rfl, by decide +kernel, by decide +kernel⟩

theorem heldBy_closedText : (twoValues none).HeldBy (richValuePackage closedText) :=
  ⟨closedText, text?_written rfl, by decide +kernel, by decide +kernel⟩

/-- Where the empty rich value closes itself it is not read, and the picture is not in its place. -/
theorem resolve?_closedText :
    (twoValues none).HeldBy (richValuePackage closedText) ∧
      (twoValues (some [])).HeldBy (richValuePackage endedText) ∧
      richValuesOf (twoValues none).events ≠ (twoValues none).elements.map RichElement.entry ∧
      richValuesOf (twoValues (some [])).events =
        (twoValues (some [])).elements.map RichElement.entry ∧
      (richValuePackage closedText).pictureIndex.map (PictureIndex.resolve? · 2) = .ok none ∧
      (richValuePackage endedText).pictureIndex.map (PictureIndex.resolve? · 2) =
        .ok (some "a.png") := by
  refine ⟨heldBy_closedText, heldBy_endedText, ?_, ?_, ?_, ?_⟩
  · rw [richValuesOf_events, Ne, endedEntries_eq_iff]
    decide
  · rw [richValuesOf_events, endedEntries_eq_iff]
    decide
  · rw [pictureIndex_richValuePackage heldBy_closedText]
    decide +kernel
  · rw [pictureIndex_richValuePackage heldBy_endedText]
    decide +kernel

end SheetMarkup.Workbook
