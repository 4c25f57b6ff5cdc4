import SheetMarkup.Proofs.Outcome
import SheetMarkup.Proofs.Workbook.RichValues

/-!
# Structures of rich values

The structure of a rich value tells which of its values is an image, if one is. The index of pictures
looks for the image key among the keys of the structure. Where the structure has no such key it goes on
with the first value, as it does where there is no structure at all, so that a value that is no image
can lead to a picture.

* `StructureElement`, `StructurePart`: a part with structures, element by element;
* `foldl_inner`, `positions_element`: what the reader makes of each of them (the steps);
* `positions_nodes`, `imageKeysOf_events`: what it makes of a whole part (the run);
* `Package.Gives`, `Package.LeadsTo`: the rich value of a value metadata, and the picture of a value;
* `pictureIndex_eq_ok`: the tables of an index;
* **`resolve?_of_structure`**: the picture of a rich value with a structure, and when there is none;
* `resolve?_errorPackage`: a picture of a value that is no image.
-/

namespace SheetMarkup.Workbook

open Xml (Event)
open Outcome

/-! ## Parts -/

/-- The event neither opens nor ends a structure. -/
def isInner : Event → Bool
  | .start tag => tag.localName != "s"
  | .empty tag => tag.localName != "s"
  | .close name => name != "s"
  | _ => true

/-- The key of an element that an event opens. -/
def key? (e : Event) : Option String :=
  (openedTag? e).bind fun tag =>
    if tag.localName = "k" then some ((tag.attribute? "n").getD "") else none

/-- A structure: an element with a body, or one that closes itself. -/
structure StructureElement where
  tag : Xml.Tag
  body : Option (List Event)
  named : tag.localName = "s"
  inner : ∀ e ∈ body.getD [], isInner e = true

namespace StructureElement

variable (x : StructureElement)

def events : List Event :=
  match x.body with
  | some body => .start x.tag :: (body ++ [.close "s"])
  | none => [.empty x.tag]

/-- The keys in the structure. -/
def keys : List String := (x.body.getD []).filterMap key?

end StructureElement

/-- What stands in a part. -/
inductive StructureNode where
  | around (e : Event) (h : isInner e = true)
  | element (x : StructureElement)

def StructureNode.events : StructureNode → List Event
  | around e _ => [e]
  | element x => x.events

def StructureNode.keys? : StructureNode → Option (List String)
  | around _ _ => none
  | element x => some x.keys

/-- A part with structures, none of which holds another one. -/
structure StructurePart where
  nodes : List StructureNode

namespace StructurePart

variable (part : StructurePart)

def events : List Event := part.nodes.flatMap StructureNode.events

/-- The keys of every structure, in the order of the document. -/
def keyLists : List (List String) := part.nodes.filterMap StructureNode.keys?

/-- The package holds the part. -/
def HeldBy (p : Package) : Prop :=
  ∃ xml, p.text? structurePart = .ok (some xml) ∧ (Xml.events xml).events = part.events ∧
    (Xml.events xml).complete = true

end StructurePart

/-! ## Reading -/

theorem step_inner {e : Event} (h : isInner e = true) (r : ImageKeyReader) :
    r.step e = ⟨r.positions, r.keys ++ (key? e).toList⟩ := by
  have hkept : r = ⟨r.positions, r.keys ++ []⟩ := by rw [List.append_nil]
  cases e with
  | start tag =>
    simp only [isInner, bne_iff_ne] at h
    by_cases hk : tag.localName = "k"
    · simp [ImageKeyReader.step, key?, openedTag?, hk]
    · rw [ImageKeyReader.step, key?, openedTag?, Option.bind_some, if_neg hk]
      split
      · next heq => exact absurd heq h
      · next heq => exact absurd heq hk
      · exact hkept
  | empty tag =>
    simp only [isInner, bne_iff_ne] at h
    by_cases hk : tag.localName = "k"
    · simp [ImageKeyReader.step, key?, openedTag?, hk]
    · rw [ImageKeyReader.step, key?, openedTag?, Option.bind_some, if_neg hk]
      split
      · next heq => exact absurd heq hk
      · next heq => exact absurd heq h
      · exact hkept
  | close name =>
    have hname : name ≠ "s" := by simpa [isInner] using h
    refine Eq.trans ?_ hkept
    simp [ImageKeyReader.step, hname]
  | text s => exact hkept
  | reference name => exact hkept

/-- **Inside of a structure its keys are taken up.** -/
theorem foldl_inner {events : List Event} (h : ∀ e ∈ events, isInner e = true) (r : ImageKeyReader) :
    events.foldl ImageKeyReader.step r = ⟨r.positions, r.keys ++ events.filterMap key?⟩ := by
  induction events generalizing r with
  | nil => rw [List.filterMap_nil, List.append_nil]; rfl
  | cons e events ih =>
    rw [List.forall_mem_cons] at h
    rw [List.foldl_cons, step_inner h.1, ih h.2, List.append_assoc]
    cases hk : key? e <;> simp [hk]

/-- **A structure gives the place of the image among its keys**, whatever stands before it. -/
theorem positions_element (x : StructureElement) (r : ImageKeyReader) :
    (x.events.foldl ImageKeyReader.step r).positions =
      x.keys.findIdx? (· == imageKey) :: r.positions := by
  have hnamed := x.named
  have hinner := x.inner
  rw [StructureElement.events, StructureElement.keys]
  cases hbody : x.body with
  | none =>
    show (r.step (.empty x.tag)).positions = _
    rw [ImageKeyReader.step, hnamed]
    rfl
  | some body =>
    have hstart : r.step (.start x.tag) = ⟨r.positions, []⟩ := by
      rw [ImageKeyReader.step, hnamed]
      rfl
    rw [hbody, Option.getD_some] at hinner
    rw [List.foldl_cons, hstart, List.foldl_append, foldl_inner hinner]
    rfl

theorem positions_nodes (nodes : List StructureNode) (r : ImageKeyReader) :
    ((nodes.flatMap StructureNode.events).foldl ImageKeyReader.step r).positions =
      ((nodes.filterMap StructureNode.keys?).map fun keys =>
        keys.findIdx? (· == imageKey)).reverse ++ r.positions := by
  induction nodes generalizing r with
  | nil => rfl
  | cons node nodes ih =>
    rw [List.flatMap_cons, List.foldl_append, ih]
    cases node with
    | around e h =>
      show _ ++ (r.step e).positions = _
      rw [step_inner h]
      rfl
    | element x =>
      rw [StructureNode.events, positions_element,
        List.filterMap_cons_some (show (StructureNode.element x).keys? = some x.keys from rfl)]
      simp

/-- **For every structure its image is looked up among its keys.** -/
theorem imageKeysOf_events (part : StructurePart) :
    imageKeysOf part.events = part.keyLists.map fun keys => keys.findIdx? (· == imageKey) := by
  rw [imageKeysOf, StructurePart.events, positions_nodes]
  show (_ ++ []).reverse = _
  rw [List.append_nil, List.reverse_reverse]
  rfl

/-! ## The index -/

variable {p : Package} {x : PictureIndex}

/-- A value metadata, counted from one, leads to a rich value. -/
def Package.Gives (p : Package) (number : Nat) (v : RichValue) : Prop :=
  ∃ values rich n place,
    (p.readPart richValuePart none fun events => .ok (some (richValuesOf events))) =
      .ok (some values) ∧
    (p.readPart metadataPart ((List.range values.length).map some) fun events =>
      .ok (metadataOf events)) = .ok rich ∧
    number = n + 1 ∧ rich[n]? = some (some place) ∧ values[place]? = some v

/-- A value is the number of a relation whose relationship leads to a part. -/
def Package.LeadsTo (p : Package) (text part : String) : Prop :=
  ∃ ids relationships relation id,
    (p.readPart relationPart [] fun events => .ok (relationIdsOf events)) = .ok ids ∧
    p.relationships relationPart = .ok relationships ∧ index? text = some relation ∧
    ids[relation]? = some id ∧ relationships.target? id = some part

/-- The place of the value that is taken for the image. -/
def imagePlace (keys : List String) : Nat := (keys.findIdx? (· == imageKey)).getD 0

theorem pictureIndex_eq_ok (h : p.pictureIndex = .ok x) {values : List RichValue}
    (hvalues : (p.readPart richValuePart none fun events => .ok (some (richValuesOf events))) =
      .ok (some values)) :
    ∃ keys ids relationships rich,
      (p.readPart structurePart [] fun events => .ok (imageKeysOf events)) = .ok keys ∧
      (p.readPart relationPart [] fun events => .ok (relationIdsOf events)) = .ok ids ∧
      p.relationships relationPart = .ok relationships ∧
      (p.readPart metadataPart ((List.range values.length).map some) fun events =>
        .ok (metadataOf events)) = .ok rich ∧
      x = ⟨rich.map (pictureTarget? values keys ids relationships)⟩ := by
  obtain ⟨_, hvalues', h⟩ := bind_eq_ok.mp h
  obtain rfl := Except.ok.inj (hvalues.symm.trans hvalues')
  obtain ⟨keys, hkeys, h⟩ := bind_eq_ok.mp h
  obtain ⟨ids, hids, h⟩ := bind_eq_ok.mp h
  obtain ⟨relationships, hrelationships, h⟩ := bind_eq_ok.mp h
  obtain ⟨rich, hrich, h⟩ := bind_eq_ok.mp h
  exact ⟨keys, ids, relationships, rich, hkeys, hids, hrelationships, hrich, (Except.ok.inj h).symm⟩

theorem resolve?_eq_some_iff (hx : p.pictureIndex = .ok x) {part : StructurePart} (hpart : part.HeldBy p)
    {number : Nat} {v : RichValue} (hv : p.Gives number v) {s : Nat} (hs : v.structureIndex = some s)
    {keys : List String} (hkeys : part.keyLists[s]? = some keys) {target : String} :
    x.resolve? number = some target ↔
      ∃ text, v.values[imagePlace keys]? = some text ∧ p.LeadsTo text target := by
  obtain ⟨values, rich, n, place, hvalues, hrich, rfl, hplace, hvalue⟩ := hv
  obtain ⟨positions, ids, relationships, rich', hpositions, hids, hrelationships, hrich', rfl⟩ :=
    pictureIndex_eq_ok hx hvalues
  obtain rfl : rich = rich' := Except.ok.inj (hrich.symm.trans hrich')
  obtain ⟨xml, htext, hevents, hcomplete⟩ := hpart
  have hread := readPart_eq htext hevents hcomplete [] imageKeysOf
  rw [imageKeysOf_events] at hread
  obtain rfl := Except.ok.inj (hread.symm.trans hpositions)
  have hposition : (v.structureIndex.bind fun s =>
      ((part.keyLists.map fun keys => keys.findIdx? (· == imageKey))[s]?).join).getD 0 =
        imagePlace keys := by
    rw [hs, Option.bind_some, List.getElem?_map, hkeys]
    rfl
  rw [PictureIndex.resolve?, List.getElem?_map, hplace, Option.map_some, Option.join_some,
    pictureTarget?]
  simp only [Option.bind_eq_bind, Option.bind_some, hvalue, hposition, Option.bind_eq_some_iff]
  constructor
  · rintro ⟨text, htext, relation, hrelation, id, hid, htarget⟩
    exact ⟨text, htext, ids, relationships, relation, id, hids, hrelationships, hrelation, hid, htarget⟩
  · rintro ⟨text, htext, ids', relationships', relation, id, hids', hrelationships', hrelation, hid,
      htarget⟩
    obtain rfl := Except.ok.inj (hids.symm.trans hids')
    obtain rfl := Except.ok.inj (hrelationships.symm.trans hrelationships')
    exact ⟨text, htext, relation, hrelation, id, hid, htarget⟩

theorem build_errorCell {strings : List String} {c : PendingCell} (htype : c.type = some "e")
    {number : Nat} (hnumber : c.metadata = some number) {target : String} :
    c.build strings x = .ok (Cell.image target) ↔ x.resolve? number = some target := by
  unfold PendingCell.build
  rw [htype, hnumber]
  dsimp only
  cases x.resolve? number <;> simp [Cell.image]

/-- **The picture of a rich value with a structure** is that of its image key, and without one that
of its first value. -/
theorem resolve?_of_structure (hx : p.pictureIndex = .ok x) {part : StructurePart}
    (hpart : part.HeldBy p) {number : Nat} {v : RichValue} (hv : p.Gives number v) {s : Nat}
    (hs : v.structureIndex = some s) {keys : List String} (hkeys : part.keyLists[s]? = some keys) :
    (imageKey ∈ keys → ∀ target, x.resolve? number = some target ↔
      ∃ text, v.values[keys.idxOf imageKey]? = some text ∧ p.LeadsTo text target) ∧
    (imageKey ∉ keys → ∀ target, x.resolve? number = some target ↔
      ∃ text, v.values.head? = some text ∧ p.LeadsTo text target) ∧
    (imageKey ∉ keys → (x.resolve? number = none ↔
      ∀ text, v.values.head? = some text → ∀ target, ¬ p.LeadsTo text target)) ∧
    ∀ (strings : List String) (c : PendingCell), c.type = some "e" → c.metadata = some number →
      ∀ target, c.build strings x = .ok (Cell.image target) ↔ x.resolve? number = some target := by
  have hresolve : ∀ target, x.resolve? number = some target ↔
      ∃ text, v.values[imagePlace keys]? = some text ∧ p.LeadsTo text target :=
    fun target => resolve?_eq_some_iff hx hpart hv hs hkeys
  have hfirst : imageKey ∉ keys → v.values[imagePlace keys]? = v.values.head? := by
    intro hkey
    have hnone : keys.findIdx? (· == imageKey) = none := by
      rw [List.findIdx?_eq_none_iff]
      exact fun key hmem => beq_eq_false_iff_ne.mpr fun e => hkey (e ▸ hmem)
    rw [imagePlace, hnone, Option.getD_none, List.head?_eq_getElem?]
  refine ⟨?_, ?_, ?_, fun strings c htype hnumber target => build_errorCell htype hnumber⟩
  · intro hkey target
    rw [hresolve, imagePlace, findIdx?_of_mem hkey, Option.getD_some]
  · intro hkey target
    rw [hresolve, hfirst hkey]
  · intro hkey
    rw [Option.eq_none_iff_forall_ne_some]
    simp only [ne_eq, hresolve, hfirst hkey, not_exists, not_and]
    exact ⟨fun h text htext target => h target text htext, fun h target text htext => h text htext target⟩

/-- Structures with one of an error, which has no image. -/
def errorStructures : StructurePart where
  nodes := [.around (.start ⟨"rvStructures".toList, []⟩) (by decide),
    .element ⟨⟨['s'], " t=\"_error\"".toList⟩,
      some [.empty ⟨['k'], " n=\"errorType\"".toList⟩], by decide, by decide⟩,
    .around (.close "rvStructures") (by decide)]

def errorText : String := "<rvStructures><s t=\"_error\"><k n=\"errorType\"/></s></rvStructures>"

/-- A package with an error as its only rich value, and with one picture. -/
def errorPackage : Package :=
  .ofParts [(richValuePart, "<rvData><rv s=\"0\"><v>0</v></rv></rvData>".toUTF8),
    (structurePart, errorText.toUTF8),
    (relationPart, "<richValueRels><rel r:id=\"a\"/></richValueRels>".toUTF8),
    (relationshipsPart relationPart,
      "<Relationships><Relationship Id=\"a\" Target=\"/a.png\"/></Relationships>".toUTF8)]

theorem heldBy_errorStructures : errorStructures.HeldBy errorPackage :=
  ⟨errorText, text?_written rfl, by decide +kernel, by decide +kernel⟩

theorem readPart_errorPackage :
    (errorPackage.readPart richValuePart none fun events => .ok (some (richValuesOf events))) =
      .ok (some [⟨some 0, ["0"]⟩]) := by
  have hread : richValuesOf (Xml.events "<rvData><rv s=\"0\"><v>0</v></rv></rvData>").events =
      [⟨some 0, ["0"]⟩] := by decide +kernel
  rw [← hread]
  exact readPart_eq (text?_written rfl) rfl (by decide +kernel) none fun events =>
    some (richValuesOf events)

theorem gives_errorPackage : errorPackage.Gives 1 ⟨some 0, ["0"]⟩ :=
  ⟨_, _, 0, 0, readPart_errorPackage, rfl, rfl, rfl, rfl⟩

theorem pictureIndex_errorPackage : errorPackage.pictureIndex = .ok ⟨[some "a.png"]⟩ := by
  obtain ⟨xml, htext, hevents, hcomplete⟩ := heldBy_errorStructures
  have hstructures := readPart_eq htext hevents hcomplete [] imageKeysOf
  have hmetadata : ∀ absent (read : List Event → Except Refusal (List (Option Nat))),
      errorPackage.readPart metadataPart absent read = .ok absent := fun _ _ => rfl
  obtain ⟨hids, hrelationships⟩ := reads_oneRelation (p := errorPackage) rfl rfl
  rw [Package.pictureIndex, readPart_errorPackage]
  simp only [bind, Except.bind, hstructures, hids, hrelationships, hmetadata, imageKeysOf_events]
  exact congrArg (fun targets => Except.ok (PictureIndex.mk targets)) (by decide +kernel)

theorem resolve?_of_structure_errorPackage :
    errorPackage.LeadsTo "0" "a.png" ∧
      PendingCell.build [] ⟨[some "a.png"]⟩ ⟨1, 1, some "e", some 1, "", ""⟩ =
        .ok (Cell.image "a.png") := by
  have hkeys : errorStructures.keyLists[0]? = some ["errorType"] := by decide +kernel
  obtain ⟨-, hfirst, -, hcell⟩ := resolve?_of_structure pictureIndex_errorPackage
    heldBy_errorStructures gives_errorPackage rfl hkeys
  obtain ⟨text, htext, hleads⟩ := (hfirst (by decide) "a.png").mp rfl
  cases htext
  exact ⟨hleads, (hcell [] ⟨1, 1, some "e", some 1, "", ""⟩ rfl rfl "a.png").mpr rfl⟩

/-- The value of an error is taken for an image. -/
theorem resolve?_errorPackage :
    errorStructures.HeldBy errorPackage ∧ errorPackage.Gives 1 ⟨some 0, ["0"]⟩ ∧
      errorStructures.keyLists[0]? = some ["errorType"] ∧ imageKey ∉ ["errorType"] ∧
      errorPackage.pictureIndex.map (PictureIndex.resolve? · 1) = .ok (some "a.png") := by
  refine ⟨heldBy_errorStructures, gives_errorPackage, by decide +kernel, by decide, ?_⟩
  rw [pictureIndex_errorPackage]
  rfl

end SheetMarkup.Workbook
