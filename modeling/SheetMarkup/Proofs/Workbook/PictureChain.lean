import SheetMarkup.Proofs.Text.Utf8
import SheetMarkup.Proofs.Workbook.MetadataReading

/-!
# From cells to pictures

The index of the pictures of a workbook leads from a value metadata to the part that the tables of the
workbook tell, and to no part where they tell none.

* `text?_written`, `readPart_eq`, `readPart_written`: a written part is read;
* `pictureTarget?_eq_some`: the way from a rich value to a part;
* **`resolve?_pictureIndex`**: the whole way, in both directions.
-/

namespace SheetMarkup.Workbook

open Xml (Tree)

/-! ## Parts -/

theorem text?_written {p : Package} {name text : String}
    (hpart : p.part name = some (.ok text.toUTF8)) :
    p.text? name = .ok (some text) := by
  simp only [Package.text?, Package.bytes?, hpart, bind, Except.bind, Text.decodeUtf8?_toUTF8]

theorem readPart_eq {α : Type} {p : Package} {name text : String} {events : List Xml.Event}
    (htext : p.text? name = .ok (some text)) (hevents : (Xml.events text).events = events)
    (hcomplete : (Xml.events text).complete = true) (absent : α) (read : List Xml.Event → α) :
    p.readPart name absent (fun events => .ok (read events)) = .ok (read events) := by
  rw [Package.readPart, htext]
  show (readMarkup name text fun events => .ok (read events)) = _
  rw [readMarkup, hevents, hcomplete]
  rfl

theorem readPart_written {α : Type} {p : Package} {name : String} {tree : Tree}
    (hpart : p.part name = some (.ok (Xml.documentText tree).toUTF8)) (ht : tree.Legible)
    (absent : α) (read : List Xml.Event → α) :
    p.readPart name absent (fun events => .ok (read events)) = .ok (read tree.seen) :=
  readPart_eq (text?_written hpart) (by rw [Xml.events_of_legible ht])
    (by rw [Xml.events_of_legible ht]) absent read

/-! ## Rich values -/

variable {t : PictureTables}

theorem target?_eq_some {relationships : List (String × String)} {part id found : String} :
    Relationships.target? (relationships.map fun r => (r.1, resolveTarget part r.2)).reverse id =
        some found ↔
      ∃ target, relationships.reverse.lookup id = some target ∧ resolveTarget part target = found := by
  have hlookup : ∀ rs : List (String × String),
      Relationships.target? (rs.map fun r => (r.1, resolveTarget part r.2)) id =
        (rs.lookup id).map (resolveTarget part) := by
    intro rs
    induction rs with
    | nil => rfl
    | cons r rs ih =>
      rw [Relationships.target?, List.map_cons, List.find?_cons, List.lookup_cons,
        BEq.comm (a := id)]
      cases hid : r.1 == id with
      | true => rfl
      | false => exact ih
  rw [← List.map_reverse, hlookup, Option.map_eq_some_iff]

theorem PictureTables.Shows.lt_bound64 {rich : Nat} {part : String} (h : t.Shows rich part) :
    rich < Text.bound64 := by
  obtain ⟨value, keys, text, relation, id, target, hvalue, -⟩ := h
  have hlength : t.values.length < Text.bound64 := t.fits _ (by simp)
  exact (List.getElem?_eq_some_iff.mp hvalue).1.trans hlength

theorem pictureTarget?_eq_some {rich : Nat} {part : String} :
    pictureTarget? (t.values.map fun v => ⟨some v.1, v.2⟩)
        (t.structures.map fun keys => keys.findIdx? (· == imageKey)) t.ids
        (t.relationships.map fun r => (r.1, resolveTarget relationPart r.2)).reverse (some rich) =
          some part ↔ t.Shows rich part := by
  rw [PictureTables.Shows]
  cases hvalue : t.values[rich]? with
  | none =>
    rw [pictureTarget?]
    simp [hvalue]
  | some value =>
    obtain ⟨keys, hkeys, hkey⟩ := t.keyed value (List.mem_of_getElem? hvalue)
    have hposition := findIdx?_of_mem hkey
    rw [pictureTarget?]
    simp only [Option.bind_eq_bind, Option.bind_some, List.getElem?_map, hvalue, hkeys,
      Option.map_some, Option.join_some, hposition, Option.getD_some, Option.bind_eq_some_iff,
      index?_eq_some, target?_eq_some]
    constructor
    · rintro ⟨text, htext, relation, ⟨hnumber, -⟩, id, hid, target, htarget, hpart⟩
      exact ⟨value, keys, text, relation, id, target, rfl, hkeys, htext, hnumber, hid, htarget,
        hpart⟩
    · rintro ⟨_, _, text, relation, id, target, ⟨rfl⟩, hkeys', htext, hnumber, hid, htarget, hpart⟩
      obtain rfl : keys = _ := Option.some.inj (hkeys.symm.trans hkeys')
      have hlength : t.ids.length < Text.bound64 := t.fits _ (by simp)
      have hplace : relation < t.ids.length := (List.getElem?_eq_some_iff.mp hid).1
      exact ⟨text, htext, relation, ⟨hnumber, hplace.trans hlength⟩, id, hid, target, htarget, hpart⟩

theorem pictureIndex_written {l : TableLayout} {p : Package} (h : t.HeldBy l p) :
    p.pictureIndex = .ok ⟨(metadataOf (l.metadataTree t).seen).map (pictureTarget?
      (richValuesOf (l.valueTree t).seen) (imageKeysOf (l.structureTree t).seen)
      (relationIdsOf (l.relationTree t).seen)
      (relationshipsOf relationPart (l.relationshipTree t).seen))⟩ := by
  obtain ⟨hmetadata, hvalues, hstructures, hids, hrelationships⟩ := l.legible_tables t
  have hvalues := readPart_written h.values hvalues none fun events => some (richValuesOf events)
  have hstructures := readPart_written h.structures hstructures [] imageKeysOf
  have hids := readPart_written h.ids hids [] relationIdsOf
  have hrelationships := readPart_written h.relationships hrelationships []
    (relationshipsOf relationPart)
  have hmetadata := fun absent => readPart_written h.metadata hmetadata absent metadataOf
  rw [Package.pictureIndex, hvalues]
  simp only [bind, Except.bind, Package.relationships, hstructures, hids, hrelationships, hmetadata]

/-- A package of the five parts. -/
def PictureTables.package (t : PictureTables) (l : TableLayout) : Package :=
  .ofParts [(metadataPart, (Xml.documentText (l.metadataTree t)).toUTF8),
    (richValuePart, (Xml.documentText (l.valueTree t)).toUTF8),
    (structurePart, (Xml.documentText (l.structureTree t)).toUTF8),
    (relationPart, (Xml.documentText (l.relationTree t)).toUTF8),
    (relationshipsPart relationPart, (Xml.documentText (l.relationshipTree t)).toUTF8)]

theorem heldBy_package (t : PictureTables) (l : TableLayout) : t.HeldBy l (t.package l) :=
  ⟨rfl, rfl, rfl, rfl, rfl⟩

/-- **The index leads from a value metadata to the part that the tables tell**, and to none where they
tell none. -/
theorem resolve?_pictureIndex {l : TableLayout} {p : Package} (h : t.HeldBy l p) :
    ∃ x, p.pictureIndex = .ok x ∧
      ∀ number part, x.resolve? number = some part ↔ t.Leads number part := by
  refine ⟨_, pictureIndex_written h, ?_⟩
  intro number part
  rw [richValuesOf_seen, imageKeysOf_seen, relationIdsOf_seen, relationshipsOf_seen]
  cases number with
  | zero =>
    refine ⟨fun hnone => absurd hnone (by simp [PictureIndex.resolve?]), ?_⟩
    rintro ⟨n, block, rich, hnumber, -⟩
    exact absurd hnumber (by omega)
  | succ n =>
    have hsome : ∀ (f : Option Nat → Option String) (rich? : Option (Option Nat)), f none = none →
        ((rich?.map f).join = some part ↔
          ∃ rich, rich?.join = some rich ∧ f (some rich) = some part) := by
      intro f rich? hf
      rcases rich? with _ | _ | rich <;> simp [hf]
    rw [PictureIndex.resolve?, List.getElem?_map, hsome _ _ rfl]
    simp only [metadataOf_seen, pictureTarget?_eq_some]
    constructor
    · rintro ⟨rich, ⟨block, hrecord, hblock, -⟩, hshows⟩
      exact ⟨n, block, rich, rfl, hrecord, hblock, hshows⟩
    · rintro ⟨_, block, rich, ⟨rfl⟩, hrecord, hblock, hshows⟩
      exact ⟨rich, ⟨block, hrecord, hblock, hshows.lt_bound64⟩, hshows⟩

/-- Two types, a record of the other type, images at two places, and an identifier that is given
twice. -/
def sampleTables : PictureTables where
  types := ["XLDAPR", richName]
  rich := [1, 0]
  records := [(2, 1), (1, 0), (2, 0)]
  structures := [[imageKey, "CalcOrigin"], ["CalcOrigin", imageKey, "Text"]]
  values := [(0, ["1", "5"]), (1, ["5", " +0 ", "Fish & Chips"])]
  ids := ["rId2", "rId1"]
  relationships := [("rId1", "../media/image1.png"), ("rId2", "../media/image2.png"),
    ("rId1", "/xl/media/image3.png")]
  hasType := by decide
  keyed := by
    simp only [List.forall_mem_cons]
    exact ⟨⟨_, rfl, by decide⟩, ⟨_, rfl, by decide⟩, by simp⟩
  fits := by decide

/-- Metadata of another type before those of rich values, and metadata of cells. -/
def sampleLayout : TableLayout where
  apart name := name == "rv" || name == "ext"
  spelling := .escaped
  before := [("XLDAPR", 1)]
  after := []
  cells := some [(1, 0)]
  apartValues := by decide
  others := by decide

theorem resolve?_pictureIndex_sampleTables :
    ∃ x, (sampleTables.package sampleLayout).pictureIndex = .ok x ∧
      x.resolve? 1 = some "xl/media/image3.png" ∧ x.resolve? 2 = none ∧
        x.resolve? 3 = some "xl/media/image2.png" := by
  obtain ⟨x, hx, hresolve⟩ := resolve?_pictureIndex (heldBy_package sampleTables sampleLayout)
  have hone : Text.Denotes "1" 1 := (index?_eq_some.mp (by decide)).1
  have hzero : Text.Denotes " +0 " 0 := (index?_eq_some.mp (by decide)).1
  refine ⟨x, hx, (hresolve 1 _).mpr ?_, ?_, (hresolve 3 _).mpr ?_⟩
  · exact ⟨0, 1, 0, rfl, by decide, rfl, _, _, "1", 1, "rId1", _, rfl, rfl, by decide, hone, rfl,
      rfl, by decide⟩
  · refine Option.eq_none_iff_forall_ne_some.mpr fun part hpart => ?_
    obtain ⟨n, block, rich, hnumber, hrecord, -⟩ := (hresolve 2 part).mp hpart
    obtain rfl : n = 1 := by omega
    have htype : 1 = sampleTables.types.idxOf richName + 1 :=
      congrArg Prod.fst (Option.some.inj hrecord)
    exact absurd htype (by decide)
  · exact ⟨2, 0, 1, rfl, by decide, rfl, _, _, " +0 ", 0, "rId2", _, rfl, rfl, by decide, hzero, rfl,
      rfl, by decide⟩

end SheetMarkup.Workbook
