import SheetMarkup.Proofs.Text.Number
import SheetMarkup.Proofs.Workbook.WrittenSheet
import SheetMarkup.Workbook.Pictures

/-!
# Written picture tables

The tables that lead from a cell to its picture, and the five parts of a workbook that hold them. How a
part is written leaves some freedom, none of which the tables tell.

* `PictureTables`: the tables;
* `PictureTables.Shows`, **`PictureTables.Leads`**: the way from a number of value metadata to a part;
* `TableLayout`, `TableLayout.element`: how the parts are written;
* `metadataTree`, `valueTree`, `structureTree`, `relationTree`, `relationshipTree`: the parts;
* `PictureTables.HeldBy`: the package holds the parts;
* **`legible_tables`**: written parts can be read back.
-/

namespace SheetMarkup.Workbook

open Xml (Tree)

/-! ## Tables -/

/-- The tables through which cells lead to pictures. Numbers count from zero, except for the types of
records. -/
structure PictureTables where
  /-- The names of the types of metadata. -/
  types : List String
  /-- The rich value of every block of the metadata of rich values. -/
  rich : List Nat
  /-- The type, counted from one, and the block of every value metadata. -/
  records : List (Nat × Nat)
  /-- The keys of every structure. -/
  structures : List (List String)
  /-- The structure and the values of every rich value. -/
  values : List (Nat × List String)
  /-- The relationship of every relation. -/
  ids : List String
  /-- Relationships with their targets. Of several with one identifier the last one counts. -/
  relationships : List (String × String)
  hasType : richName ∈ types
  keyed : ∀ v ∈ values, ∃ keys, structures[v.1]? = some keys ∧ imageKey ∈ keys
  /-- No table is longer than 64 bits can count. -/
  fits : ∀ n ∈ [types.length, rich.length, structures.length, values.length, ids.length],
    n < Text.bound64

namespace PictureTables

/-- The way from a rich value to a part: by what it holds for the image key of its structure to a
relation, whose relationship tells the part. -/
def Shows (t : PictureTables) (rich : Nat) (part : String) : Prop :=
  ∃ value keys text relation id target,
    t.values[rich]? = some value ∧ t.structures[value.1]? = some keys ∧
    value.2[keys.idxOf imageKey]? = some text ∧ Text.Denotes text relation ∧
    t.ids[relation]? = some id ∧ t.relationships.reverse.lookup id = some target ∧
    resolveTarget relationPart target = part

/-- **The way from a value metadata, counted from one, to a part**: by its record to a block of rich
values, if the record has their type, and on by the rich value of that block. -/
def Leads (t : PictureTables) (number : Nat) (part : String) : Prop :=
  ∃ n block rich, number = n + 1 ∧
    t.records[n]? = some (t.types.idxOf richName + 1, block) ∧ t.rich[block]? = some rich ∧
    t.Shows rich part

end PictureTables

/-! ## Elements -/

/-- How the parts are written. -/
structure TableLayout where
  /-- The elements that have an end tag of their own even without content. -/
  apart : String → Bool
  /-- How values are spelled. -/
  spelling : ∀ text, Spelling text
  /-- The types and the numbers of blocks of other metadata, before and behind that of rich values. -/
  before : List (String × Nat)
  after : List (String × Nat)
  /-- The metadata of cells, if there are any. -/
  cells : Option (List (Nat × Nat))
  apartValues : apart "rv" = true
  others : ∀ s ∈ before ++ after, s.1 ≠ richName

/-- Attributes in their written form. -/
def escaped (attributes : List (String × String)) : List (String × String) :=
  attributes.map fun a => (a.1, Xml.escape a.2)

namespace TableLayout

variable (l : TableLayout)

/-- An element. Without content it has an end tag of its own, or closes itself. -/
def element (name : String) (attributes : List (String × String)) (children : List Tree) : Tree :=
  .element name (escaped attributes)
    (if children.isEmpty && l.apart name then [.text ""] else children)

/-! ## Metadata -/

/-- The namespace of rich values. -/
def richNamespace : String := "http://schemas.microsoft.com/office/spreadsheetml/2017/richdata"

def metadataType (name : String) : Tree :=
  l.element "metadataType" [("name", name), ("minSupportedVersion", "120000")] []

/-- A block of some metadata, with what extends it. -/
def futureBlock (children : List Tree) : Tree :=
  l.element "bk" [] [l.element "extLst" [] [l.element "ext" [("uri", richNamespace)] children]]

def richBlock (value : Nat) : Tree :=
  l.futureBlock [l.element "xlrd:rvb" [("i", Text.decimal value)] []]

def futureMetadata (name : String) (blocks : List Tree) : Tree :=
  l.element "futureMetadata" [("name", name), ("count", Text.decimal blocks.length)] blocks

/-- Metadata of another type. -/
def otherMetadata (s : String × Nat) : Tree :=
  l.futureMetadata s.1 (List.replicate s.2 (l.futureBlock []))

def recordAttributes (record : Nat × Nat) : List (String × String) :=
  [("t", Text.decimal record.1), ("v", Text.decimal record.2)]

def recordBlock (record : Nat × Nat) : Tree :=
  l.element "bk" [] [l.element "rc" (recordAttributes record) []]

/-- The metadata of values or cells. -/
def records (name : String) (records : List (Nat × Nat)) : Tree :=
  l.element name [("count", Text.decimal records.length)] (records.map l.recordBlock)

/-- What stands between the types and the metadata of values. -/
def middle (t : PictureTables) : List Tree :=
  l.before.map l.otherMetadata ++
    l.futureMetadata richName (t.rich.map l.richBlock) :: l.after.map l.otherMetadata ++
    (l.cells.map (l.records "cellMetadata")).toList

def metadataTree (t : PictureTables) : Tree :=
  l.element "metadata" [("xmlns", sheetNamespace), ("xmlns:xlrd", richNamespace)]
    (l.element "metadataTypes" [("count", Text.decimal t.types.length)]
      (t.types.map l.metadataType) :: (l.middle t ++ [l.records "valueMetadata" t.records]))

/-! ## Rich values -/

def richValue (v : Nat × List String) : Tree :=
  l.element "rv" [("s", Text.decimal v.1)] (v.2.map fun text => (l.spelling text).element "v")

def valueTree (t : PictureTables) : Tree :=
  l.element "rvData" [("xmlns", richNamespace), ("count", Text.decimal t.values.length)]
    (t.values.map l.richValue)

def structureKey (key : String) : Tree := l.element "k" [("n", key), ("t", "i")] []

def richStructure (keys : List String) : Tree :=
  l.element "s" [("t", "_localImage")] (keys.map l.structureKey)

def structureTree (t : PictureTables) : Tree :=
  l.element "rvStructures" [("xmlns", richNamespace), ("count", Text.decimal t.structures.length)]
    (t.structures.map l.richStructure)

/-! ## Relations -/

/-- The namespace of relations, and the base of their kinds. -/
def relationNamespace : String :=
  "http://schemas.openxmlformats.org/officeDocument/2006/relationships"

def relationElement (id : String) : Tree := l.element "rel" [("r:id", id)] []

def relationTree (t : PictureTables) : Tree :=
  l.element "richValueRels" [("xmlns", richNamespace), ("xmlns:r", relationNamespace)]
    (t.ids.map l.relationElement)

def relationshipAttributes (r : String × String) : List (String × String) :=
  [("Id", r.1), ("Type", relationNamespace ++ "/image"), ("Target", r.2)]

def relationshipElement (r : String × String) : Tree :=
  l.element "Relationship" (relationshipAttributes r) []

def relationshipTree (t : PictureTables) : Tree :=
  l.element "Relationships"
    [("xmlns", "http://schemas.openxmlformats.org/package/2006/relationships")]
    (t.relationships.map l.relationshipElement)

end TableLayout

/-- The package holds the tables in their parts, written in this way. -/
structure PictureTables.HeldBy (t : PictureTables) (l : TableLayout) (p : Package) : Prop where
  metadata : p.part metadataPart = some (.ok (Xml.documentText (l.metadataTree t)).toUTF8)
  values : p.part richValuePart = some (.ok (Xml.documentText (l.valueTree t)).toUTF8)
  structures : p.part structurePart = some (.ok (Xml.documentText (l.structureTree t)).toUTF8)
  ids : p.part relationPart = some (.ok (Xml.documentText (l.relationTree t)).toUTF8)
  relationships : p.part (relationshipsPart relationPart) =
    some (.ok (Xml.documentText (l.relationshipTree t)).toUTF8)

/-! ## Legibility -/

theorem soundAttributes_escaped {attributes : List (String × String)}
    (hk : Xml.areKeys (attributes.map Prod.fst) = true) :
    Xml.SoundAttributes (escaped attributes) := by
  refine ⟨?_, ?_⟩
  · rw [escaped, List.map_map]
    exact hk
  · intro a ha
    obtain ⟨b, -, rfl⟩ := List.mem_map.mp ha
    exact Xml.written_escape b.2

namespace TableLayout

variable (l : TableLayout)

theorem legible_element {name : String} {attributes : List (String × String)} {children : List Tree}
    (hc : ∀ t ∈ children, t.Legible) (hn : Xml.isName name = true := by decide)
    (hk : Xml.areKeys (attributes.map Prod.fst) = true := by
      simp only [List.map_cons, List.map_nil]; decide) :
    (l.element name attributes children).Legible := by
  unfold element
  split_ifs
  · exact .data hn (soundAttributes_escaped hk) .nil
  · exact .element hn (soundAttributes_escaped hk) hc

theorem legible_map {α : Type} {f : α → Tree} (h : ∀ a, (f a).Legible) (xs : List α) :
    ∀ t ∈ xs.map f, t.Legible :=
  List.forall_mem_map.mpr fun a _ => h a

theorem legible_futureBlock {children : List Tree} (hc : ∀ t ∈ children, t.Legible) :
    (l.futureBlock children).Legible := by
  refine l.legible_element ?_
  rw [List.forall_mem_singleton]
  refine l.legible_element ?_
  rw [List.forall_mem_singleton]
  exact l.legible_element hc

theorem legible_records {name : String} (hn : Xml.isName name = true) (rs : List (Nat × Nat)) :
    (l.records name rs).Legible := by
  have hkeys : Xml.areKeys ["t", "v"] = true := by decide
  refine l.legible_element (legible_map (fun record => ?_) rs) hn
  refine l.legible_element ?_
  rw [List.forall_mem_singleton]
  exact l.legible_element (by simp) (by decide) hkeys

theorem legible_otherMetadata (s : String × Nat) : (l.otherMetadata s).Legible := by
  refine l.legible_element fun t ht => ?_
  rw [List.eq_of_mem_replicate ht]
  exact l.legible_futureBlock (by simp)

theorem legible_middle (t : PictureTables) : ∀ tree ∈ l.middle t, tree.Legible := by
  have hrich : (l.futureMetadata richName (t.rich.map l.richBlock)).Legible := by
    refine l.legible_element (legible_map (fun value => ?_) t.rich)
    apply l.legible_futureBlock
    rw [List.forall_mem_singleton]
    exact l.legible_element (by simp)
  have hcells : ∀ tree ∈ (l.cells.map (l.records "cellMetadata")).toList, tree.Legible := by
    intro tree htree
    obtain ⟨records, -, rfl⟩ := Option.map_eq_some_iff.mp (Option.mem_toList.mp htree)
    exact l.legible_records (by decide) records
  rw [middle, List.forall_mem_append, List.forall_mem_append, List.forall_mem_cons]
  exact ⟨⟨legible_map l.legible_otherMetadata l.before, hrich,
    legible_map l.legible_otherMetadata l.after⟩, hcells⟩

theorem legible_metadataTree (t : PictureTables) : (l.metadataTree t).Legible := by
  refine l.legible_element ?_
  rw [List.forall_mem_cons, List.forall_mem_append, List.forall_mem_singleton]
  refine ⟨?_, l.legible_middle t, l.legible_records (by decide) t.records⟩
  refine l.legible_element (legible_map (fun name => ?_) t.types)
  exact l.legible_element (by simp)

/-- **All written parts can be read back.** -/
theorem legible_tables (t : PictureTables) : (l.metadataTree t).Legible ∧
    (l.valueTree t).Legible ∧ (l.structureTree t).Legible ∧ (l.relationTree t).Legible ∧
      (l.relationshipTree t).Legible := by
  refine ⟨l.legible_metadataTree t, ?_, ?_, ?_, ?_⟩
  · refine l.legible_element (legible_map (fun v => ?_) t.values)
    refine l.legible_element (legible_map (fun text => ?_) v.2)
    exact (l.spelling text).legible (by decide)
  · refine l.legible_element (legible_map (fun keys => ?_) t.structures)
    refine l.legible_element (legible_map (fun key => ?_) keys)
    exact l.legible_element (by simp)
  · refine l.legible_element (legible_map (fun id => ?_) t.ids)
    exact l.legible_element (by simp)
  · have hkeys : Xml.areKeys ["Id", "Type", "Target"] = true := by decide
    refine l.legible_element (legible_map (fun r => ?_) t.relationships)
    exact l.legible_element (by simp) (by decide) hkeys

end TableLayout

end SheetMarkup.Workbook
