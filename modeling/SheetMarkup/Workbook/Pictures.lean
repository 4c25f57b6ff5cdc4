import SheetMarkup.Workbook.Package

/-!
# Pictures in cells

A cell that shows a picture refers to it by the number of its value metadata. From there the way
leads to a rich value, through the structure of that value to the position of its image, and
through the relations of rich values to a part of the package.

* `richValuesOf`, `imageKeysOf`, `relationIdsOf`, `metadataOf`: the four tables on the way.
* `PictureIndex`: the part of every value metadata.
* `Package.pictureIndex`: the index of a workbook.
-/

namespace SheetMarkup.Workbook

/-- A whole number of 64 bits, with blanks around it. -/
def index? (s : String) : Option Nat := Text.parseNat? Text.bound64 (Text.trim s)

/-! ## Rich values -/

/-- A rich value: the position of its structure, and its values as texts. -/
structure RichValue where
  structureIndex : Option Nat
  values : List String
  deriving DecidableEq

/-- The rich values read so far, in reverse, and where the reader stands. -/
structure RichValueReader where
  done : List RichValue := []
  current : Option RichValue := none
  text : Option String := none

/-- Adds a value to the rich value that is read. -/
def RichValueReader.addValue (r : RichValueReader) (s : String) : RichValueReader :=
  { r with current := r.current.map fun v => { v with values := v.values ++ [s] } }

/-- Takes up one event. -/
def RichValueReader.step (r : RichValueReader) : Xml.Event → RichValueReader
  | .start tag =>
    match tag.localName with
    | "rv" => { r with current := some ⟨(tag.attribute? "s").bind index?, []⟩ }
    | "v" => { r with text := some "" }
    | _ => r
  | .empty tag => if tag.localName == "v" then r.addValue "" else r
  | .text s => { r with text := r.text.map (· ++ s) }
  | .reference name => { r with text := r.text.map (· ++ String.ofList (Xml.resolve name)) }
  | .close name =>
    match name with
    | "v" =>
      match r.text with
      | some s => { r.addValue s with text := none }
      | none => r
    | "rv" => { r with done := r.current.toList ++ r.done, current := none }
    | _ => r

/-- The rich values of some markup. -/
def richValuesOf (events : List Xml.Event) : List RichValue :=
  (events.foldl RichValueReader.step {}).done.reverse

/-! ## Structures -/

/-- The key under which a structure keeps its image. -/
def imageKey : String := "_rvRel:LocalImageIdentifier"

/-- The image positions read so far, in reverse, and the keys of the open structure. -/
structure ImageKeyReader where
  positions : List (Option Nat) := []
  keys : List String := []

/-- Takes up one event. -/
def ImageKeyReader.step (r : ImageKeyReader) : Xml.Event → ImageKeyReader
  | .start tag =>
    match tag.localName with
    | "s" => { r with keys := [] }
    | "k" => { r with keys := r.keys ++ [(tag.attribute? "n").getD ""] }
    | _ => r
  | .empty tag =>
    match tag.localName with
    | "k" => { r with keys := r.keys ++ [(tag.attribute? "n").getD ""] }
    | "s" => { r with positions := none :: r.positions }
    | _ => r
  | .close "s" => { r with positions := r.keys.findIdx? (· == imageKey) :: r.positions }
  | _ => r

/-- For every structure, the position of its image among its keys. -/
def imageKeysOf (events : List Xml.Event) : List (Option Nat) :=
  (events.foldl ImageKeyReader.step {}).positions.reverse

/-! ## Relations -/

/-- The relationship identifiers of rich values. -/
def relationIdsOf (events : List Xml.Event) : List String :=
  (events.filterMap openedTag?).filterMap fun tag =>
    if tag.localName == "rel" then some ((tag.attribute? "id").getD "") else none

/-! ## Metadata -/

/-- The name of the metadata of rich values. -/
def richName : String := "XLRICHVALUE"

/-- The metadata read so far; blocks are in reverse. -/
structure MetadataReader where
  types : List String := []
  richBlocks : List (Option Nat) := []
  valueBlocks : List (Option (Nat × Nat)) := []
  inRich : Bool := false
  inValues : Bool := false

/-- Opens a block of the kind that is read. -/
def MetadataReader.openBlock (r : MetadataReader) : MetadataReader :=
  if r.inRich then { r with richBlocks := none :: r.richBlocks }
  else if r.inValues then { r with valueBlocks := none :: r.valueBlocks }
  else r

/-- Sets the rich value of the open block. -/
def MetadataReader.setRich (r : MetadataReader) (tag : Xml.Tag) : MetadataReader :=
  match r.inRich, r.richBlocks with
  | true, _ :: blocks => { r with richBlocks := (tag.attribute? "i").bind index? :: blocks }
  | _, _ => r

/-- The type and the position that a record of value metadata gives. -/
def record? (tag : Xml.Tag) : Option (Nat × Nat) := do
  let t ← (tag.attribute? "t").bind index?
  let v ← (tag.attribute? "v").bind index?
  some (t, v)

/-- Sets the record of the open block, if it has none. -/
def MetadataReader.setRecord (r : MetadataReader) (tag : Xml.Tag) : MetadataReader :=
  match r.inValues, r.valueBlocks with
  | true, none :: blocks => { r with valueBlocks := record? tag :: blocks }
  | _, _ => r

/-- Takes up an element. -/
def MetadataReader.element (r : MetadataReader) (tag : Xml.Tag) : MetadataReader :=
  match tag.localName with
  | "metadataType" => { r with types := r.types ++ [(tag.attribute? "name").getD ""] }
  | "futureMetadata" => { r with inRich := tag.attribute? "name" == some richName }
  | "bk" => r.openBlock
  | "rvb" => r.setRich tag
  | "valueMetadata" => { r with inValues := true }
  | "rc" => r.setRecord tag
  | _ => r

/-- Takes up one event. -/
def MetadataReader.step (r : MetadataReader) : Xml.Event → MetadataReader
  | .start tag => r.element tag
  | .empty tag => r.element tag
  | .close "futureMetadata" => { r with inRich := false }
  | .close "valueMetadata" => { r with inValues := false }
  | _ => r

/-- The rich value of a record. Types are counted from one; where the type of rich values is not
declared, any type will do. -/
def MetadataReader.richValue? (r : MetadataReader) (record : Option (Nat × Nat)) : Option Nat := do
  let (type, position) ← record
  match r.types.findIdx? (· == richName) with
  | some i => if i + 1 = type then (r.richBlocks.reverse[position]?).join else none
  | none => (r.richBlocks.reverse[position]?).join

/-- The rich value of every value metadata. -/
def metadataOf (events : List Xml.Event) : List (Option Nat) :=
  let r := events.foldl MetadataReader.step {}
  r.valueBlocks.reverse.map r.richValue?

/-! ## The index -/

/-- The part of every value metadata, where it leads to one. -/
structure PictureIndex where
  targets : List (Option String) := []

/-- The part of a value metadata, counted from one. -/
def PictureIndex.resolve? (x : PictureIndex) (number : Nat) : Option String :=
  match number with
  | 0 => none
  | n + 1 => (x.targets[n]?).join

/-- The part that a rich value leads to. A structure that tells no position stands for the first
one. -/
def pictureTarget? (values : List RichValue) (keys : List (Option Nat)) (ids : List String)
    (relationships : Relationships) (rich : Option Nat) : Option String := do
  let value ← values[← rich]?
  let position := (value.structureIndex.bind fun s => (keys[s]?).join).getD 0
  let relation ← index? (← value.values[position]?)
  relationships.target? (← ids[relation]?)

/-- The rich values of a workbook. -/
def richValuePart : String := "xl/richData/rdrichvalue.xml"

/-- The structures of rich values. -/
def structurePart : String := "xl/richData/rdrichvaluestructure.xml"

/-- The relations of rich values. -/
def relationPart : String := "xl/richData/richValueRel.xml"

/-- The metadata of values. -/
def metadataPart : String := "xl/metadata.xml"

/-- The index of a workbook. Without a metadata part the value metadata are the rich values in
their order. -/
def Package.pictureIndex (p : Package) : Except Refusal PictureIndex := do
  let values? ← p.readPart richValuePart none fun events => .ok (some (richValuesOf events))
  match values? with
  | none => .ok {}
  | some values =>
    let keys ← p.readPart structurePart [] fun events => .ok (imageKeysOf events)
    let ids ← p.readPart relationPart [] fun events => .ok (relationIdsOf events)
    let relationships ← p.relationships relationPart
    let rich ← p.readPart metadataPart ((List.range values.length).map some)
      fun events => .ok (metadataOf events)
    .ok ⟨rich.map (pictureTarget? values keys ids relationships)⟩

end SheetMarkup.Workbook
