import SheetMarkup.Zip.Archive
import SheetMarkup.Sheet.Address
import SheetMarkup.Xml.Event

/-!
# Workbook packages

A workbook is a package of named parts, most of them markup. Parts refer to each other through
relationships, whose targets are given from the folder of the part that owns them.

* `Refusal`: why a workbook cannot be read.
* `Package.text?`, `Package.bytes?`: the content of a part.
* `resolveTarget`: the part that a target names.
* `Package.relationships`: the relationships of a part.
-/

namespace SheetMarkup.Workbook

/-- Why a workbook cannot be read. -/
inductive Refusal where
  /-- It is no archive, or one of its parts is stored in an unknown way. -/
  | archive
  /-- A part is damaged. -/
  | damaged
  | markup (part : String)
  | noWorksheet
  | sharedString (cell value : String)
  | unresolvedImage (cell : String)
  | invalidAddress (text : String)
  /-- The length of a row up to the last of its columns does not fit 64 bits. -/
  | tooWide
  deriving DecidableEq

/-- The wording of a refusal, as far as it is this library's own. -/
def Refusal.message : Refusal → String
  | archive => "not a readable workbook: "
  | damaged => "cannot read workbook: "
  | markup part => "malformed XML in `" ++ part ++ "`: "
  | noWorksheet => "workbook has no worksheets"
  | sharedString cell value =>
    "cell " ++ cell ++ ": `" ++ value ++ "` is not a shared string index"
  | unresolvedImage cell => "cell " ++ cell ++ ": the picture it shows is not in the workbook"
  | invalidAddress text => "`" ++ text ++ "` is not a cell reference"
  | tooWide => "capacity overflow"

/-- The parts of a workbook by their names. -/
structure Package where
  part : String → Option (Except Zip.Failure ByteArray)

/-! ## Names of parts -/

/-- A name as its folder, if it has one, and its last segment. -/
def splitName (name : List Char) : Option (List Char) × List Char :=
  let file := (name.reverse.takeWhile (· != '/')).reverse
  if name.contains '/' then (some (name.take (name.length - file.length - 1)), file)
  else (none, file)

/-- The part that holds the relationships of a part. -/
def relationshipsPart (part : String) : String :=
  let (folder, file) := splitName part.toList
  String.ofList ((folder.map (· ++ ['/'])).getD [] ++ "_rels/".toList ++ file ++ ".rels".toList)

/-- Follows one segment of a target from a folder, given with its last segment first. -/
def followSegment (folder : List (List Char)) (segment : List Char) : List (List Char) :=
  if segment == [] || segment == ['.'] then folder
  else if segment == ['.', '.'] then folder.tail
  else segment :: folder

/-- The part that a target of a part names. -/
def resolveTarget (part target : String) : String :=
  match target.toList with
  | '/' :: absolute => String.ofList absolute
  | relative =>
    let folder := match (splitName part.toList).1 with
      | some folder => folder.splitOn '/'
      | none => []
    let segments := (relative.splitOn '/').foldl followSegment folder.reverse
    String.ofList (['/'].intercalate segments.reverse)

/-! ## Reading parts -/

/-- What a reader makes of markup. Markup that is malformed is refused, unless the reader has
refused it before. -/
def readMarkup {α : Type} (part xml : String) (read : List Xml.Event → Except Refusal α) :
    Except Refusal α := do
  let reading := Xml.events xml
  let a ← read reading.events
  if reading.complete then .ok a else .error (.markup part)

namespace Package

/-- A package of the parts of an archive. -/
def ofArchive (a : Zip.Archive) : Package := ⟨fun name => (a.find? name).map a.read⟩

/-- A package of the given parts. -/
def ofParts (parts : List (String × ByteArray)) : Package :=
  ⟨fun name => (parts.find? (·.1 == name)).map fun p => .ok p.2⟩

/-- The bytes of a part, if there is one. -/
def bytes? (p : Package) (name : String) : Except Refusal (Option ByteArray) :=
  match p.part name with
  | none => .ok none
  | some (.ok data) => .ok (some data)
  | some (.error .unsupported) => .error .archive
  | some (.error .damaged) => .error .damaged

/-- The text of a part, if there is one. -/
def text? (p : Package) (name : String) : Except Refusal (Option String) := do
  match ← p.bytes? name with
  | none => .ok none
  | some data =>
    match Text.decodeUtf8? data with
    | some s => .ok (some s)
    | none => .error (.markup name)

/-- Reads a part of markup, or takes a value where there is none. -/
def readPart {α : Type} (p : Package) (name : String) (absent : α)
    (read : List Xml.Event → Except Refusal α) : Except Refusal α := do
  match ← p.text? name with
  | none => .ok absent
  | some xml => readMarkup name xml read

end Package

/-! ## Relationships -/

/-- The identifiers of relationships with the parts that they lead to, the last one first. -/
abbrev Relationships : Type := List (String × String)

/-- The tag of an event that opens an element. -/
def openedTag? : Xml.Event → Option Xml.Tag
  | .start tag => some tag
  | .empty tag => some tag
  | _ => none

/-- The relationship of an element to another part of the package. -/
def relationship? (part : String) (tag : Xml.Tag) : Option (String × String) :=
  if tag.localName != "Relationship" || tag.attribute? "TargetMode" == some "External" then none
  else do
    let id ← tag.attribute? "Id"
    let target ← tag.attribute? "Target"
    some (id, resolveTarget part target)

/-- The relationships of a part, from the markup that holds them. -/
def relationshipsOf (part : String) (events : List Xml.Event) : Relationships :=
  (events.filterMap fun e => (openedTag? e).bind (relationship? part)).reverse

/-- The part that a relationship leads to; of several with one identifier the last. -/
def Relationships.target? (r : Relationships) (id : String) : Option String :=
  (r.find? fun (x : String × String) => x.1 == id).map Prod.snd

/-- The relationships of a part. -/
def Package.relationships (p : Package) (part : String) : Except Refusal Relationships :=
  p.readPart (relationshipsPart part) [] fun events => .ok (relationshipsOf part events)

end SheetMarkup.Workbook
