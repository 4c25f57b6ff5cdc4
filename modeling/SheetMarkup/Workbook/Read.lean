import SheetMarkup.Workbook.SharedStrings
import SheetMarkup.Workbook.Worksheet

/-!
# Reading a workbook

The first worksheet of a workbook, with the pictures that its cells show.

* `firstWorksheet`: the part of the first worksheet.
* `Package.read`: the rows and pictures of a workbook.
* `read`: the same from the bytes of a file.
-/

namespace SheetMarkup.Workbook

/-- The rows of a worksheet, and the pictures that its cells show by the names of their parts. -/
structure Content where
  rows : List Row
  images : List (String × ByteArray)

/-- The part that lists the worksheets. -/
def workbookPart : String := "xl/workbook.xml"

/-- The part of the shared strings. -/
def sharedStringsPart : String := "xl/sharedStrings.xml"

/-- The worksheet of a workbook that tells none. -/
def fallbackSheet : String := "xl/worksheets/sheet1.xml"

/-- The first worksheet that is listed. -/
def firstSheet? (events : List Xml.Event) : Option Xml.Tag :=
  (events.filterMap openedTag?).find? (·.localName == "sheet")

/-- The part of the first worksheet. -/
def firstWorksheet (p : Package) : Except Refusal String := do
  match ← p.text? workbookPart with
  | none => .ok fallbackSheet
  | some xml =>
    let reading := Xml.events xml
    match firstSheet? reading.events with
    | none => .error (if reading.complete then .noWorksheet else .markup workbookPart)
    | some tag =>
      let relationships ← p.relationships workbookPart
      .ok (((tag.attribute? "id").bind relationships.target?).getD fallbackSheet)

/-- The parts of the pictures that some rows show, each at its first place only. -/
def pictureParts (rows : List Row) : List String :=
  let shown := (rows.flatMap Row.cells).filterMap fun c =>
    if c.kind = .image then some c.value else none
  (shown.foldl (fun seen s => if seen.contains s then seen else s :: seen) []).reverse

/-- The pictures with these parts; a part that is missing has none. -/
def pictures (p : Package) : List String → Except Refusal (List (String × ByteArray))
  | [] => .ok []
  | part :: parts => do
    let data? ← p.bytes? part
    let rest ← pictures p parts
    .ok ((data?.map (part, ·)).toList ++ rest)

/-- The rows and pictures of a workbook. -/
def Package.read (p : Package) : Except Refusal Content := do
  let sheetPart ← firstWorksheet p
  let strings ← p.readPart sharedStringsPart [] fun events => .ok (stringsOf events)
  let index ← p.pictureIndex
  match ← p.text? sheetPart with
  | none => .error .noWorksheet
  | some xml =>
    let rows ← readMarkup sheetPart xml (worksheetRows strings index)
    .ok ⟨rows, ← pictures p (pictureParts rows)⟩

/-- The rows and pictures of a workbook, from the bytes of its file. -/
def read (data : ByteArray) : Except Refusal Content :=
  match Zip.Archive.ofBytes? data with
  | none => .error .archive
  | some a => (Package.ofArchive a).read

end SheetMarkup.Workbook
