import SheetMarkup.Sheet.Row
import SheetMarkup.Workbook.Pictures

/-!
# Worksheets

The rows and cells of a worksheet. Rows that the markup leaves out are empty, so that the index of
a row is its place in the sheet; a cell without an address follows the one before it.

* `PendingCell.build`: the cell of an element, by its type.
* `SheetReader.step`: what one event does.
* `worksheetRows`: the rows of a worksheet.
-/

namespace SheetMarkup.Workbook

/-- A cell that is being read. -/
structure PendingCell where
  row : Nat
  column : Nat
  type : Option String
  metadata : Option Nat
  value : String := ""
  inline : String := ""

/-- A row that is being read: its index and its cells with their columns, the last one first. -/
structure PendingRow where
  index : Nat
  cells : List (Nat × Cell) := []

/-- The rows read so far, in reverse, and where the reader stands. -/
structure SheetReader where
  rows : List Row := []
  row : Option PendingRow := none
  cell : Option PendingCell := none
  inValue : Bool := false
  inInline : Bool := false
  inText : Bool := false
  inPhonetic : Bool := false

/-- A text as a cell. -/
def textCell (s : String) : Cell := if Text.isBlankText s then Cell.empty else Cell.ofText s

/-- The cell of an element, by its type. -/
def PendingCell.build (strings : List String) (pictures : PictureIndex) (c : PendingCell) :
    Except Refusal Cell :=
  let address := Address.text ⟨c.row, c.column⟩
  match c.type with
  | some "s" =>
    match (index? c.value).bind (strings[·]?) with
    | some s => .ok (textCell s)
    | none => .error (.sharedString address c.value)
  | some "inlineStr" => .ok (textCell c.inline)
  | some "str" => .ok (textCell c.value)
  | some "b" => .ok (Cell.ofText (if Text.trim c.value == "1" then "TRUE" else "FALSE"))
  | some "e" =>
    match c.metadata with
    | none => .ok (textCell c.value)
    | some number =>
      match pictures.resolve? number with
      | some part => .ok (Cell.image part)
      | none => .error (.unresolvedImage address)
  | _ => .ok (if Text.isBlankText c.value then Cell.empty else Cell.numeric c.value)

/-- The column after the last one of a row. -/
def PendingRow.nextColumn (r : PendingRow) : Nat :=
  r.cells.foldl (fun n c => max n (c.1 + 1)) 0

/-- Opens a row. Its number counts from one; without one it is the next row. -/
def SheetReader.startRow (r : SheetReader) (tag : Xml.Tag) : PendingRow :=
  match (tag.attribute? "r").bind index? with
  | some (n + 1) => ⟨n, []⟩
  | _ => ⟨r.rows.length, []⟩

/-- Opens a cell of a row. One without an address stands in the next column, of which the number has to
fit 64 bits, counted from one as well. -/
def PendingRow.startCell (r : PendingRow) (tag : Xml.Tag) : Except Refusal PendingCell := do
  let address ← match tag.attribute? "r" with
    | none =>
      if r.nextColumn + 1 < Text.bound64 then .ok ⟨r.index, r.nextColumn⟩ else .error .tooWide
    | some text => (Address.parse text).mapError fun _ => .invalidAddress text
  .ok {
    row := address.row
    column := address.column
    type := tag.attribute? "t"
    metadata := (tag.attribute? "vm").bind index? }

/-- Closes the open row. Rows before it that are missing become empty rows. -/
def SheetReader.finishRow (r : SheetReader) : Except Refusal SheetReader :=
  match r.row with
  | none => .ok r
  | some row =>
    let missing := (List.range (row.index - r.rows.length)).map fun i =>
      Row.mk (r.rows.length + i) []
    let rows := missing.reverse ++ r.rows
    match Row.ofSparse? Row.maxLength rows.length row.cells.reverse with
    | some last => .ok { r with rows := last :: rows, row := none }
    | none => .error .tooWide

/-- Adds a cell to the open row. -/
def SheetReader.addCell (strings : List String) (pictures : PictureIndex) (r : SheetReader)
    (c : PendingCell) : Except Refusal SheetReader :=
  match r.row with
  | none => .ok r
  | some row => do
    let cell ← c.build strings pictures
    .ok { r with row := some { row with cells := (c.column, cell) :: row.cells } }

/-- Adds text to the open cell. -/
def SheetReader.addText (r : SheetReader) (s : String) : SheetReader :=
  if r.inValue then { r with cell := r.cell.map fun c => { c with value := c.value ++ s } }
  else if r.inText then { r with cell := r.cell.map fun c => { c with inline := c.inline ++ s } }
  else r

/-- Takes up one event. -/
def SheetReader.step (strings : List String) (pictures : PictureIndex) (r : SheetReader) :
    Xml.Event → Except Refusal SheetReader
  | .start tag =>
    match tag.localName with
    | "row" => do
      let r ← r.finishRow
      .ok { r with row := some (r.startRow tag) }
    | "c" =>
      match r.row with
      | none => .ok r
      | some row => (row.startCell tag).map fun c => { r with cell := some c }
    | "v" => .ok { r with inValue := r.cell.isSome }
    | "is" => .ok { r with inInline := r.cell.isSome }
    | "rPh" => .ok { r with inPhonetic := true }
    | "t" => .ok { r with inText := r.inInline && !r.inPhonetic }
    | _ => .ok r
  | .empty tag =>
    match tag.localName with
    | "row" => do
      let r ← r.finishRow
      { r with row := some (r.startRow tag) }.finishRow
    | "c" =>
      match r.row with
      | none => .ok r
      | some row => do
        let c ← row.startCell tag
        r.addCell strings pictures c
    | _ => .ok r
  | .text s => .ok (r.addText s)
  | .reference name => .ok (r.addText (String.ofList (Xml.resolve name)))
  | .close name =>
    match name with
    | "v" => .ok { r with inValue := false }
    | "is" => .ok { r with inInline := false }
    | "rPh" => .ok { r with inPhonetic := false }
    | "t" => .ok { r with inText := false }
    | "c" =>
      match r.cell with
      | none => .ok r
      | some c => { r with cell := none }.addCell strings pictures c
    | "row" => r.finishRow
    | _ => .ok r

/-- The rows of a worksheet. -/
def worksheetRows (strings : List String) (pictures : PictureIndex) (events : List Xml.Event) :
    Except Refusal (List Row) := do
  let r ← events.foldlM (SheetReader.step strings pictures) {}
  r.finishRow.map fun r => r.rows.reverse

end SheetMarkup.Workbook
