import SheetMarkup.Sheet.Row
import SheetMarkup.Toml.Parse
import SheetMarkup.Toml.Print

/-!
# Sheets in a configuration text

The rows of a sheet are the items of the array `rows`. A row is an array of cells or a table keyed
by column letters, and a cell is a string, a number, a truth value or an image. Every cell has the
place of its row. How many cells a row has room for is not known here, so it is a parameter.

* `cellOf`: a value as a cell.
* `rowOf`: a value as a row.
* `rowsWithin`: the rows of a text, with room for some number of cells in each.
* `rowsOf`: the same, with room for all that 64 bits can count.
-/

namespace SheetMarkup.TomlSheet

/-- Why a text is no sheet. Rows are counted from one. -/
inductive Refusal where
  /-- The text is malformed, or `rows` is no array. -/
  | malformed
  | invalidColumn (row : Nat) (column : String)
  | invalidCell (row : Nat) (value : String)
  | invalidRow (row : Nat)
  /-- There is no room for a row up to the last of its columns. -/
  | tooWide
  deriving DecidableEq

/-- The wording of a refusal. It does not tell what is malformed. -/
def Refusal.message : Refusal → String
  | malformed => "invalid TOML sheet: "
  | invalidColumn row column =>
    "row " ++ Text.decimal row ++ ": `" ++ column ++ "` is not a column name"
  | invalidCell row value =>
    "row " ++ Text.decimal row ++ ": unsupported cell value " ++ value
  | invalidRow row =>
    "row " ++ Text.decimal row ++ ": expected an array of cells or a table keyed by column"
  | tooWide => "capacity overflow"

/-- A value as a cell. -/
def cellOf (row : Nat) : Toml.Value → Except Refusal Cell
  | .string s => .ok (if Text.isBlankText s then Cell.empty else Cell.ofText s)
  | .integer n => .ok (Cell.numeric (Toml.integerText n))
  | .float x => .ok (Cell.numeric x.cellText)
  | .boolean b => .ok (Cell.ofText (if b then "true" else "false"))
  | .table [("image", .string source)] => .ok (Cell.image source)
  | v => .error (.invalidCell row v.inline)

/-- The cells of a row with their columns, in the order of the keys. -/
def sparseCells (row : Nat) (span : Span) :
    List (String × Toml.Value) → Except Refusal (List (Nat × Cell))
  | [] => .ok []
  | (key, v) :: entries => do
    let some column := columnIndex? key | .error (.invalidColumn row key)
    let cell ← cellOf row v
    let cells ← sparseCells row span entries
    .ok ((column, cell.withSpan span) :: cells)

/-- A value as the row with an index. -/
def rowOf (room index : Nat) (item : Span × Toml.Value) : Except Refusal Row :=
  match item.2 with
  | .array values => do
    let cells ← values.mapM fun v => (cellOf (index + 1) v.2).map (·.withSpan item.1)
    .ok ⟨index, cells⟩
  | .table entries => do
    let cells ← sparseCells (index + 1) item.1 entries
    (Row.ofSparse? room index cells).elim (.error .tooWide) .ok
  | _ => .error (.invalidRow (index + 1))

/-- The items of the array `rows`, of which there are none where it is missing. -/
def items? (source : String) : Option (List (Span × Toml.Value)) := do
  let entries ← Toml.parse? source
  match Toml.lookup? entries "rows" with
  | none => some []
  | some e =>
    match ← e.value? with
    | .array items => some items
    | _ => none

/-- The rows of a text, with room for some number of cells in each. -/
def rowsWithin (room : Nat) (source : String) : Except Refusal (List Row) :=
  match items? source with
  | none => .error .malformed
  | some items => items.zipIdx.mapM fun item => rowOf room item.2 item.1

/-- The rows of a text. -/
def rowsOf (source : String) : Except Refusal (List Row) := rowsWithin Row.maxLength source

end SheetMarkup.TomlSheet
