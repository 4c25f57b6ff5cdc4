import SheetMarkup.Sheet.Address
import SheetMarkup.Sheet.Cell

/-!
# Rows

A row has an index and its cells in column order.

* `Row.ofSparse?`: a row from cells that are given with their columns, if there is room for it.
* `Row.isCommand`: the row opens a block.
-/

namespace SheetMarkup

/-- One row of a sheet. -/
structure Row where
  /-- Counted from zero. -/
  index : Nat
  cells : List Cell
  deriving DecidableEq

namespace Row

/-- The greatest length of a row, as lengths have 64 bits. -/
def maxLength : Nat := Text.bound64 - 1

/-- Makes a row long enough for a column, with empty cells. The new length has to fit 64 bits, and
there has to be room for so many cells. -/
def grow? (room : Nat) (cells : List Cell) (column : Nat) : Option (List Cell) :=
  if column < cells.length then some cells
  else if column + 1 < Text.bound64 ∧ column + 1 ≤ room then
    some (cells ++ List.replicate (column + 1 - cells.length) Cell.empty)
  else none

/-- Puts a cell into a column, which has to be in range then. -/
def place? (room : Nat) (cells : List Cell) (column : Nat) (cell : Cell) : Option (List Cell) := do
  let grown ← grow? room cells column
  if column < grown.length then some (grown.set column cell) else none

/-- A row from cells with their columns. Of two cells for one column the later one stays. -/
def ofSparse? (room index : Nat) (cells : List (Nat × Cell)) : Option Row :=
  (cells.foldlM (fun row c => place? room row c.1 c.2) []).map (Row.mk index)

/-- A row of text cells, an empty text giving an empty cell. -/
def ofStrings (index : Nat) (values : List String) : Row :=
  ⟨index, values.map fun v => if v.isEmpty then Cell.empty else Cell.ofText v⟩

/-- A command row has content in its first cell. -/
def isCommand (r : Row) : Bool :=
  match r.cells with
  | [] => false
  | c :: _ => c.hasContent

/-- The address of a column of the row. -/
def address (r : Row) (column : Nat) : Address := ⟨r.index, column⟩

end Row

end SheetMarkup
