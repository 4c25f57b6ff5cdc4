import Mathlib.Data.List.DropRight
import SheetMarkup.Proofs.Script.Cells

/-!
# Command rows and the rows under them

A sheet is a sequence of groups: a command row, and the rows up to the next command row. What a
sheet is read as is said here group by group and cell by cell, without tokens and without a state.

* `Placed`, `cellsOf`: the cells of a sheet in row-major order, each with its place;
* `Placed.fault?`: what is wrong with a cell where it stands;
* `Group`, `groupsOf`, `Group.kept`: the groups of a sheet, and the rows of a group that count;
* `Row.entry`, `Row.arguments`, `Group.block`: what rows and groups are read as.
-/

namespace SheetMarkup

/-! ## Cells in their places -/

/-- A cell in its place: the index and the first cell of its row, and its column. -/
structure Placed where
  row : Nat
  head : Cell
  column : Nat
  cell : Cell
  deriving DecidableEq

namespace Placed

/-- The address and the span of the cell. -/
def origin (p : Placed) : Origin := ⟨⟨p.row, p.column⟩, p.cell.span⟩

/-- What is wrong with a cell. Only cells with content in command rows can be wrong: the first one
by its word, and the others by a missing equals sign or by their key. -/
def fault? (p : Placed) : Option Fault :=
  if p.head.hasContent && p.cell.hasContent then
    match p.column, Command.ofWord? p.head.word with
    | 0, none => some (.unknownCommand p.cell.word)
    | _ + 1, some command =>
      if '=' ∈ p.cell.value.toList then
        if command.accepts p.cell.key then none else some (.unknownArgument command p.cell.key)
      else some (.malformedArgument (Text.trim p.cell.value))
    | _, _ => none
  else none

/-- The fault of a cell, at the cell. -/
def error? (p : Placed) : Option Error := p.fault?.map fun fault => ⟨fault, some p.origin⟩

end Placed

namespace Row

/-- The place of a cell with its column, in a row with this first cell. -/
def placeOf (r : Row) (head : Cell) (x : Cell × Nat) : Placed := ⟨r.index, head, x.2, x.1⟩

/-- The cells of a row in their places. -/
def placed (r : Row) : List Placed :=
  match r.cells with
  | [] => []
  | head :: cells => (head :: cells).zipIdx.map (r.placeOf head)

end Row

/-- The cells of a sheet in row-major order. -/
def cellsOf (rows : List Row) : List Placed := rows.flatMap Row.placed

/-! ## Rows -/

namespace Row

/-- Some cell of the row has content. -/
def hasContent (r : Row) : Bool := r.cells.any Cell.hasContent

/-- The command that the first cell names. -/
def command? (r : Row) : Option Command := r.cells.head?.bind fun c => Command.ofWord? c.word

/-- Where the first cell stands. -/
def commandOrigin? (r : Row) : Option Origin := r.cells.head?.map (r.origin 0)

/-- The cells with content after the first one, with their columns. -/
def argumentCells (r : Row) : List (Cell × Nat) :=
  r.cells.zipIdx.tail.filter fun x => x.1.hasContent

/-- The argument of a cell. -/
def argument (r : Row) (x : Cell × Nat) : Argument :=
  ⟨x.1.key, x.1.setting, some (r.origin x.2 x.1)⟩

/-- The arguments of a command row in column order. -/
def arguments (r : Row) : List Argument := r.argumentCells.map r.argument

/-- The line of a row: its first content, or an empty text. -/
def entry (r : Row) : BodyEntry :=
  match r.cells.find? Cell.hasContent with
  | none => .text ""
  | some c => if c.kind = .image then .image c.value else .text c.value

end Row

/-! ## Groups -/

/-- A command row and the rows under it. -/
structure Group where
  head : Row
  body : List Row
  deriving DecidableEq

/-- The groups of a sheet. Rows before the first command row belong to none. -/
def groupsOf : List Row → List Group
  | [] => []
  | r :: rows =>
    if r.isCommand then ⟨r, rows.takeWhile fun s => !s.isCommand⟩ :: groupsOf rows
    else groupsOf rows

namespace Group

/-- The rows of a group that count: a single row as it is, of several those from the first to the
last one with content. -/
def kept (g : Group) : List Row :=
  if g.body.length ≤ 1 then g.body
  else (g.body.dropWhile fun r => !r.hasContent).rdropWhile fun r => !r.hasContent

/-- The block of a group whose body is not trimmed yet. Where the word of the command row is
unknown, and the sheet therefore refused, it stands for a paragraph. -/
def opened (g : Group) : Block where
  command := g.head.command?.getD .paragraph
  arguments := g.head.arguments
  body := g.body.map Row.entry
  origin := g.head.commandOrigin?

/-- The block of a group. -/
def block (g : Group) : Block := { g.opened with body := g.kept.map Row.entry }

end Group

/-! ## Rows and groups as lists of cells -/

theorem Row.placed_of_cells {r : Row} {head : Cell} {cells : List Cell}
    (h : r.cells = head :: cells) :
    r.placed = r.placeOf head (head, 0) :: (cells.zipIdx 1).map (r.placeOf head) := by
  rw [placed, h]
  rfl

theorem Row.isCommand_of_cells {r : Row} {head : Cell} {cells : List Cell}
    (h : r.cells = head :: cells) : r.isCommand = head.hasContent := by
  rw [isCommand, h]

theorem Row.error?_eq_none_of_body {r : Row} (h : r.isCommand = false) :
    ∀ p ∈ r.placed, p.error? = none := by
  intro p hp
  unfold placed at hp
  cases hc : r.cells with
  | nil => rw [hc] at hp; cases hp
  | cons head cells =>
    rw [hc] at hp
    obtain ⟨x, -, rfl⟩ := List.mem_map.mp hp
    rw [isCommand_of_cells hc] at h
    simp [Placed.error?, Placed.fault?, placeOf, h]

theorem Row.isBlank_entry (r : Row) : r.entry.isBlank = !r.hasContent := by
  unfold entry hasContent
  cases hf : r.cells.find? Cell.hasContent with
  | none =>
    have hn : r.cells.any Cell.hasContent = false :=
      List.any_eq_false.mpr (List.find?_eq_none.mp hf)
    rw [hn]
    rfl
  | some c =>
    have hc : c.hasContent = true := List.find?_some hf
    have hany : r.cells.any Cell.hasContent = true :=
      List.any_eq_true.mpr ⟨c, List.mem_of_find?_eq_some hf, hc⟩
    have hv : c.value.isEmpty = false := by
      rw [Bool.eq_false_iff]
      exact fun he => Cell.value_ne_empty hc (String.isEmpty_iff.mp he)
    simp only
    split_ifs
    · simp [BodyEntry.isBlank, hany]
    · simp [BodyEntry.isBlank, hany, hv]

theorem Group.trimmed_opened (g : Group) : g.opened.trimmed = g.block := by
  have h : trimBody (g.body.map Row.entry) = g.kept.map Row.entry := by
    unfold trimBody kept
    rw [List.length_map]
    split_ifs
    · rfl
    · rw [Text.trimWhile_map]
      simp only [Row.isBlank_entry]
      rfl
  rw [Block.trimmed, block]
  change { g.opened with body := trimBody (g.body.map Row.entry) } = _
  rw [h]

end SheetMarkup
