import SheetMarkup.Text.Blank

/-!
# Cells

A cell has a value, the kind that its reader gave it, and perhaps the place in the source text
that it was read from.

* `Cell.classify`: what the value counts as; a blank value is empty whatever its kind.
* `Cell.hasContent`: the cell is neither blank nor a comment.
-/

namespace SheetMarkup

/-- A stretch of the source text, in bytes. -/
structure Span where
  start : Nat
  stop : Nat
  deriving DecidableEq

/-- How the reader of a sheet tagged a cell. -/
inductive CellKind where
  /-- Absent or blank. -/
  | empty
  | text
  | numeric
  /-- The value names an image. -/
  | image
  deriving DecidableEq

/-- One cell of a sheet. -/
structure Cell where
  value : String
  kind : CellKind
  span : Option Span := none
  deriving DecidableEq

/-- What a cell counts as. -/
inductive Classification where
  | empty
  | text
  | image
  deriving DecidableEq

namespace Cell

/-- A cell without a value. -/
def empty : Cell := ⟨"", .empty, none⟩

/-- A cell that holds a text. -/
def ofText (value : String) : Cell := ⟨value, .text, none⟩

/-- A cell that holds a number. -/
def numeric (value : String) : Cell := ⟨value, .numeric, none⟩

/-- A cell that names an image. -/
def image (source : String) : Cell := ⟨source, .image, none⟩

/-- The same cell at a place in the source text. -/
def withSpan (c : Cell) (span : Span) : Cell := { c with span := some span }

/-- A comment starts with two slashes, after blanks. -/
def isComment (c : Cell) : Bool := ['/', '/'].isPrefixOf (Text.trimChars c.value.toList)

/-- Numbers are text, and anything blank is empty. -/
def classify (c : Cell) : Classification :=
  if (Text.trimChars c.value.toList).isEmpty then .empty
  else match c.kind with
    | .image => .image
    | _ => .text

/-- The cell is neither blank nor a comment. -/
def hasContent (c : Cell) : Bool := c.classify != .empty && !c.isComment

end Cell

end SheetMarkup
