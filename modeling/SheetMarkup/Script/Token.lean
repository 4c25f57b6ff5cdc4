import SheetMarkup.Sheet.Row
import SheetMarkup.Text.Lowercase
import SheetMarkup.Text.Quoted

/-!
# Tokens

A sheet is read as a stream of tokens. A command row gives its command and one argument for every
further cell with content; any other row gives exactly one line of text or one image.

* `Row.tokens`: the tokens of a row.
* `tokensOf`: the tokens of a sheet.
-/

namespace SheetMarkup

/-- Where a token, or anything made from it, stands in the sheet. -/
structure Origin where
  cell : Address
  span : Option Span
  deriving DecidableEq

/-- What a token is. -/
inductive TokenKind where
  | command
  | argument
  | text
  | image
  deriving DecidableEq

/-- The unit of the stream. -/
structure Token where
  kind : TokenKind
  value : String
  origin : Option Origin := none
  deriving DecidableEq

/-- The word for a kind of token. -/
def TokenKind.name : TokenKind → String
  | command => "Command"
  | argument => "Argument"
  | text => "Text"
  | image => "Image"

namespace Token

/-- A blank line is a text token without text. -/
def isBlank (t : Token) : Bool := t.kind == .text && t.value.isEmpty

/-- The token as one visible line: kind, quoted value, and address if there is one. -/
def display (t : Token) : String :=
  t.kind.name ++ "(" ++ Text.quoted t.value ++ ")" ++
    match t.origin with
    | some o => " @ " ++ o.cell.text
    | none => ""

end Token

namespace Row

/-- Where a cell of the row stands. -/
def origin (r : Row) (column : Nat) (c : Cell) : Origin := ⟨r.address column, c.span⟩

/-- The arguments among cells that start at a column. -/
def argumentTokens (r : Row) : Nat → List Cell → List Token
  | _, [] => []
  | column, c :: cs =>
    if c.hasContent then
      ⟨.argument, Text.trim c.value, some (r.origin column c)⟩ :: argumentTokens r (column + 1) cs
    else argumentTokens r (column + 1) cs

/-- The first cell with content, with its column. -/
def firstContent? : Nat → List Cell → Option (Nat × Cell)
  | _, [] => none
  | column, c :: cs => if c.hasContent then some (column, c) else firstContent? (column + 1) cs

/-- The one token of a row that opens no block: its first content, or a blank line. -/
def bodyToken (r : Row) : Token :=
  match firstContent? 0 r.cells with
  | some (column, c) =>
    let kind := if c.classify = .image then TokenKind.image else .text
    ⟨kind, c.value, some (r.origin column c)⟩
  | none => ⟨.text, "", some ⟨r.address 0, r.cells.head?.bind Cell.span⟩⟩

/-- The tokens of a row. -/
def tokens (r : Row) : List Token :=
  match r.cells with
  | [] => [r.bodyToken]
  | c :: cs =>
    if c.hasContent then
      ⟨.command, Text.lowercase (Text.trim c.value), some (r.origin 0 c)⟩ :: r.argumentTokens 1 cs
    else [r.bodyToken]

end Row

/-- The tokens of all rows in order. -/
def tokensOf (rows : List Row) : List Token := rows.flatMap Row.tokens

end SheetMarkup
