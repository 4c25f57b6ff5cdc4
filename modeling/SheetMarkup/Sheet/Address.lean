import SheetMarkup.Text.Blank
import SheetMarkup.Text.Number

/-!
# Cell addresses

A cell is addressed by row and column, both counted from zero, and written in A1 notation: the
letters of the column, then the row counted from one.

* `columnName`, `columnIndex?`: columns and their letters.
* `Address.text`, `Address.parse`: addresses and their A1 notation.
-/

namespace SheetMarkup

/-- The place of a cell, counted from zero. -/
structure Address where
  row : Nat
  column : Nat
  deriving DecidableEq

/-- A text that is not an address in A1 notation. -/
structure InvalidAddress where
  text : String
  deriving DecidableEq

/-- The wording of a refused address. -/
def InvalidAddress.message (e : InvalidAddress) : String := "invalid cell reference: " ++ e.text

/-- The letters of the number `n`, counted from one, in front of the letters of lower places. -/
def columnLetters (n : Nat) (lower : List Char) : List Char :=
  if h : n = 0 then lower
  else columnLetters ((n - 1) / 26) (Char.ofNat (65 + (n - 1) % 26) :: lower)
termination_by n
decreasing_by omega

/-- The letters of a column: `A` to `Z`, then `AA`. -/
def columnName (index : Nat) : String := String.ofList (columnLetters (index + 1) [])

/-- The place of a letter in the alphabet, counted from one, for either case. -/
def letterValue (c : Char) : Nat := (Text.asciiUpper c).toNat - 64

/-- The number that the letters of a column stand for, counted from one, where it fits 64 bits. -/
def lettersValue? (cs : List Char) : Option Nat :=
  cs.foldl (fun n? c => n?.bind fun n =>
    if Text.isAsciiLetter c && n * 26 + letterValue c < Text.bound64 then
      some (n * 26 + letterValue c)
    else none) (some 0)

/-- The column with these letters. The empty name has none. -/
def columnIndex? (name : String) : Option Nat :=
  if name.toList.isEmpty then none else (lettersValue? name.toList).map (· - 1)

namespace Address

/-- The A1 notation of an address. -/
def text (a : Address) : String := columnName a.column ++ Text.decimal (a.row + 1)

/-- Reads A1 notation; blanks around it do not count. -/
def parse (s : String) : Except InvalidAddress Address :=
  let cs := Text.trimChars s.toList
  let letters := String.ofList (cs.takeWhile Text.isAsciiLetter)
  let digits := String.ofList (cs.dropWhile Text.isAsciiLetter)
  match columnIndex? letters, Text.parseNat? Text.bound64 digits with
  | some column, some (row + 1) => .ok ⟨row, column⟩
  | _, _ => .error ⟨String.ofList cs⟩

end Address

end SheetMarkup
