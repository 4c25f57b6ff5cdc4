/-!
# Lines and parts of a text

* `lines`: the lines of a text.
* `indented`: a text with blanks before each of its lines.
* `occursIn`: one text stands somewhere within another.
* `dropEndings`: a text without an ending, however often it stands there.
-/

namespace SheetMarkup.Text

/-- A line without a carriage return at its end. -/
def withoutReturn (line : List Char) : List Char :=
  match line.reverse with
  | '\r' :: rest => rest.reverse
  | _ => line

/-- The lines of a text. A line feed ends a line, and so does a carriage return with a line feed
behind it. Nothing follows the last line feed of a text that ends with one. -/
def lines (s : String) : List String :=
  let pieces := s.toList.splitOn '\n'
  let last := (pieces.getLast?.getD [])
  ((pieces.dropLast.map withoutReturn) ++ if last.isEmpty then [] else [last]).map String.ofList

/-- The lines of a text, each after the given blanks, with line feeds between them. -/
def indented (blanks s : String) : String :=
  "\n".intercalate ((lines s).map (blanks ++ ·))

/-- The first list stands somewhere within the second. -/
def occursInChars (part : List Char) : List Char → Bool
  | [] => part.isEmpty
  | c :: cs => part.isPrefixOf (c :: cs) || occursInChars part cs

/-- The first text stands somewhere within the second. -/
def occursIn (part s : String) : Bool := occursInChars part.toList s.toList

/-- A list without what it starts with, as often as that stands there. The last argument bounds
the number of times. -/
def dropStarts (start : List Char) : Nat → List Char → List Char
  | 0, cs => cs
  | bound + 1, cs =>
    if !start.isEmpty && start.isPrefixOf cs then dropStarts start bound (cs.drop start.length)
    else cs

/-- A text without an ending, however often it stands there. -/
def dropEndings (ending s : String) : String :=
  let cs := s.toList.reverse
  String.ofList (dropStarts ending.toList.reverse cs.length cs).reverse

end SheetMarkup.Text
