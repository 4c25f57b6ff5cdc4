import SheetMarkup.Text.Number

/-!
# Style identifiers

A style is known by an identifier made from its display name: the words of ASCII letters and
digits, each with a capital first letter, written together.

* `identifierFrom`: the rest of an identifier, inside or outside a word.
* `toIdentifier`: the identifier of a name.
-/

namespace SheetMarkup

/-- The identifier characters of a text that starts inside or outside a word. -/
def identifierFrom : Bool → List Char → List Char
  | _, [] => []
  | inWord, c :: cs =>
    if Text.isAsciiAlphanumeric c then
      (if inWord then Text.asciiLower c else Text.asciiUpper c) :: identifierFrom true cs
    else identifierFrom false cs

/-- The identifier of a display name. -/
def toIdentifier (name : String) : String := String.ofList (identifierFrom false name.toList)

end SheetMarkup
