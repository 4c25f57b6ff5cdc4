/-!
# Escapes

The five characters that have a meaning in markup are written as entities.

* `entityOf?`: the entity of a character.
* `escape`: a text without the five characters.
-/

namespace SheetMarkup.Xml

/-- The predefined entities with the characters that they stand for. -/
def entities : List (String × Char) :=
  [("lt", '<'), ("gt", '>'), ("amp", '&'), ("apos", '\''), ("quot", '"')]

/-- The character of a predefined entity. -/
def entity? (name : String) : Option Char := (entities.find? (·.1 == name)).map Prod.snd

/-- How one character is written. -/
def escapeChar (c : Char) : List Char :=
  match entities.find? (·.2 == c) with
  | some (name, _) => '&' :: name.toList ++ [';']
  | none => [c]

/-- A text with the five characters written as entities. -/
def escape (s : String) : String := String.ofList (s.toList.flatMap escapeChar)

end SheetMarkup.Xml
