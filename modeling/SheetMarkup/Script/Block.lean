import SheetMarkup.Script.Error

/-!
# Blocks

A block is one instruction of a sheet: a command, its arguments and the lines under it.

* `Argument.parse`: `name=value`, split at the first equals sign.
* `trimBody`: a body without blank lines at its ends.
* `Block.display`: a block as text.
-/

namespace SheetMarkup

/-- A `name=value` pair of a block. -/
structure Argument where
  /-- Trimmed and in lower case. -/
  name : String
  /-- Trimmed. -/
  value : String
  origin : Option Origin := none
  deriving DecidableEq

/-- One line under a command. -/
inductive BodyEntry where
  | text (line : String)
  | image (source : String)
  deriving DecidableEq

/-- One instruction of a sheet. -/
structure Block where
  command : Command
  /-- In the order of the row, repeated names included. -/
  arguments : List Argument := []
  body : List BodyEntry := []
  /-- The cell of the command. -/
  origin : Option Origin := none
  deriving DecidableEq

namespace Argument

/-- Splits a payload at its first equals sign. -/
def parse (payload : String) : Except Fault Argument :=
  match payload.toList.dropWhile (· != '=') with
  | [] => .error (.malformedArgument payload)
  | _ :: value =>
    .ok {
      name := Text.lowercase
        (Text.trim (String.ofList (payload.toList.takeWhile (· != '='))))
      value := Text.trim (String.ofList value) }

/-- The argument as text. -/
def display (a : Argument) : String := a.name ++ "=" ++ a.value

end Argument

/-- An empty line. -/
def BodyEntry.isBlank : BodyEntry → Bool
  | text line => line.isEmpty
  | image _ => false

/-- A body without blank lines at its ends. A body of one line stays as it is. -/
def trimBody (body : List BodyEntry) : List BodyEntry :=
  if body.length ≤ 1 then body else Text.trimWhile BodyEntry.isBlank body

/-- The entry as a line of text. -/
def BodyEntry.display : BodyEntry → String
  | text line => "  | " ++ line ++ "\n"
  | image source => "  ! " ++ source ++ "\n"

namespace Block

/-- The block with its body trimmed. -/
def trimmed (b : Block) : Block := { b with body := trimBody b.body }

/-- The arguments of this name, in order. -/
def argumentsNamed (b : Block) (name : String) : List Argument :=
  b.arguments.filter (·.name == name)

/-- The last argument of this name. -/
def argument? (b : Block) (name : String) : Option Argument := (b.argumentsNamed name).getLast?

/-- The block as text: the command with its arguments, then the body. -/
def display (b : Block) : String :=
  b.command.name ++ String.join (b.arguments.map fun a => " " ++ a.display) ++ "\n" ++
    String.join (b.body.map BodyEntry.display)

end Block

end SheetMarkup
