import SheetMarkup.Script.Block
import SheetMarkup.Style.Identifier

/-!
# Style descriptors

What a style block declares: a name, a parent and the looks of the text.

* `normalizeColor`, `parseSize`: the two values with a form of their own.
* `Descriptor.ofArguments`: the descriptor of an argument list, the last of equal names counting.
* `Descriptor.ofBlock`: the same for a block; a missing name is found at the command.
-/

namespace SheetMarkup

/-- A named style. -/
structure Descriptor where
  /-- Made from the name. -/
  id : String
  /-- As written in the sheet. -/
  name : String
  /-- The identifier of the style that this one inherits from. -/
  parent : Option String
  /-- Six hexadecimal digits. -/
  color : String
  font : String
  /-- In half points. -/
  size : Nat
  deriving DecidableEq

/-- The colour of a style that names none. -/
def defaultColor : String := "000000"

/-- The size of a style that names none: twelve points. -/
def defaultSize : Nat := 24

/-- The font of a style that names none. -/
def fallbackFont : String := "Aptos"

/-- Three characters stand for six, each of them doubled. -/
def expandColor (cs : List Char) : List Char :=
  if cs.length = 3 then cs.flatMap fun c => [c, c] else cs

/-- Exactly six hexadecimal digits. -/
def isHexColor (cs : List Char) : Bool :=
  cs.length == 6 && cs.all fun c => (Text.hexValue? c).isSome

/-- A colour as six hexadecimal digits; their case is kept. -/
def normalizeColor (value : String) : Except Fault String :=
  let cs := Text.trimChars value.toList
  if isHexColor (expandColor cs) then .ok (String.ofList (expandColor cs))
  else .error (.invalidColor (String.ofList cs))

/-- A whole number of points, as half points that fit 32 bits. -/
def parseSize (value : String) : Except Fault Nat :=
  match Text.parseNat? Text.bound32 (Text.trim value) with
  | some points =>
    if points * 2 < Text.bound32 then .ok (points * 2) else .error (.invalidSize value)
  | none => .error (.invalidSize value)

/-- The last argument of a name. -/
def lastNamed? (arguments : List Argument) (name : String) : Option Argument :=
  (arguments.filter (·.name == name)).getLast?

namespace Descriptor

/-- A descriptor from values that are already checked. -/
def ofName (name : String) (parent : Option String) (color font : String) (size : Nat) :
    Descriptor :=
  ⟨toIdentifier name, name, parent, color, font, size⟩

/-- Reads the value of an argument, or takes the default where there is none. A fault is found at
the argument. -/
def readValue {α : Type} (argument? : Option Argument) (read : String → Except Fault α)
    (default : α) : Except Error α :=
  match argument? with
  | none => .ok default
  | some a => (read a.value).mapError fun fault => ⟨fault, a.origin⟩

/-- The descriptor of an argument list. -/
def ofArguments (arguments : List Argument) : Except Error Descriptor := do
  let some name := lastNamed? arguments "name" | .error ⟨.missingStyleName, none⟩
  let parent := ((lastNamed? arguments "parent").map fun a => toIdentifier a.value).filter
    fun id => !id.isEmpty
  let color ← readValue (lastNamed? arguments "color") normalizeColor defaultColor
  let size ← readValue (lastNamed? arguments "size") parseSize defaultSize
  let font := ((lastNamed? arguments "font").map Argument.value).filter fun f => !f.isEmpty
  if (toIdentifier name.value).isEmpty then
    .error ⟨.invalidStyleName name.value, name.origin⟩
  else .ok (ofName name.value parent color (font.getD fallbackFont) size)

/-- The descriptor of a style block. -/
def ofBlock (b : Block) : Except Error Descriptor :=
  (ofArguments b.arguments).mapError fun e => { e with origin := e.origin.or b.origin }

end Descriptor

end SheetMarkup
