import SheetMarkup.Script.Command
import SheetMarkup.Script.Token

/-!
# Errors and diagnostics

Everything that stops the work on a sheet, with the cell that it was found at, and the form in
which it is reported.

* `Fault`, `Fault.message`: what is wrong and its wording.
* `Error`: a fault and where it was found.
* `Diagnostic`: a report with labels into the source text and notes.
-/

namespace SheetMarkup

/-- What is wrong with a sheet. -/
inductive Fault where
  | unknownCommand (word : String)
  | argumentWithoutCommand (payload : String)
  | malformedArgument (payload : String)
  | unknownArgument (command : Command) (name : String)
  | missingStyleName
  | invalidStyleName (name : String)
  | invalidColor (value : String)
  | invalidSize (value : String)
  | unresolvedStyleReference (value : String)
  deriving DecidableEq

/-- The wording of a fault. -/
def Fault.message : Fault → String
  | unknownCommand word => "unknown command `" ++ word ++ "`"
  | argumentWithoutCommand payload => "argument `" ++ payload ++ "` appears before any command"
  | malformedArgument payload =>
    "malformed argument `" ++ payload ++ "`: expected `name=value`"
  | unknownArgument command name =>
    "unknown argument `" ++ name ++ "` for command `" ++ command.name ++ "`"
  | missingStyleName => "style has no `name` argument"
  | invalidStyleName name =>
    "style name `" ++ name ++ "` has no letters or digits to build an identifier from"
  | invalidColor value => "invalid color `" ++ value ++ "`: expected 3 or 6 hex digits"
  | invalidSize value => "invalid size `" ++ value ++ "`: expected a whole number of points"
  | unresolvedStyleReference value => "unresolved style reference `" ++ value ++ "`"

/-- A fault and the cell that it was found at, where that is known. -/
structure Error where
  fault : Fault
  origin : Option Origin
  deriving DecidableEq

/-- How grave a diagnostic is. -/
inductive Severity where
  | error
  | warning
  deriving DecidableEq

/-- The word for a severity. -/
def Severity.name : Severity → String
  | error => "error"
  | warning => "warning"

/-- A marked stretch of a source text. -/
structure Label where
  file : Nat
  range : Span
  deriving DecidableEq

/-- A report about a sheet. -/
structure Diagnostic where
  severity : Severity
  message : String
  labels : List Label
  notes : List String
  deriving DecidableEq

/-- A report at an origin: its span is the label, its cell the note. -/
def Diagnostic.at (severity : Severity) (message : String) (origin : Option Origin)
    (file : Nat) : Diagnostic where
  severity := severity
  message := message
  labels := (origin.bind Origin.span).toList.map fun span => ⟨file, span⟩
  notes := origin.toList.map fun o => "at cell " ++ o.cell.text

/-- The report of an error in the source text with this number. -/
def Error.diagnostic (e : Error) (file : Nat) : Diagnostic :=
  Diagnostic.at .error e.fault.message e.origin file

end SheetMarkup
