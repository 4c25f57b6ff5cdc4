import SheetMarkup.Document.Render
import SheetMarkup.Files.Error
import SheetMarkup.Fixture.Expectation
import SheetMarkup.Script.Parse
import SheetMarkup.Source.Toml
import SheetMarkup.Text.Lines

/-!
# Checking a fixture

The sheet of a fixture is rendered, and what comes of it is compared with what is expected.

* `Failure`: why a fixture fails, with its wording.
* `checkWarnings`, `checkResult`: the comparison.
* `check`: the outcome of the text of a fixture.
-/

namespace SheetMarkup.Fixture

/-- Why a fixture fails. Warnings are counted from zero. -/
inductive Failure where
  | unreadable (error : FileError)
  /-- The text, or the table of expectations in it, is malformed. -/
  | malformed
  | sheet (refusal : TomlSheet.Refusal)
  | otherError (expected actual : String)
  | noError (expected : String)
  | unexpectedError (actual : String)
  | otherOutput (expected actual : String)
  | warningCount (expected : Nat) (actual : List Warning)
  | otherWarning (index : Nat) (expected actual : String)
  | invalidCell (index : Nat) (text : String)
  | warningElsewhere (index : Nat) (expected actual : Address)
  | warningNowhere (index : Nat) (expected : Address)
  deriving DecidableEq

/-- The start of a message about one warning. -/
def warningLabel (index : Nat) : String := "warning[" ++ Text.decimal index ++ "]: "

/-- The wording of a failure. -/
def Failure.message : Failure → String
  | unreadable error => "cannot read file: " ++ error.message
  | malformed => "fixture error: TOML parse error: "
  | sheet refusal => "fixture error: " ++ refusal.message
  | otherError expected actual =>
    "expected error containing \"" ++ expected ++ "\", got: " ++ actual
  | noError expected =>
    "expected error containing \"" ++ expected ++ "\", but the sheet rendered"
  | unexpectedError actual => "unexpected error: " ++ actual
  | otherOutput expected actual =>
    "output mismatch\n  expected:\n" ++ Text.indented "    " expected ++ "\n  actual:\n" ++
      Text.indented "    " actual
  | warningCount expected actual =>
    "expected " ++ Text.decimal expected ++ " warning(s), got " ++ Text.decimal actual.length ++
      "\n  actual warnings:\n" ++
      if actual.isEmpty then "    (none)"
      else "\n".intercalate (actual.map fun w => "  - " ++ w.display)
  | otherWarning index expected actual =>
    warningLabel index ++ "expected message containing \"" ++ expected ++ "\", got: " ++ actual
  | invalidCell index text =>
    warningLabel index ++ "`" ++ text ++ "` is not a cell reference"
  | warningElsewhere index expected actual =>
    warningLabel index ++ "expected at " ++ expected.text ++ ", but warning is at " ++ actual.text
  | warningNowhere index expected =>
    warningLabel index ++ "expected at " ++ expected.text ++ ", but warning has no cell"

/-! ## Comparison -/

/-- Compares the address of a warning. -/
def checkCell (index : Nat) (actual : Option Origin) (expected : String) : Option Failure :=
  match Address.parse expected, actual with
  | .error _, _ => some (.invalidCell index expected)
  | .ok cell, none => some (.warningNowhere index cell)
  | .ok cell, some origin =>
    if origin.cell = cell then none else some (.warningElsewhere index cell origin.cell)

/-- Compares a warning. -/
def checkWarning (index : Nat) (actual : Warning) (expected : ExpectedWarning) : Option Failure :=
  if !Text.occursIn expected.contains actual.message then
    some (.otherWarning index expected.contains actual.message)
  else expected.cell.bind (checkCell index actual.origin)

/-- Compares all warnings: their number, then one after the other. -/
def checkWarnings (actual : List Warning) (expected : List ExpectedWarning) : Option Failure :=
  if actual.length ≠ expected.length then some (.warningCount expected.length actual)
  else (actual.zip expected).zipIdx.findSome? fun w => checkWarning w.2 w.1.1 w.1.2

/-- Compares a document with its warnings. -/
def checkRendered (e : Expectation) (r : Rendered) : Option Failure :=
  let actual := Text.trim r.document.outline
  match e.output.map Text.trim with
  | none => e.warnings.bind (checkWarnings r.warnings)
  | some expected =>
    if actual = expected then e.warnings.bind (checkWarnings r.warnings)
    else some (.otherOutput expected actual)

/-- Compares the result of rendering. -/
def checkResult (e : Expectation) (result : Except Error Rendered) : Option Failure :=
  match e.error, result with
  | some expected, .error actual =>
    if Text.occursIn expected actual.fault.message then none
    else some (.otherError expected actual.fault.message)
  | some expected, .ok _ => some (.noError expected)
  | none, .error actual => some (.unexpectedError actual.fault.message)
  | none, .ok r => checkRendered e r

/-! ## Fixtures -/

/-- What comes of a fixture: its description, where it has one, and why it fails, if it does. -/
structure Outcome where
  description : Option String := none
  failure : Option Failure := none
  deriving DecidableEq

/-- Parses and renders the rows of a fixture. -/
def renderRows (rows : List Row) (config : Config) : Except Error Rendered := do
  render (← parse rows) config

/-- A text without byte order marks at its start. -/
def withoutMarks (source : String) : String :=
  String.ofList (source.toList.dropWhile (· == '\ufeff'))

/-- The outcome of the text of a fixture. -/
def check (source : String) : Outcome :=
  match Expectation.parse? (withoutMarks source) with
  | none => { failure := some .malformed }
  | some e =>
    match TomlSheet.rowsOf (withoutMarks source) with
    | .error refusal => { failure := some (.sheet refusal) }
    | .ok rows => ⟨e.description, checkResult e (renderRows rows (e.config.getD {}))⟩

end SheetMarkup.Fixture
