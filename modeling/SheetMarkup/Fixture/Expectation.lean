import SheetMarkup.Document.Config

/-!
# What a fixture expects

A fixture is a sheet with a table `test` beside its rows, which says what becomes of the sheet.

* `Expectation.ofValue?`: the expectations of a table, or of an array that gives them in order.
* `Expectation.parse?`: the expectations of a text.
-/

namespace SheetMarkup.Fixture

/-- A warning that is expected. -/
structure ExpectedWarning where
  /-- Stands somewhere in the message. -/
  contains : String
  /-- The address of the command, where it is to be looked at. -/
  cell : Option String := none
  deriving DecidableEq

/-- What a fixture expects. -/
structure Expectation where
  description : Option String := none
  /-- The content of the document, up to blanks at its ends. -/
  output : Option String := none
  /-- Stands somewhere in the message of an error. -/
  error : Option String := none
  warnings : Option (List ExpectedWarning) := none
  config : Option Config := none
  deriving DecidableEq

/-- A warning that is expected, from a table, or from an array that gives its parts in order. -/
def ExpectedWarning.ofValue? : Toml.Value → Option ExpectedWarning
  | .table entries => do
    let contains ← Config.text? (← Toml.lookup? entries "contains")
    match Toml.lookup? entries "cell" with
    | none => some ⟨contains, none⟩
    | some cell => some ⟨contains, some (← Config.text? cell)⟩
  | .array [contains] => do
    some ⟨← Config.text? contains.2, none⟩
  | .array (contains :: cell :: _) => do
    some ⟨← Config.text? contains.2, some (← Config.text? cell.2)⟩
  | _ => none

/-- The warnings of an array. -/
def expectedWarnings? : Toml.Value → Option (List ExpectedWarning)
  | .array items => items.mapM fun item => ExpectedWarning.ofValue? item.2
  | _ => none

namespace Expectation

/-- The keys of expectations, in the order of an array. -/
def keys : List String :=
  ["description", "expect_output", "expect_error", "expect_warnings", "config"]

/-- Takes up the expectation of a key. -/
def set? (e : Expectation) (key : String) (v : Toml.Value) : Option Expectation :=
  if key == "description" then (Config.text? v).map fun s => { e with description := some s }
  else if key == "expect_output" then (Config.text? v).map fun s => { e with output := some s }
  else if key == "expect_error" then (Config.text? v).map fun s => { e with error := some s }
  else if key == "expect_warnings" then
    (expectedWarnings? v).map fun ws => { e with warnings := some ws }
  else if key == "config" then (Config.ofValue? v).map fun c => { e with config := some c }
  else none

/-- The expectations of a table, or of an array that gives them in order. -/
def ofValue? : Toml.Value → Option Expectation
  | .table entries => entries.foldlM (fun e x => e.set? x.1 x.2) {}
  | .array items => (keys.zip items).foldlM (fun e x => e.set? x.1 x.2.2) {}
  | _ => none

/-- The expectations of a text; there are none where the table is missing. -/
def parse? (source : String) : Option Expectation := do
  let entries ← Toml.parse? source
  match Toml.lookup? entries "test" with
  | none => some {}
  | some e => ofValue? (← e.value?)

end Expectation

end SheetMarkup.Fixture
