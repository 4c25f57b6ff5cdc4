import SheetMarkup.Cli.Report
import SheetMarkup.Cli.Request
import SheetMarkup.Fixture.Category
import SheetMarkup.Fixture.Check

/-!
# Tests

A test checks one fixture, or all fixtures of a folder by category, and reports on them.

* `runFixture`: the outcome of one fixture.
* `testReport`: what is reported on all.
* `listReport`: what is reported on the categories alone.
* `test`: the whole.
-/

namespace SheetMarkup.Cli

variable {m : Type → Type} [Monad m] [FileSystem m]

/-! ## Fixtures -/

/-- A fixture that has been checked. -/
structure Checked where
  path : String
  outcome : Fixture.Outcome

namespace Checked

/-- The fixture passes. -/
def passes (c : Checked) : Bool := c.outcome.failure.isNone

/-- What a fixture is called: by its description, else by the name of its file. -/
def label (c : Checked) : String :=
  c.outcome.description.getD
    (((Path.fileName? c.path).map (Text.dropEndings Fixture.ending)).getD "?")

end Checked

/-- Checks the fixture at a path. -/
def runFixture (path : String) : m Checked := do
  match ← readText path with
  | .error e => return ⟨path, { failure := some (.unreadable e) }⟩
  | .ok source => return ⟨path, Fixture.check source⟩

/-- Checks the fixtures at some paths. -/
def runFixtures : List String → m (List Checked)
  | [] => return []
  | path :: paths => do
    let first ← runFixture path
    return first :: (← runFixtures paths)

/-- Some fixtures under a title, if they have one. -/
structure Group where
  title : Option String
  fixtures : List Checked

/-- Checks the fixtures of categories in a folder. -/
def runCategories (root : String) : List Fixture.Category → m (List Group)
  | [] => return []
  | c :: cs => do
    let checked ← runFixtures (c.fixtures.map (·.path root))
    return ⟨some c.label, checked⟩ :: (← runCategories root cs)

/-! ## Reports -/

/-- A text in a colour, unless colours are turned off. -/
def paint (noColor : Bool) (code text : String) : String :=
  if noColor then text else "\x1b[" ++ code ++ "m" ++ text ++ "\x1b[0m"

/-- The line on a fixture. -/
def fixtureLine (noColor : Bool) (c : Checked) : String :=
  "  " ++ (if c.passes then paint noColor "32" "PASS" else paint noColor "31" "FAIL") ++ "  " ++
    c.label ++ "\n"

/-- The lines on a group. -/
def groupLines (noColor : Bool) (g : Group) : String :=
  (match g.title with
    | some title => "\n" ++ paint noColor "1" title ++ "\n"
    | none => "") ++
    String.join (g.fixtures.map (fixtureLine noColor))

/-- The lines on a failure. -/
def failureLines (c : Checked) : String :=
  match c.outcome.failure with
  | none => ""
  | some failure =>
    "\n  --- " ++ c.path ++ " ---\n" ++
      String.join ((Text.lines failure.message).map fun line => "  " ++ line ++ "\n")

/-- The last line. -/
def resultLine (noColor : Bool) (passed failed : Nat) : String :=
  if failed = 0 then
    "test result: " ++ paint noColor "32" "ok" ++ ". " ++ Text.decimal passed ++
      " passed, 0 failed\n"
  else
    "test result: " ++ paint noColor "31" "FAILED" ++ ". " ++ Text.decimal passed ++ " passed, " ++
      Text.decimal failed ++ " failed (of " ++ Text.decimal (passed + failed) ++ ")\n"

/-- What is reported on fixtures that have been checked. -/
def testReport (noColor : Bool) (groups : List Group) : Report :=
  let checked := groups.flatMap Group.fixtures
  let failures := checked.filter (!·.passes)
  let passed := (checked.filter Checked.passes).length
  { code := if failures.isEmpty then 0 else 1
    stderr := String.join (groups.map (groupLines noColor)) ++
      (if failures.isEmpty then "" else "\nfailures:\n" ++ String.join (failures.map failureLines))
      ++ "\n" ++ resultLine noColor passed failures.length }

/-- The line on a folder without fixtures. -/
def noFixtures (path : String) : String := "no .test.toml files found in " ++ path ++ "\n"

/-- The line on a request that selects nothing. -/
def unmatchedLine (all : List Fixture.Category) (request : String) : String :=
  "warning: category '" ++ Fixture.requested request ++ "' not found (available: " ++
    ", ".intercalate (all.map Fixture.Category.label) ++ ")\n"

/-- What is reported on the categories of a folder. -/
def listReport (path : String) (all : List Fixture.Category) : Report :=
  { stderr :=
      if all.isEmpty then noFixtures path
      else "available categories:\n" ++ String.join (all.map fun c =>
        "  " ++ c.label ++ " (" ++ Text.decimal c.fixtures.length ++ " tests)\n") }

/-! ## The test -/

/-- The categories of a folder. -/
def categoriesIn (path : String) : m (List Fixture.Category) := do
  return Fixture.categories (Fixture.fixturesIn [] (← FileSystem.listing path))

/-- Checks the fixtures of a folder that are asked for. -/
def testFolder (path : String) (settings : TestSettings) : m Report := do
  let all ← categoriesIn path
  let noted := String.join
    ((Fixture.unmatched all settings.categories).map (unmatchedLine all))
  let selected := Fixture.select all settings.categories
  if selected.isEmpty then return { code := 1, stderr := noted ++ noFixtures path }
  return (testReport settings.noColor (← runCategories path selected)).after noted

/-- Checks a fixture or the fixtures of a folder, or lists its categories. -/
def test (path : String) (settings : TestSettings) : m Report := do
  if ← FileSystem.isFile path then
    if settings.listCategories then return { stderr := "(single file, no categories)\n" }
    return testReport settings.noColor [⟨none, [← runFixture path]⟩]
  else if settings.listCategories then return listReport path (← categoriesIn path)
  else testFolder path settings

end SheetMarkup.Cli
