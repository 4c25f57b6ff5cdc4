import SheetMarkup.Cli.Run
import SheetMarkup.Cli.Test

/-!
# The command line

* `execute`: does what the arguments of a command line ask for.
-/

namespace SheetMarkup.Cli

/-- The name of the program with its version. -/
def version : String := "xmlyze 0.1.0"

/-- How the program is called. -/
def usage : String :=
  "Spreadsheet markup to document compiler\n\n" ++
  "Usage: xmlyze [--no-color] [-v]... run [OPTIONS] <FILE>\n" ++
  "       xmlyze [--no-color] [-v]... test [OPTIONS] <PATH>\n\n" ++
  "Options of run:\n" ++
  "  --check                 Parse only, don't render\n" ++
  "  --tokens                Dump the token stream\n" ++
  "  --blocks                Dump the assembled code blocks\n" ++
  "  --styles                List the resolved styles\n" ++
  "  --config <CONFIG>       Render configuration file\n" ++
  "  -o, --output <OUTPUT>   Write the document to this file instead of stdout\n" ++
  "  --extract-images <DIR>  Copy the pictures embedded in a workbook into this directory\n" ++
  "  -q, --quiet             Suppress document output\n\n" ++
  "Options of test:\n" ++
  "  -c, --category <CATEGORY>  Run only tests in these categories\n" ++
  "  --list-categories          List available categories and exit\n"

/-- The report of a command line that ends early. -/
def Stop.report : Stop → Report
  | help => { stdout := usage }
  | version => { stdout := Cli.version ++ "\n" }
  | refused => { code := 2, stderr := "error: invalid command line\n\n" ++ usage }

/-- Does what the arguments of a command line, without the name of the program, ask for. -/
def execute {m : Type → Type} [Monad m] [FileSystem m] (args : List String) : m Report :=
  match Request.ofArguments args with
  | .error stop => return stop.report
  | .ok (.run file settings) => run file settings
  | .ok (.test path settings) => test path settings

end SheetMarkup.Cli
