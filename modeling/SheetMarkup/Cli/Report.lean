import SheetMarkup.Document.Warning

/-!
# Reports

What a command prints and how it ends.

* `Report`: the two texts and the exit status.
* `Diagnostic.report`: a diagnostic as it is printed.
-/

namespace SheetMarkup

/-- A diagnostic as it is printed: its severity and message, then its notes. -/
def Diagnostic.report (d : Diagnostic) : String :=
  d.severity.name ++ ": " ++ d.message ++ "\n" ++
    String.join (d.notes.map fun note => "  = " ++ note ++ "\n")

namespace Cli

/-- What a command prints and how it ends. -/
structure Report where
  code : Nat := 0
  stdout : String := ""
  stderr : String := ""
  deriving DecidableEq

namespace Report

/-- A command that ends with an error. -/
def failure (message : String) : Report := { code := 1, stderr := "error: " ++ message ++ "\n" }

/-- A command that is stopped: a number left its width, or the memory had no room. -/
def stopped : Report := { code := 101 }

/-- A sheet with an error in it. -/
def diagnosed (e : Error) : Report := { code := 1, stderr := (e.diagnostic 0).report }

/-- A report with a text before all that it prints about its course. -/
def after (noted : String) (r : Report) : Report := { r with stderr := noted ++ r.stderr }

end Report

end Cli

end SheetMarkup
