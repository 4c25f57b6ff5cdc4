/-!
# The shorthand of a run

A command line that names no command is a run. The command then goes after the flags that every
command takes, so options of the run stay behind it.

* `isGlobalFlag`: the flags that may stand before the command.
* `withRun`: the arguments with their command.
* `withRunShorthand`: the same for a command line that starts with the name of the program.
-/

namespace SheetMarkup.Cli

/-- A flag that may stand before the command. -/
def isGlobalFlag (arg : String) : Bool :=
  arg == "--no-color" || arg == "--verbose" ||
    match arg.toList with
    | '-' :: flags => !flags.isEmpty && flags.all (· == 'v')
    | _ => false

/-- The arguments that have a meaning of their own in the place of a command. -/
def commandWords : List String := ["run", "test", "help", "-h", "--help", "-V", "--version"]

/-- The arguments with their command. -/
def withRun : List String → List String
  | [] => []
  | arg :: args =>
    if isGlobalFlag arg then arg :: withRun args
    else if commandWords.contains arg then arg :: args
    else "run" :: arg :: args

/-- A command line, which starts with the name of the program, with its command. -/
def withRunShorthand : List String → List String
  | [] => []
  | program :: args => program :: withRun args

end SheetMarkup.Cli
