import SheetMarkup.Cli.Options
import SheetMarkup.Cli.Shorthand

/-!
# Requests

What a command line asks for.

* `RunSettings`, `TestSettings`: the settings of the two commands.
* `Request.ofArguments`: the request of a command line.
-/

namespace SheetMarkup.Cli

/-- The settings of a run. -/
structure RunSettings where
  /-- Only read the sheet. -/
  check : Bool := false
  tokens : Bool := false
  blocks : Bool := false
  styles : Bool := false
  config : Option String := none
  output : Option String := none
  /-- The folder for the pictures of a workbook. -/
  extractImages : Option String := none
  quiet : Bool := false
  noColor : Bool := false

/-- The settings of a test. -/
structure TestSettings where
  /-- In the order in which they are given. -/
  categories : List String := []
  listCategories : Bool := false
  noColor : Bool := false

/-- What a command line asks for. -/
inductive Request where
  | run (file : String) (settings : RunSettings)
  | test (path : String) (settings : TestSettings)

/-- The options of a run. -/
def runOptions : List (Opt RunSettings) :=
  [⟨"help", some 'h', .help⟩,
    ⟨"verbose", some 'v', .count⟩,
    ⟨"no-color", none, .flag (·.noColor) fun s => { s with noColor := true }⟩,
    ⟨"check", none, .flag (·.check) fun s => { s with check := true }⟩,
    ⟨"tokens", none, .flag (·.tokens) fun s => { s with tokens := true }⟩,
    ⟨"blocks", none, .flag (·.blocks) fun s => { s with blocks := true }⟩,
    ⟨"styles", none, .flag (·.styles) fun s => { s with styles := true }⟩,
    ⟨"quiet", some 'q', .flag (·.quiet) fun s => { s with quiet := true }⟩,
    ⟨"config", none, .path (·.config.isSome) fun p s => { s with config := some p }⟩,
    ⟨"output", some 'o', .path (·.output.isSome) fun p s => { s with output := some p }⟩,
    ⟨"extract-images", none,
      .path (·.extractImages.isSome) fun p s => { s with extractImages := some p }⟩]

/-- The options of a test. -/
def testOptions : List (Opt TestSettings) :=
  [⟨"help", some 'h', .help⟩,
    ⟨"verbose", some 'v', .count⟩,
    ⟨"no-color", none, .flag (·.noColor) fun s => { s with noColor := true }⟩,
    ⟨"category", some 'c', .text fun t s => { s with categories := s.categories ++ [t] }⟩,
    ⟨"list-categories", none,
      .flag (·.listCategories) fun s => { s with listCategories := true }⟩]

/-- The settings and the operand of the arguments of a command; the operand must be there. -/
def settingsOf {σ : Type} (options : List (Opt σ)) (start : σ) (args : List String) :
    Except Stop (String × σ) := do
  let s ← scan options ⟨start, none⟩ none args
  match s.operand with
  | some operand => .ok (operand, s.settings)
  | none => .error .refused

namespace Request

/-- The request of arguments that name their command. The flag tells whether colours have been
turned off before it. -/
def ofCommand (noColor : Bool) : List String → Except Stop Request
  | [] => .error .refused
  | arg :: args =>
    if arg == "--no-color" then
      if noColor then .error .refused else ofCommand true args
    else if isGlobalFlag arg then ofCommand noColor args
    else match arg with
      | "run" => (settingsOf runOptions {} args).map fun (file, s) =>
        .run file { s with noColor := s.noColor || noColor }
      | "test" => (settingsOf testOptions {} args).map fun (path, s) =>
        .test path { s with noColor := s.noColor || noColor }
      | "help" =>
        .error (if [[], ["run"], ["test"], ["help"]].contains args then .help else .refused)
      | "-h" | "--help" => .error .help
      | "-V" | "--version" => .error .version
      | _ => .error .refused

/-- The request of the arguments of a command line, without the name of the program. -/
def ofArguments (args : List String) : Except Stop Request := ofCommand false (withRun args)

end Request

end SheetMarkup.Cli
