/-!
# Options

The options of a command, and how they are written: `--name`, `--name value`, `--name=value`,
`-n value`, `-nvalue`, `-n=value`, and several one-letter options after one hyphen. A command also
takes one operand, and after `--` nothing is an option. Arguments are taken up from left to right,
and the first one that is wrong, or that asks for help, ends the reading.

* `Action`: what an option does to the settings of its command.
* `scan`: the settings and the operand of some arguments.
-/

namespace SheetMarkup.Cli

/-- What ends the reading of a command line early. -/
inductive Stop where
  | help
  | version
  | refused
  deriving DecidableEq

/-- What an option does to settings. -/
inductive Action (σ : Type) where
  | help
  /-- Is given at most once, without a value. -/
  | flag (isSet : σ → Bool) (set : σ → σ)
  /-- Is given any number of times, without a value, and changes no setting. -/
  | count
  /-- Is given at most once, with a path. -/
  | path (isSet : σ → Bool) (set : String → σ → σ)
  /-- Is given any number of times, each with a text. -/
  | text (add : String → σ → σ)

/-- An option with its names. -/
structure Opt (σ : Type) where
  long : String
  short : Option Char := none
  action : Action σ

/-- The settings and the operand that have been read. -/
structure Scanned (σ : Type) where
  settings : σ
  operand : Option String := none

variable {σ : Type}

/-- The option is followed by a value. -/
def Opt.takesValue (o : Opt σ) : Bool :=
  match o.action with
  | .path .. | .text .. => true
  | _ => false

/-- Takes up an option; one without a value is given the empty text. -/
def Scanned.take (s : Scanned σ) (o : Opt σ) (value : String) : Except Stop (Scanned σ) :=
  match o.action with
  | .help => .error .help
  | .flag isSet set =>
    if isSet s.settings then .error .refused else .ok { s with settings := set s.settings }
  | .count => .ok s
  | .path isSet set =>
    if value.isEmpty || isSet s.settings then .error .refused
    else .ok { s with settings := set value s.settings }
  | .text add => .ok { s with settings := add value s.settings }

/-- Takes up an operand. There is only one, and it is a path. -/
def Scanned.takeOperand (s : Scanned σ) (arg : String) : Except Stop (Scanned σ) :=
  if arg.isEmpty || s.operand.isSome then .error .refused else .ok { s with operand := some arg }

/-- Takes up one-letter options after one hyphen. Gives also the last of them if its value has to
follow. -/
def Scanned.takeShort (options : List (Opt σ)) (s : Scanned σ) :
    List Char → Except Stop (Scanned σ × Option (Opt σ))
  | [] => .ok (s, none)
  | c :: rest =>
    match options.find? (·.short == some c) with
    | none => .error .refused
    | some o =>
      if o.takesValue then
        match rest with
        | [] => .ok (s, some o)
        | '=' :: value => (s.take o (String.ofList value)).map (·, none)
        | value => (s.take o (String.ofList value)).map (·, none)
      else do
        let s ← s.take o ""
        s.takeShort options rest

/-- Takes up an option by its name. Gives it also if its value has to follow. -/
def Scanned.takeLong (options : List (Opt σ)) (s : Scanned σ) (name : List Char)
    (value : Option (List Char)) : Except Stop (Scanned σ × Option (Opt σ)) :=
  match options.find? (·.long == String.ofList name) with
  | none => .error .refused
  | some o =>
    match o.takesValue, value with
    | true, some v => (s.take o (String.ofList v)).map (·, none)
    | true, none => .ok (s, some o)
    | false, some _ => .error .refused
    | false, none => (s.take o "").map (·, none)

/-- What a single argument is. -/
inductive Shape where
  | terminator
  | long (name : List Char) (value : Option (List Char))
  | short (letters : List Char)
  | operand
  deriving DecidableEq

/-- The shape of an argument. A single hyphen is an operand. -/
def shapeOf (arg : String) : Shape :=
  match arg.toList with
  | ['-', '-'] => .terminator
  | '-' :: '-' :: rest =>
    match rest.dropWhile (· != '=') with
    | [] => .long rest none
    | _ :: value => .long (rest.takeWhile (· != '=')) (some value)
  | '-' :: c :: letters => .short (c :: letters)
  | _ => .operand

/-- Takes up one argument that is no terminator. Gives also an option if its value has to
follow. -/
def Scanned.takeArgument (options : List (Opt σ)) (s : Scanned σ) (arg : String) :
    Except Stop (Scanned σ × Option (Opt σ)) :=
  match shapeOf arg with
  | .long name value => s.takeLong options name value
  | .short letters => s.takeShort options letters
  | _ => (s.takeOperand arg).map (·, none)

/-- Takes up all arguments. An option that waits for its value does not get one that looks like an
option itself. -/
def scan (options : List (Opt σ)) : Scanned σ → Option (Opt σ) → List String →
    Except Stop (Scanned σ)
  | s, none, [] => .ok s
  | _, some _, [] => .error .refused
  | s, some o, arg :: args =>
    if shapeOf arg = .operand then do
      let s ← s.take o arg
      scan options s none args
    else .error .refused
  | s, none, arg :: args =>
    if shapeOf arg = .terminator then args.foldlM Scanned.takeOperand s
    else do
      let (s, waiting) ← s.takeArgument options arg
      scan options s waiting args

end SheetMarkup.Cli
