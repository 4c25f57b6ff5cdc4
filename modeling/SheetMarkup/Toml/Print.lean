import SheetMarkup.Toml.Tree

/-!
# Values on one line

How a value is shown in a message: arrays in brackets, tables in braces, keys and strings in the
plainest quotes that can hold them.

* `stringText`: the plainest form of a string.
* `keyText`: the plainest form of a key.
* `Value.inline`: the text of a value.
-/

namespace SheetMarkup.Toml

/-- The longest run of a character. -/
def longestRun (c : Char) (cs : List Char) : Nat :=
  (cs.foldl (fun (best, run) d => if d == c then (max best (run + 1), run + 1) else (best, 0))
    (0, 0)).1

/-- A control character that no literal string can hold. -/
def needsEscape (c : Char) : Bool := isControl c && c != '\n'

/-- Four hexadecimal digits in capitals. -/
def hex4 (n : Nat) : List Char :=
  let ds := (Nat.toDigits 16 n).map Text.asciiUpper
  List.replicate (4 - ds.length) '0' ++ ds

/-- A string between double quotes: `free` quotes in a row, and line breaks if `multi`, stand as
they are. -/
def escaped (multi : Bool) (free : Nat) : Nat → List Char → List Char
  | _, [] => []
  | run, c :: cs =>
    if c == '"' then
      if free < run + 1 then '\\' :: '"' :: escaped multi free 0 cs
      else c :: escaped multi free (run + 1) cs
    else if c == '\x08' then '\\' :: 'b' :: escaped multi free 0 cs
    else if c == '\t' then '\\' :: 't' :: escaped multi free 0 cs
    else if c == '\n' then
      if multi then c :: escaped multi free 0 cs else '\\' :: 'n' :: escaped multi free 0 cs
    else if c == '\x0c' then '\\' :: 'f' :: escaped multi free 0 cs
    else if c == '\r' then '\\' :: 'r' :: escaped multi free 0 cs
    else if c == '\\' then '\\' :: '\\' :: escaped multi free 0 cs
    else if isControl c then '\\' :: 'u' :: hex4 c.toNat ++ escaped multi free 0 cs
    else c :: escaped multi free 0 cs

/-- A string between double quotes on one line. -/
def basicText (cs : List Char) : List Char := '"' :: escaped false 0 0 cs ++ ['"']

/-- A string between three quotes; one with line breaks starts on a line of its own. -/
def blockText (quote : Char) (body cs : List Char) : List Char :=
  List.replicate 3 quote ++ (if cs.contains '\n' then ['\n'] else []) ++ body ++
    List.replicate 3 quote

/-- The plainest form of a string. -/
def stringText (s : String) : String :=
  let cs := s.toList
  let controls := cs.any needsEscape
  let backslash := cs.contains '\\'
  let doubles := longestRun '"' cs
  let singles := longestRun '\'' cs
  let breaks := cs.contains '\n'
  String.ofList (
    if !controls && !backslash && doubles == 0 && !breaks then basicText cs
    else if !controls && singles == 0 && !breaks then '\'' :: cs ++ ['\'']
    else if !controls && !backslash && doubles ≤ 2 then blockText '"' (escaped true 2 0 cs) cs
    else if !controls && singles ≤ 2 then blockText '\'' cs cs
    else if breaks then blockText '"' (escaped true 2 0 cs) cs
    else basicText cs)

/-- The plainest form of a key. -/
def keyText (s : String) : String :=
  let cs := s.toList
  let controls := cs.any isControl
  String.ofList (
    if !cs.isEmpty && cs.all isBareKeyChar then cs
    else if !controls && !cs.contains '\\' && !cs.contains '"' then basicText cs
    else if !controls && !cs.contains '\'' then '\'' :: cs ++ ['\'']
    else basicText cs)

/-- A float with a point, if it is finite; the sign of what is no number is dropped. -/
def floatText : Text.Binary64 → String
  | .nan _ => "nan"
  | .infinite negative => if negative then "-inf" else "inf"
  | .finite negative s e =>
    let ds := Text.Binary64.magnitudeText s e
    String.ofList ((if negative then ['-'] else []) ++ ds ++
      if ds.contains '.' then [] else ['.', '0'])

mutual

/-- The text of a value among other values. -/
def Value.nested : Value → String
  | .string s => stringText s
  | .integer n => integerText n
  | .float x => floatText x
  | .boolean b => if b then "true" else "false"
  | .datetime d => d.text
  | .array items => "[" ++ ", ".intercalate (nestedItems items) ++ "]"
  | .table [] => "\x7b\x7d"
  | .table entries => "\x7b " ++ ", ".intercalate (nestedEntries entries) ++ " \x7d"

/-- The texts of the items of an array. -/
def nestedItems : List (Span × Value) → List String
  | [] => []
  | item :: items => item.2.nested :: nestedItems items

/-- The texts of the entries of a table. -/
def nestedEntries : List (String × Value) → List String
  | [] => []
  | e :: es => (keyText e.1 ++ " = " ++ e.2.nested) :: nestedEntries es

end

/-- The text of a value that stands alone: a date or time is written out as a table. -/
def Value.inline : Value → String
  | .datetime d => (Value.table [(datetimeKey, .string d.text)]).nested
  | v => v.nested

end SheetMarkup.Toml
