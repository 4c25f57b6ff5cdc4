import SheetMarkup.Text.Bytes
import SheetMarkup.Toml.Tree

/-!
# Reading a configuration text

Values with parts, statements, and whole texts. Places are counted from the length of the whole
text and that of the rest.

* `value?`: a value, nested up to a depth.
* `statement?`: a header, an assignment, or an empty line.
* `parse?`: the tree of a text.
-/

namespace SheetMarkup.Toml

/-- The stretch of a text of `total` bytes between two of its rests. -/
def between (total : Nat) (front back : List Char) : Span :=
  ⟨total - Text.byteLength front, total - Text.byteLength back⟩

/-- The rest of an array after some items, in reverse. A comma may stand behind the last one. -/
def arrayRest? (total : Nat) (item? : Step Value) (read : List (Span × Value))
    (cs : List Char) : Option (Value × List Char) :=
  match skipTrivia cs with
  | ']' :: rest => some (.array read.reverse, rest)
  | front =>
    match item? front with
    | none => none
    | some (v, back) =>
      let items := (between total front back, v) :: read
      match skipTrivia back with
      | ',' :: rest =>
        if _h : rest.length < cs.length then arrayRest? total item? items rest else none
      | ']' :: rest => some (.array items.reverse, rest)
      | _ => none
termination_by cs.length

/-- The standing of a table that is opened as a whole. -/
def Standing.whole : Standing := ⟨false, false, ⟨0, 0⟩⟩

/-- A key, an equals sign and a value, all on one line. -/
def assignment? (item? : Step Value) : Step (List String × Value) := fun cs => do
  let (path, rest) ← keyPath? cs
  let rest ← expect? '=' rest
  let (v, rest) ← item? (skipSpaces rest)
  some ((path, v), rest)

/-- The rest of an inline table after some entries. No comma stands behind the last one. -/
def inlineRest? (item? : Step Value) (entries : Entries) (cs : List Char) :
    Option (Value × List Char) :=
  match assignment? item? cs with
  | none => none
  | some ((path, v), back) =>
    match insert? path v .whole entries with
    | none => none
    | some (_, entries) =>
      match skipSpaces back with
      | ',' :: rest => if _h : rest.length < cs.length then inlineRest? item? entries rest else none
      | '\x7d' :: rest => ((entriesValue? entries).bind tableValue?).map fun v => (v, rest)
      | _ => none
termination_by cs.length

/-- A value of a text of `total` bytes, with at most `depth` values around its innermost one. -/
def value? (total : Nat) : Nat → Step Value
  | 0, '[' :: _ => none
  | 0, '\x7b' :: _ => none
  | depth + 1, '[' :: cs => arrayRest? total (value? total depth) [] cs
  | depth + 1, '\x7b' :: cs =>
    match skipSpaces cs with
    | '\x7d' :: rest => some (.table [], rest)
    | _ => inlineRest? (value? total depth) [] cs
  | _, cs => scalarValue? cs

/-- What has been read of a text: the path of the open table, and the tree. -/
structure Reading where
  path : List String
  entries : Entries

/-- Applies a change at the root of the tree. -/
def Reading.change? (r : Reading) (path : List String) (change : Change) : Option Reading :=
  (change .whole r.entries).map fun c => ⟨path, c.2⟩

/-- The header of a table. -/
def tableHeader? (total : Nat) (r : Reading) (cs : List Char) : Option (Reading × List Char) := do
  let inner ← expect? '[' cs
  let (path, rest) ← keyPath? inner
  let rest ← expect? ']' rest
  let r ← r.change? path (openAt? openTable path (between total cs rest))
  some (r, ← lineEnd? rest)

/-- The header of an element of an array of tables. -/
def elementHeader? (total : Nat) (r : Reading) (cs : List Char) :
    Option (Reading × List Char) := do
  let inner ← expect? '[' cs
  let inner ← expect? '[' inner
  let (path, rest) ← keyPath? inner
  let rest ← expect? ']' rest
  let rest ← expect? ']' rest
  let r ← r.change? path (openAt? openElement path (between total cs rest))
  some (r, ← lineEnd? rest)

/-- An assignment on a line of its own, in the open table. -/
def assignmentLine? (total : Nat) (r : Reading) (cs : List Char) :
    Option (Reading × List Char) := do
  let ((path, v), rest) ← assignment? (value? total (depthLimit - 1)) cs
  let stop := total - Text.byteLength rest
  let r ← r.change? r.path (modify? false (insertAt? path v stop) r.path)
  some (r, ← lineEnd? rest)

/-- One line of a text, or several where a value takes them up. -/
def statement? (total : Nat) (r : Reading) (cs : List Char) : Option (Reading × List Char) :=
  match cs with
  | '[' :: '[' :: _ => elementHeader? total r cs
  | '[' :: _ => tableHeader? total r cs
  | c :: _ =>
    if c == '#' || c == '\n' || c == '\r' then (lineEnd? cs).map fun rest => (r, rest)
    else assignmentLine? total r cs
  | [] => none

/-- All statements of a text. -/
def statements? (total : Nat) (r : Reading) (cs : List Char) : Option Entries :=
  match skipSpaces cs with
  | [] => some r.entries
  | front =>
    match statement? total r front with
    | none => none
    | some (r, rest) => if _h : rest.length < cs.length then statements? total r rest else none
termination_by cs.length

/-- The tree of a text. A byte order mark at its start does not count. -/
def parse? (source : String) : Option Entries :=
  let cs := source.toList
  let body := match cs with
    | '\ufeff' :: rest => rest
    | rest => rest
  statements? (Text.byteLength cs) ⟨[], []⟩ body

end SheetMarkup.Toml
