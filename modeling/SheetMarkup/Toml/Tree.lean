import SheetMarkup.Text.Order
import SheetMarkup.Toml.Lexeme

/-!
# The tree of a configuration text

Keys and headers build a tree of tables. A table is opened by its header, or comes into being on
the way to another one: through a longer header, or through the dots of a key. These differ in
what may be added to them later.

* `Standing`: how a table came into being, and its place in the text.
* `modify?`: changes the table at a path, with the tables on the way.
* `insert?`: adds a value under a key with dots.
* `openTable?`, `openElement?`: what the two kinds of headers do.
* `Entry.value?`: the value of a tree.
-/

namespace SheetMarkup.Toml

/-- How a table came into being, and its place in the text. -/
structure Standing where
  /-- On the way to another table. -/
  implicit : Bool
  /-- Through the dots of a key. -/
  dotted : Bool
  span : Span

/-- A part of the tree. -/
inductive Entry where
  | value (v : Value)
  | table (standing : Standing) (entries : List (String × Entry))
  /-- The elements of an array of tables, the last one first. -/
  | elements (tables : List (Standing × List (String × Entry)))

/-- The entries of a table in the order of the text. -/
abbrev Entries : Type := List (String × Entry)

/-- Puts an entry in the place of the one with its key, or behind all others. -/
def Entries.put (entries : Entries) (key : String) (e : Entry) : Entries :=
  if entries.any (·.1 == key) then
    List.map (fun (x : String × Entry) => if x.1 == key then (key, e) else x) entries
  else entries ++ [(key, e)]

/-- A change of a table that may be refused. -/
abbrev Change : Type := Standing → Entries → Option (Standing × Entries)

/-- Changes the table at a path. Tables that are missing on the way are made. A path with dots
does not lead through a table with a header of its own. -/
def modify? (dotted : Bool) (change : Change) : List String → Change
  | [], standing, entries => change standing entries
  | key :: path, standing, entries =>
    match lookup? entries key with
    | none => do
      let (s, es) ← modify? dotted change path ⟨true, dotted, ⟨0, 0⟩⟩ []
      some (standing, Entries.put entries key (.table s es))
    | some (.value _) => none
    | some (.table s es) =>
      if dotted && !s.implicit then none
      else do
        let (s, es) ← modify? dotted change path s es
        some (standing, Entries.put entries key (.table s es))
    | some (.elements []) => none
    | some (.elements ((s, es) :: before)) => do
      let (s, es) ← modify? dotted change path s es
      some (standing, Entries.put entries key (.elements ((s, es) :: before)))

/-- Adds a value under a new key. With dots before it the table must be one that dots made. -/
def addValue (afterDots : Bool) (key : String) (v : Value) : Change := fun standing entries =>
  if standing.dotted != afterDots then none
  else if (lookup? entries key).isSome then none
  else some (standing, entries ++ [(key, .value v)])

/-- Adds a value under a key with dots. -/
def insert? (path : List String) (v : Value) : Change := fun standing entries =>
  match path.reverse with
  | [] => none
  | key :: parents =>
    modify? true (addValue (!parents.isEmpty) key v) parents.reverse standing entries

/-- Adds a value and moves the end of the table to the end of the value. -/
def insertAt? (path : List String) (v : Value) (stop : Nat) : Change := fun standing entries =>
  insert? path v { standing with span := ⟨standing.span.start, stop⟩ } entries

/-- Opens the table of a header: a new one, or one that only a longer header has made. -/
def openTable (key : String) (span : Span) : Change := fun standing entries =>
  match lookup? entries key with
  | none => some (standing, entries ++ [(key, .table ⟨false, false, span⟩ [])])
  | some (.table s es) =>
    if s.implicit && !s.dotted then
      some (standing, Entries.put entries key (.table ⟨false, false, span⟩ es))
    else none
  | some _ => none

/-- Opens the next element of an array of tables. -/
def openElement (key : String) (span : Span) : Change := fun standing entries =>
  match lookup? entries key with
  | none => some (standing, entries ++ [(key, .elements [(⟨false, false, span⟩, [])])])
  | some (.elements before) =>
    some (standing, Entries.put entries key (.elements ((⟨false, false, span⟩, []) :: before)))
  | some _ => none

/-- Applies the change of a header at the last part of its path. -/
def openAt? (change : String → Span → Change) (path : List String) (span : Span) : Change :=
  fun standing entries =>
    match path.reverse with
    | [] => none
    | key :: parents => modify? false (change key span) parents.reverse standing entries

/-! ## Values -/

/-- The key under which a date or time is written out as a table. -/
def datetimeKey : String := "$__toml_private_datetime"

/-- A table in the order of the text as a value. One that starts with the reserved key is a date
or time. -/
def tableValue? (entries : List (String × Value)) : Option Value :=
  let sorted := entries.foldl (fun es e => Text.insertSorted e.1 e.2 es) []
  match entries with
  | [] => some (.table sorted)
  | (key, v) :: _ =>
    if key == datetimeKey then
      match v with
      | .string s =>
        match datetime? s.toList with
        | some (d, []) => some (.datetime d)
        | _ => none
      | _ => none
    else some (.table sorted)

mutual

/-- The value of a part of the tree. -/
def Entry.value? : Entry → Option Value
  | .value v => some v
  | .table _ entries => (entriesValue? entries).bind tableValue?
  | .elements tables => (elementsValue? tables).map fun items => .array items.reverse

/-- The values of the entries of a table. -/
def entriesValue? : List (String × Entry) → Option (List (String × Value))
  | [] => some []
  | e :: es => do
    let v ← e.2.value?
    let vs ← entriesValue? es
    some ((e.1, v) :: vs)

/-- The values of the elements of an array of tables, with their places. -/
def elementsValue? : List (Standing × List (String × Entry)) → Option (List (Span × Value))
  | [] => some []
  | t :: ts => do
    let v ← (entriesValue? t.2).bind tableValue?
    let vs ← elementsValue? ts
    some ((t.1.span, v) :: vs)

end

end SheetMarkup.Toml
