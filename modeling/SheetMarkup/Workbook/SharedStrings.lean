import SheetMarkup.Xml.Event

/-!
# Shared strings

The strings of a workbook stand in one table, to which cells refer by position. An item holds
plain texts or runs of text, which are joined, and phonetic runs, which are dropped.

* `Table.step`: what one event does to the table.
* `stringsOf`: the table of some markup.
-/

namespace SheetMarkup.Workbook

/-- The strings read so far, in reverse, and where the reader stands. -/
structure Table where
  strings : List String := []
  current : String := ""
  inItem : Bool := false
  inText : Bool := false
  inPhonetic : Bool := false

/-- Takes up one event. -/
def Table.step (t : Table) : Xml.Event → Table
  | .start tag =>
    match tag.localName with
    | "si" => { t with inItem := true, current := "" }
    | "rPh" => { t with inPhonetic := true }
    | "t" => { t with inText := t.inItem && !t.inPhonetic }
    | _ => t
  | .empty tag => if tag.localName == "si" then { t with strings := "" :: t.strings } else t
  | .text s => if t.inText then { t with current := t.current ++ s } else t
  | .reference name =>
    if t.inText then { t with current := t.current ++ String.ofList (Xml.resolve name) } else t
  | .close name =>
    match name with
    | "si" => { t with inItem := false, strings := t.current :: t.strings, current := "" }
    | "rPh" => { t with inPhonetic := false }
    | "t" => { t with inText := false }
    | _ => t

/-- The table of some markup. -/
def stringsOf (events : List Xml.Event) : List String :=
  (events.foldl Table.step {}).strings.reverse

end SheetMarkup.Workbook
