import SheetMarkup.Sheet.Row
import SheetMarkup.Text.Bytes

/-!
# Comma-separated sheets

Every line of the text is a row, blank lines included. A field in double quotes may hold commas,
line breaks and doubled quotes; a quote inside a plain field is an ordinary character. A text that
starts with a byte order mark has its first record at the mark.

* `scan`: the fields of the record at the start of a text.
* `recordCells`: the cells of a record, each at the place of its text.
* `rowCells`: the cells of all rows.
* `rowsOf`: the rows of a text.
-/

namespace SheetMarkup.Csv

/-- The characters that end a line. -/
def isBreak (c : Char) : Bool := c == '\n' || c == '\r'

/-- The number of line breaks: a carriage return before a line feed belongs to it. -/
def countBreaks : List Char → Nat
  | [] => 0
  | '\r' :: '\n' :: cs => countBreaks cs + 1
  | c :: cs => if isBreak c then countBreaks cs + 1 else countBreaks cs

/-! ## Records -/

/-- Where the scan of a field stands. -/
inductive Mode where
  /-- Before the first character. -/
  | start
  /-- In a field without quotes, or after the quoted part of one. -/
  | plain
  /-- Between quotes. -/
  | quoted
  /-- After a quote that closes the field or is the first of two. -/
  | closing
  deriving DecidableEq

/-- A record: its fields, the characters read in reverse, and what follows. -/
structure Record where
  fields : List (List Char)
  used : List Char
  rest : List Char

/-- Scans a record. The open field, the fields before it and the characters read are given in
reverse. -/
def scan : Mode → List Char → List (List Char) → List Char → List Char → Record
  | _, field, fields, used, [] => ⟨(field.reverse :: fields).reverse, used, []⟩
  | mode, field, fields, used, c :: cs =>
    if mode = .quoted then
      if c == '"' then scan .closing field fields (c :: used) cs
      else scan .quoted (c :: field) fields (c :: used) cs
    else if c == ',' then scan .start [] (field.reverse :: fields) (c :: used) cs
    else if isBreak c then ⟨(field.reverse :: fields).reverse, c :: used, cs⟩
    else if c == '"' && mode = .start then scan .quoted [] fields (c :: used) cs
    else if c == '"' && mode = .closing then scan .quoted (c :: field) fields (c :: used) cs
    else scan .plain (c :: field) fields (c :: used) cs

theorem scan_used (mode : Mode) (field : List Char) (fields : List (List Char))
    (used cs : List Char) :
    ∃ t, (scan mode field fields used cs).used = t ++ used ∧
      t.length + (scan mode field fields used cs).rest.length = cs.length := by
  induction cs generalizing mode field fields used with
  | nil => exact ⟨[], by simp [scan]⟩
  | cons c cs ih =>
    have step : ∀ m f fs, ∃ t, (scan m f fs (c :: used) cs).used = t ++ used ∧
        t.length + (scan m f fs (c :: used) cs).rest.length = (c :: cs).length := by
      intro m f fs
      obtain ⟨t, h, hl⟩ := ih m f fs (c :: used)
      exact ⟨t ++ [c], by simp [h], by simp; omega⟩
    unfold scan
    split
    · split <;> exact step _ _ _
    · split
      · exact step _ _ _
      · split
        · exact ⟨[c], by simp, by simp; omega⟩
        · split
          · exact step _ _ _
          · split <;> exact step _ _ _

/-! ## Cells -/

/-- A field as a cell: blank, a number or a text. -/
def cellOf (field : List Char) : Cell :=
  if field.all Text.isBlank then Cell.empty
  else if Text.isDecimal (Text.trimChars field) then Cell.numeric (String.ofList field)
  else Cell.ofText (String.ofList field)

/-- The first place of a text in another, as the number of bytes before it, and what follows. -/
def find? (needle : List Char) : Nat → List Char → Option (Nat × List Char)
  | before, [] => if needle.isEmpty then some (before, []) else none
  | before, c :: cs =>
    if needle.isPrefixOf (c :: cs) then some (before, (c :: cs).drop needle.length)
    else find? needle (before + c.utf8Size) cs

/-- The cells of fields that are looked up one after the other in the text of their record. A
field that is empty, or not found as it is, has the whole record as its place. -/
def cellsFrom (whole : Span) : Nat → List Char → List (List Char) → List Cell
  | _, _, [] => []
  | cursor, text, field :: fields =>
    match (find? field cursor text).filter fun _ => !field.isEmpty with
    | some (start, text') =>
      let stop := start + Text.byteLength field
      (cellOf field).withSpan ⟨start, stop⟩ :: cellsFrom whole stop text' fields
    | none => (cellOf field).withSpan whole :: cellsFrom whole cursor text fields

/-- The cells of a record whose text starts at an offset. -/
def recordCells (offset : Nat) (content : List Char) (fields : List (List Char)) : List Cell :=
  cellsFrom ⟨offset, offset + Text.byteLength content⟩ offset content fields

/-! ## Rows -/

/-- The text of a record, without the breaks at its end. -/
def Record.content (r : Record) : List Char := (r.used.dropWhile isBreak).reverse

/-- What follows the text of a record, the breaks at its end included. -/
def Record.tail (r : Record) : List Char := (r.used.takeWhile isBreak).reverse ++ r.rest

/-- The record at the start of a text. -/
def recordAt (cs : List Char) : Record := scan .start [] [] [] cs

theorem takeWhile_length_lt {p : Char → Bool} {t : List Char} {c : Char} (h : p c = false) :
    ((t ++ [c]).takeWhile p).length ≤ t.length := by
  induction t with
  | nil => simp [h]
  | cons x t ih => by_cases hx : p x <;> simp_all

/-- A record that starts with no break takes up some text. -/
theorem recordAt_tail_lt {c : Char} {cs : List Char} (h : isBreak c = false) :
    (recordAt (c :: cs)).tail.length < (c :: cs).length := by
  have key : ∀ m f fs, (((scan m f fs [c] cs).used.takeWhile isBreak).reverse ++
      (scan m f fs [c] cs).rest).length < (c :: cs).length := by
    intro m f fs
    obtain ⟨t, hu, hl⟩ := scan_used m f fs [c] cs
    have := takeWhile_length_lt (p := isBreak) (t := t) (c := c) h
    simp only [List.length_append, List.length_reverse, List.length_cons, hu]
    omega
  unfold Record.tail recordAt scan
  simp only [h, reduceCtorEq, if_false, Bool.false_eq_true, decide_false, Bool.and_false]
  split
  · exact key _ _ _
  · split <;> exact key _ _ _

/-- The cells of the rows from an offset on. After a record the first break only ends it. -/
def rowCells (after : Bool) (offset : Nat) (text : List Char) : List (List Cell) :=
  let gap := text.takeWhile isBreak
  let blanks := countBreaks gap - (if after then 1 else 0)
  List.replicate blanks [] ++
    match _hrecord : text.dropWhile isBreak with
    | [] => []
    | c :: cs =>
      let start := offset + Text.byteLength gap
      let record := recordAt (c :: cs)
      recordCells start record.content record.fields ::
        rowCells true (start + Text.byteLength record.content) record.tail
termination_by text.length
decreasing_by
  have hc : isBreak c = false := by
    have := List.head?_dropWhile_not isBreak text
    rw [_hrecord] at this
    simpa using this
  have h1 : (recordAt (c :: cs)).tail.length < (c :: cs).length := recordAt_tail_lt hc
  have h2 := (List.dropWhile_sublist (l := text) isBreak).length_le
  rw [_hrecord] at h2
  omega

/-- The cells of the rows of a text. The mark at its start belongs to the first record. -/
def sheetCells : List Char → List (List Cell)
  | '\ufeff' :: cs =>
    match cs.dropWhile isBreak with
    | [] => List.replicate (countBreaks cs) []
    | body =>
      let record := recordAt body
      let content := '\ufeff' :: cs.takeWhile isBreak ++ record.content
      recordCells 0 content record.fields ::
        rowCells true (Text.byteLength content) record.tail
  | cs => rowCells false 0 cs

/-- The rows of a text. -/
def rowsOf (source : String) : List Row :=
  (sheetCells source.toList).zipIdx.map fun r => ⟨r.2, r.1⟩

end SheetMarkup.Csv
