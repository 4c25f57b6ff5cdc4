import SheetMarkup.Proofs.Sheet.Address
import SheetMarkup.Proofs.Sheet.Entries
import SheetMarkup.Proofs.Xml.Legible
import SheetMarkup.Workbook.Worksheet

/-!
# Written worksheets

Worksheets as they are meant, and how they are written: rows and cells at growing places, told or left
out, and the texts of the cells spelled in any way.

* `Spelling`, `Run`, `CellSource`, `SheetSource`: the parts of a worksheet;
* `CellSource.content`, `cellElement`, `rowElement`, `SheetSource.text`: how they are written;
* `CellSource.decoded`, `SheetSource.rows`: what they mean;
* **`SheetSource.legible`**: a written worksheet can be read back.
-/

namespace SheetMarkup.Workbook

open Xml (Tree)

/-! ## Texts -/

/-- A text as an element holds it, spelled in any way. Without content the element closes itself. -/
structure Spelling (text : String) where
  written : Option String
  spells : Xml.Spells text.toList (written.getD "").toList

/-- The characters with a meaning as entities, all others as they are. -/
def Spelling.escaped (text : String) : Spelling text := ⟨some (Xml.escape text), Xml.spells_escape text⟩

def Spelling.element {text : String} (s : Spelling text) (name : String) : Tree :=
  .element name [] (s.written.toList.map Tree.text)

theorem Spelling.legible {text name : String} (s : Spelling text) (hn : Xml.isName name = true) :
    (s.element name).Legible := by
  have hnone : Xml.SoundAttributes [] := Xml.soundAttributes_of_plain (by decide) (by decide)
  rcases s with ⟨_ | written, spells⟩
  · exact .element hn hnone (by simp)
  · exact .data hn hnone spells

/-! ## Cells -/

/-- A part of an inline string. -/
inductive Run where
  | plain (text : String) (written : Spelling text)
  | rich (text : String) (written : Spelling text)
  | phonetic (text : String) (written : Spelling text)

/-- What a part of an inline string says: phonetic runs are no text of the cell. -/
def Run.said : Run → String
  | .plain text _ => text
  | .rich text _ => text
  | .phonetic _ _ => ""

def Run.element : Run → Tree
  | .plain _ written => written.element "t"
  | .rich _ written => Xml.group "r" [written.element "t"]
  | .phonetic _ written => Xml.group "rPh" [written.element "t"]

/-- What a worksheet tells about a cell. -/
inductive CellSource (strings : List String) where
  | shared (index : Nat) (inRange : index < strings.length) (fits : index < Text.bound64)
      (written : Spelling (Text.decimal index))
  | inline (runs : List Run)
  | formula (formula value : String) (writtenFormula : Spelling formula) (written : Spelling value)
  | boolean (holds : Bool) (written : Spelling (if holds then "1" else "0"))
  /-- The type of a number may be left out. -/
  | number (typed : Bool) (value : String) (written : Spelling value)
  | empty

namespace CellSource

variable {strings : List String}

/-- The type that is written. -/
def type? : CellSource strings → Option String
  | shared .. => some "s"
  | inline .. => some "inlineStr"
  | formula .. => some "str"
  | boolean .. => some "b"
  | number typed _ _ => if typed then some "n" else none
  | empty => none

/-- What is written inside of the cell. -/
def content : CellSource strings → List Tree
  | shared _ _ _ written => [written.element "v"]
  | inline runs => [Xml.group "is" (runs.map Run.element)]
  | formula _ _ writtenFormula written => [writtenFormula.element "f", written.element "v"]
  | boolean _ written => [written.element "v"]
  | number _ _ written => [written.element "v"]
  | empty => []

/-- The text that the cell shows. -/
def text : CellSource strings → String
  | shared index inRange _ _ => strings[index]
  | inline runs => String.join (runs.map Run.said)
  | formula _ value _ _ => value
  | boolean holds _ => if holds then "TRUE" else "FALSE"
  | number _ value _ => value
  | empty => ""

def kind : CellSource strings → CellKind
  | number .. => .numeric
  | _ => .text

/-- The cell that is meant. -/
def decoded (c : CellSource strings) : Cell :=
  if Text.isBlankText c.text then Cell.empty else ⟨c.text, c.kind, none⟩

end CellSource

/-! ## Sheets -/

variable {strings : List String}

/-- The cells of a row, by their columns. -/
abbrev RowSource (strings : List String) : Type := Entries (CellSource strings)

/-- The rows of a worksheet. -/
abbrev SheetSource (strings : List String) : Type := Entries (RowSource strings)

def cellAttributes (row : Nat) (e : Entry (CellSource strings)) : List (String × String) :=
  (if e.told then [("r", Address.text ⟨row, e.place⟩)] else []) ++
    e.item.type?.toList.map fun type => ("t", type)

def cellElement (row : Nat) (e : Entry (CellSource strings)) : Tree :=
  .element "c" (cellAttributes row e) e.item.content

/-- The number of a row counts from one. -/
def rowAttributes (e : Entry (RowSource strings)) : List (String × String) :=
  if e.told then [("r", Text.decimal (e.place + 1))] else []

def rowElement (e : Entry (RowSource strings)) : Tree :=
  .element "row" (rowAttributes e) (e.item.list.map (cellElement e.place))

/-- The namespace of worksheets. -/
def sheetNamespace : String := "http://schemas.openxmlformats.org/spreadsheetml/2006/main"

def SheetSource.tree (s : SheetSource strings) : Tree :=
  .element "worksheet" [("xmlns", sheetNamespace)] [Xml.group "sheetData" (s.list.map rowElement)]

/-- The markup of a worksheet. -/
def SheetSource.text (s : SheetSource strings) : String := Xml.documentText s.tree

/-- The cells that are meant, with empty ones between them. -/
def RowSource.cells (r : RowSource strings) : List Cell :=
  r.spread fun _ c => c.elim Cell.empty CellSource.decoded

/-- The rows that are meant, with empty ones between them. -/
def SheetSource.rows (s : SheetSource strings) : List Row :=
  s.spread fun i r => ⟨i, r.elim [] RowSource.cells⟩

/-! ## Legibility -/

theorem Run.legible (r : Run) : r.element.Legible := by
  have hnone : Xml.SoundAttributes [] := Xml.soundAttributes_of_plain (by decide) (by decide)
  cases r with
  | plain text written => exact written.legible (by decide)
  | rich text written =>
    refine .element (by decide) hnone ?_
    intro t ht
    rw [List.mem_singleton.mp ht]
    exact written.legible (by decide)
  | phonetic text written =>
    refine .element (by decide) hnone ?_
    intro t ht
    rw [List.mem_singleton.mp ht]
    exact written.legible (by decide)

theorem CellSource.legible (c : CellSource strings) : ∀ t ∈ c.content, t.Legible := by
  have hvalue : ∀ {text : String} (s : Spelling text), ∀ t ∈ [s.element "v"], t.Legible := by
    intro text s t ht
    rw [List.mem_singleton.mp ht]
    exact s.legible (by decide)
  cases c with
  | shared index inRange fits written => exact hvalue written
  | inline runs =>
    intro t ht
    rw [List.mem_singleton.mp ht]
    refine .element (by decide) (Xml.soundAttributes_of_plain (by decide) (by decide)) ?_
    intro t ht
    obtain ⟨r, -, rfl⟩ := List.mem_map.mp ht
    exact r.legible
  | formula formula value writtenFormula written =>
    intro t ht
    rcases List.mem_cons.mp ht with rfl | ht
    · exact writtenFormula.legible (by decide)
    · exact hvalue written t ht
  | boolean holds written => exact hvalue written
  | number typed value written => exact hvalue written
  | empty => simp [CellSource.content]

theorem all_isPlain_address (a : Address) : a.text.toList.all Xml.isPlain = true := by
  rw [List.all_eq_true]
  intro c hc
  exact Xml.isPlain_of_class (p := Text.isAsciiAlphanumeric) (by decide)
    (Address.isAsciiAlphanumeric_text hc)

theorem areKeys_of_mem :
    ∀ keys ∈ [[], ["r"], ["t"], ["r", "t"]], Xml.areKeys keys = true := by
  decide

theorem plain_cell (row : Nat) (e : Entry (CellSource strings)) :
    ∀ a ∈ cellAttributes row e, a.2.toList.all Xml.isPlain = true := by
  intro a ha
  rcases List.mem_append.mp ha with ha | ha
  · split at ha
    · rw [List.mem_singleton.mp ha]
      exact all_isPlain_address ⟨row, e.place⟩
    · cases ha
  · obtain ⟨type, htype, rfl⟩ := List.mem_map.mp ha
    rw [Option.mem_toList] at htype
    cases hitem : e.item <;> rw [hitem] at htype <;> simp only [CellSource.type?] at htype
    case number typed value written =>
      cases typed <;> cases htype
      decide
    case empty => cases htype
    all_goals
      cases htype
      decide

theorem plain_row (e : Entry (RowSource strings)) :
    ∀ a ∈ rowAttributes e, a.2.toList.all Xml.isPlain = true := by
  intro a ha
  unfold rowAttributes at ha
  split at ha
  · rw [List.mem_singleton.mp ha]
    exact Xml.all_isPlain_decimal (e.place + 1)
  · cases ha

theorem soundAttributes_cell (row : Nat) (e : Entry (CellSource strings)) :
    Xml.SoundAttributes (cellAttributes row e) := by
  apply Xml.soundAttributes_of_plain
  · have hkeys : (cellAttributes row e).map Prod.fst ∈ [[], ["r"], ["t"], ["r", "t"]] := by
      unfold cellAttributes
      cases e.told <;> cases e.item.type? <;> simp
    exact areKeys_of_mem _ hkeys
  · exact List.all_eq_true.mpr (plain_cell row e)

theorem soundAttributes_row (e : Entry (RowSource strings)) :
    Xml.SoundAttributes (rowAttributes e) := by
  apply Xml.soundAttributes_of_plain
  · have hkeys : (rowAttributes e).map Prod.fst ∈ [[], ["r"], ["t"], ["r", "t"]] := by
      unfold rowAttributes
      cases e.told <;> simp
    exact areKeys_of_mem _ hkeys
  · exact List.all_eq_true.mpr (plain_row e)

theorem SheetSource.legible (s : SheetSource strings) : s.tree.Legible := by
  refine .element (by decide) (Xml.soundAttributes_of_plain (by decide) (by decide)) ?_
  intro t ht
  rw [List.mem_singleton.mp ht]
  refine .element (by decide) (Xml.soundAttributes_of_plain (by decide) (by decide)) ?_
  intro t ht
  obtain ⟨e, -, rfl⟩ := List.mem_map.mp ht
  refine .element (by decide) (soundAttributes_row e) ?_
  intro t ht
  obtain ⟨c, -, rfl⟩ := List.mem_map.mp ht
  exact .element (by decide) (soundAttributes_cell e.place c) c.item.legible

end SheetMarkup.Workbook
