import SheetMarkup.Proofs.Workbook.WrittenSheet

/-!
# Reading the cells of a worksheet

What the events of texts, inline strings and cells do to the reader of a worksheet. However the texts
are spelled and whether the columns are told or not, each cell is added to the open row as it is meant.

* `Takes`: what some events do to the reader;
* `takes_spelling`, `takes_run`, `takes_content`: texts, inline strings and the inside of a cell;
* `build_held`: the cell that is built from what was read;
* **`takes_cell`**, `takes_cells`: one cell (the step) and the cells of a row (the run).
-/

namespace SheetMarkup.Workbook

open Xml (Tree tagOf)

variable {strings : List String} {pictures : PictureIndex}

variable (strings pictures) in
/-- Some events take a reader from one state to another. -/
def Takes (events : List Xml.Event) (r r' : SheetReader) : Prop :=
  events.foldlM (SheetReader.step strings pictures) r = .ok r'

/-! ## Elements -/

section Elements

variable {r r₁ r₂ r₃ : SheetReader} {name : String} {attributes : List (String × String)}

theorem Takes.append {events later : List Xml.Event} (h : Takes strings pictures events r r₁)
    (h' : Takes strings pictures later r₁ r₂) : Takes strings pictures (events ++ later) r r₂ := by
  unfold Takes at h ⊢
  rw [List.foldlM_append, h]
  exact h'

theorem takes_leaf (h : SheetReader.step strings pictures r (.empty (tagOf name attributes)) = .ok r₁) :
    Takes strings pictures (Tree.element name attributes []).seen r r₁ := by
  rw [Xml.seen_leaf]
  show SheetReader.step strings pictures r _ >>= pure = .ok r₁
  rw [h]
  rfl

theorem takes_element {children : List Tree} (hne : children ≠ [])
    (hstart : SheetReader.step strings pictures r (.start (tagOf name attributes)) = .ok r₁)
    (hinner : Takes strings pictures (children.flatMap Tree.seen) r₁ r₂)
    (hclose : SheetReader.step strings pictures r₂
      (.close (String.ofList (Xml.localName name.toList))) = .ok r₃) :
    Takes strings pictures (Tree.element name attributes children).seen r r₃ := by
  have hlast : Takes strings pictures [.close (String.ofList (Xml.localName name.toList))] r₂ r₃ := by
    show SheetReader.step strings pictures r₂ _ >>= pure = .ok r₃
    rw [hclose]
    rfl
  rw [Xml.seen_element hne, Takes, List.foldlM_cons, hstart]
  exact hinner.append hlast

end Elements

/-! ## Texts -/

theorem addText_empty (r : SheetReader) : r.addText "" = r := by
  rcases r with ⟨rows, row, _ | c, _ | _, inInline, _ | _, inPhonetic⟩ <;> simp [SheetReader.addText]

theorem addText_addText (r : SheetReader) (s t : String) :
    (r.addText s).addText t = r.addText (s ++ t) := by
  rcases r with ⟨rows, row, _ | c, _ | _, inInline, _ | _, inPhonetic⟩ <;>
    simp [SheetReader.addText, String.append_assoc]

theorem takes_data {text : String} {written : List Char} (h : Xml.Spells text.toList written)
    (r : SheetReader) :
    Takes strings pictures (Xml.dataEvents written) r (r.addText text) := by
  have htext : ∀ (r : SheetReader) (s : String),
      SheetReader.step strings pictures r (.text s) = .ok (r.addText s) := fun _ _ => rfl
  have hreference : ∀ (r : SheetReader) (name : List Char),
      SheetReader.step strings pictures r (.reference name) =
        .ok (r.addText (String.ofList (Xml.resolve name))) := fun _ _ => rfl
  have hdata := Xml.foldlM_data htext hreference addText_empty addText_addText h r
  rw [String.ofList_toList] at hdata
  exact hdata

/-- **However a text is spelled, its element adds it.** -/
theorem takes_spelling {text name : String} (s : Spelling text) {r r₁ r₂ : SheetReader}
    (hempty : SheetReader.step strings pictures r (.empty (tagOf name [])) = .ok r)
    (hstart : SheetReader.step strings pictures r (.start (tagOf name [])) = .ok r₁)
    (hclose : SheetReader.step strings pictures (r₁.addText text)
      (.close (String.ofList (Xml.localName name.toList))) = .ok r₂)
    (hsame : text = "" → r₂ = r) : Takes strings pictures (s.element name).seen r r₂ := by
  rcases s with ⟨_ | written, spells⟩
  · have htext : text = "" := String.toList_inj.mp (spells.eq_nil rfl)
    rw [hsame htext]
    exact takes_leaf hempty
  · refine takes_element (by simp) hstart ?_ hclose
    simpa [Tree.seen] using takes_data spells r₁

/-! ## The inside of a cell -/

theorem takes_value {text : String} (s : Spelling text) (rows : List Row) (row : Option PendingRow)
    (c : PendingCell) :
    Takes strings pictures (s.element "v").seen { rows := rows, row := row, cell := some c }
      { rows := rows, row := row, cell := some { c with value := c.value ++ text } } := by
  apply takes_spelling s rfl rfl rfl
  rintro rfl
  rw [String.append_empty]

theorem takes_formula {text : String} (s : Spelling text) (rows : List Row)
    (row : Option PendingRow) (c : PendingCell) :
    Takes strings pictures (s.element "f").seen { rows := rows, row := row, cell := some c }
      { rows := rows, row := row, cell := some c } :=
  takes_spelling s rfl rfl rfl fun _ => rfl

theorem takes_run (run : Run) (rows : List Row) (row : Option PendingRow) (c : PendingCell) :
    Takes strings pictures run.element.seen
      { rows := rows, row := row, cell := some c, inInline := true }
      { rows := rows, row := row, cell := some { c with inline := c.inline ++ run.said },
        inInline := true } := by
  have hplain : ∀ {text : String} (s : Spelling text), Takes strings pictures (s.element "t").seen
      { rows := rows, row := row, cell := some c, inInline := true }
      { rows := rows, row := row, cell := some { c with inline := c.inline ++ text },
        inInline := true } := by
    intro text s
    apply takes_spelling s rfl rfl rfl
    rintro rfl
    rw [String.append_empty]
  cases run with
  | plain text written => exact hplain written
  | rich text written =>
    refine takes_element (by simp) rfl ?_ rfl
    rw [List.flatMap_singleton]
    exact hplain written
  | phonetic text written =>
    -- what stands inside of a phonetic run is passed over
    have hinner : Takes strings pictures ([written.element "t"].flatMap Tree.seen)
        { rows := rows, row := row, cell := some c, inInline := true, inPhonetic := true }
        { rows := rows, row := row, cell := some c, inInline := true, inPhonetic := true } := by
      rw [List.flatMap_singleton]
      exact takes_spelling written rfl rfl rfl fun _ => rfl
    have hsaid : c.inline ++ (Run.phonetic text written).said = c.inline := String.append_empty
    rw [hsaid]
    exact takes_element (by simp) rfl hinner rfl

theorem takes_runs (runs : List Run) (rows : List Row) (row : Option PendingRow) (c : PendingCell) :
    Takes strings pictures ((runs.map Run.element).flatMap Tree.seen)
      { rows := rows, row := row, cell := some c, inInline := true }
      { rows := rows, row := row,
        cell := some { c with inline := c.inline ++ String.join (runs.map Run.said) },
        inInline := true } := by
  induction runs generalizing c with
  | nil =>
    rw [List.map_nil, List.map_nil, String.join_nil, String.append_empty]
    rfl
  | cons run runs ih =>
    rw [List.map_cons, List.flatMap_cons, List.map_cons, String.join_cons, ← String.append_assoc]
    exact (takes_run run rows row c).append (ih _)

/-- What is written as the value of a cell. -/
def CellSource.value : CellSource strings → String
  | shared index _ _ _ => Text.decimal index
  | formula _ value _ _ => value
  | boolean holds _ => if holds then "1" else "0"
  | number _ value _ => value
  | _ => ""

/-- What the runs of a cell say. -/
def CellSource.inlined : CellSource strings → String
  | inline runs => String.join (runs.map Run.said)
  | _ => ""

/-- The cell that is being read, before its content and behind it. -/
def CellSource.opened (c : CellSource strings) (a : Address) : PendingCell :=
  { row := a.row, column := a.column, type := c.type?, metadata := none }

def CellSource.held (c : CellSource strings) (a : Address) : PendingCell :=
  { c.opened a with value := c.value, inline := c.inlined }

theorem takes_content (c : CellSource strings) (a : Address) (rows : List Row)
    (row : Option PendingRow) :
    Takes strings pictures (c.content.flatMap Tree.seen)
      { rows := rows, row := row, cell := some (c.opened a) }
      { rows := rows, row := row, cell := some (c.held a) } := by
  have hvalue : ∀ {text : String} (s : Spelling text), c.value = text → c.inlined = "" →
      Takes strings pictures ([s.element "v"].flatMap Tree.seen)
        { rows := rows, row := row, cell := some (c.opened a) }
        { rows := rows, row := row, cell := some (c.held a) } := by
    rintro text s rfl hinlined
    have hheld : c.held a = { c.opened a with value := "" ++ c.value } := by
      rw [CellSource.held, hinlined, String.empty_append]
      rfl
    rw [hheld, List.flatMap_singleton]
    exact takes_value s rows row (c.opened a)
  cases c with
  | shared index inRange fits written => exact hvalue written rfl rfl
  | inline runs =>
    rw [CellSource.content, List.flatMap_singleton]
    cases runs with
    | nil => exact takes_leaf rfl
    | cons run runs =>
      refine takes_element (by simp) rfl (takes_runs (run :: runs) rows row _) ?_
      rw [CellSource.opened, String.empty_append]
      rfl
  | formula formula value writtenFormula written =>
    exact (takes_formula writtenFormula rows row _).append (hvalue written rfl rfl)
  | boolean holds written => exact hvalue written rfl rfl
  | number typed value written => exact hvalue written rfl rfl
  | empty => rfl

theorem index?_decimal {n : Nat} (h : n < Text.bound64) : index? (Text.decimal n) = some n := by
  rw [index?, trim_decimal, parseNat?_decimal h]

/-- **What is held by a cell is built to what is meant.** -/
theorem build_held (c : CellSource strings) (a : Address) :
    (c.held a).build strings pictures = .ok c.decoded := by
  unfold PendingCell.build CellSource.decoded
  cases c with
  | shared index inRange fits written =>
    simp only [CellSource.held, CellSource.opened, CellSource.type?, CellSource.value,
      index?_decimal fits, Option.bind_some, List.getElem?_eq_getElem inRange]
    rfl
  | inline runs => rfl
  | formula formula value writtenFormula written => rfl
  | boolean holds written =>
    have hread : Text.trim "0" ≠ "1" ∧ Text.trim "1" = "1" := by decide
    have hshown : Text.isBlankText "FALSE" = false ∧ Text.isBlankText "TRUE" = false := by decide
    cases holds <;> simp [CellSource.held, CellSource.opened, CellSource.type?, CellSource.value,
      CellSource.text, CellSource.kind, Cell.ofText, hread, hshown]
  | number typed value written => cases typed <;> rfl
  | empty => rfl

/-! ## Cells -/

theorem startCell_cell (p : PendingRow) (e : Entry (CellSource strings))
    (hrow : p.index + 1 < Text.bound64) (hnext : e.told = false → e.place = p.nextColumn) :
    p.startCell (tagOf "c" (cellAttributes p.index e)) =
      .ok (e.item.opened ⟨p.index, e.place⟩) := by
  have hplain := plain_cell p.index e
  have hkeys : String.ofList (Xml.localName ['r']) = "r" ∧
      String.ofList (Xml.localName ['t']) = "t" := by
    decide
  have hr : (tagOf "c" (cellAttributes p.index e)).attribute? "r" =
      if e.told then some (Address.text ⟨p.index, e.place⟩) else none := by
    rw [Xml.Tag.attribute?_of_plain (soundAttributes_cell p.index e) hplain, cellAttributes]
    cases e.told <;> cases e.item.type? <;> simp [hkeys]
  have ht : (tagOf "c" (cellAttributes p.index e)).attribute? "t" = e.item.type? := by
    rw [Xml.Tag.attribute?_of_plain (soundAttributes_cell p.index e) hplain, cellAttributes]
    cases e.told <;> cases e.item.type? <;> simp [hkeys]
  have hvm : (tagOf "c" (cellAttributes p.index e)).attribute? "vm" = none := by
    rw [Xml.Tag.attribute?_of_plain (soundAttributes_cell p.index e) hplain, cellAttributes]
    cases e.told <;> cases e.item.type? <;> simp [hkeys]
  rw [PendingRow.startCell, hr, ht, hvm]
  cases htold : e.told with
  | false =>
    have hfits := e.fits
    rw [hnext htold] at hfits ⊢
    simp only [Bool.false_eq_true, if_false, if_pos hfits]
    rfl
  | true =>
    have hparse := Address.parse_text (a := ⟨p.index, e.place⟩) hrow e.fits
    show (Except.mapError _ (Address.parse (Address.text ⟨p.index, e.place⟩)) >>= _) = _
    rw [hparse]
    rfl

/-- **A cell is added to the open row.** -/
theorem takes_cell (p : PendingRow) (e : Entry (CellSource strings)) (rows : List Row)
    (hrow : p.index + 1 < Text.bound64) (hnext : e.told = false → e.place = p.nextColumn) :
    Takes strings pictures (cellElement p.index e).seen { rows := rows, row := some p }
      { rows := rows, row := some { p with cells := (e.place, e.item.decoded) :: p.cells } } := by
  have hstart := startCell_cell p e hrow hnext
  have hadd : SheetReader.addCell strings pictures { rows := rows, row := some p }
      (e.item.held ⟨p.index, e.place⟩) =
        .ok { rows := rows, row := some { p with cells := (e.place, e.item.decoded) :: p.cells } } := by
    rw [SheetReader.addCell, build_held]
    rfl
  by_cases hcontent : e.item.content = []
  · have hheld : e.item.held ⟨p.index, e.place⟩ = e.item.opened ⟨p.index, e.place⟩ := by
      cases hitem : e.item <;> rw [hitem] at hcontent <;> first | rfl | cases hcontent
    rw [cellElement, hcontent]
    apply takes_leaf
    show (p.startCell (tagOf "c" (cellAttributes p.index e)) >>= _) = _
    rw [hstart, ← hheld]
    exact hadd
  · refine takes_element hcontent ?_ (takes_content e.item ⟨p.index, e.place⟩ rows (some p)) hadd
    show (p.startCell (tagOf "c" (cellAttributes p.index e))).map _ = _
    rw [hstart]
    rfl

theorem nextColumn_cons {p : PendingRow} {column : Nat} (h : p.nextColumn ≤ column) (cell : Cell) :
    PendingRow.nextColumn { p with cells := (column, cell) :: p.cells } = column + 1 := by
  have hfold : ∀ (cells : List (Nat × Cell)) (n : Nat),
      cells.foldl (fun n c => max n (c.1 + 1)) (max n (column + 1)) =
        max (cells.foldl (fun n c => max n (c.1 + 1)) n) (column + 1) := by
    intro cells
    induction cells with
    | nil => intro n; rfl
    | cons c cells ih =>
      intro n
      rw [List.foldl_cons, List.foldl_cons, ← ih]
      congr 1
      omega
  have hmax := hfold p.cells 0
  show p.cells.foldl _ (max 0 (column + 1)) = column + 1
  rw [hmax]
  unfold PendingRow.nextColumn at h
  omega

theorem takes_cells (pictures : PictureIndex) {es : List (Entry (CellSource strings))}
    {p : PendingRow} (h : InOrder p.nextColumn es) (rows : List Row)
    (hrow : p.index + 1 < Text.bound64) :
    Takes strings pictures ((es.map (cellElement p.index)).flatMap Tree.seen)
      { rows := rows, row := some p }
      { rows := rows, row := some { p with
          cells := (es.map fun e => (e.place, e.item.decoded)).reverse ++ p.cells } } := by
  induction es generalizing p with
  | nil => rfl
  | cons e es ih =>
    obtain ⟨hle, htold, hrest⟩ := h
    rw [← nextColumn_cons hle e.item.decoded] at hrest
    have hcells := (takes_cell p e rows hrow htold).append (ih hrest hrow)
    simpa using hcells

end SheetMarkup.Workbook
