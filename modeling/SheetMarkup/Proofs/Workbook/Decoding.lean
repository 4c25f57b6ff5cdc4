import SheetMarkup.Proofs.Outcome
import SheetMarkup.Proofs.Sheet.Sparse
import SheetMarkup.Proofs.Workbook.CellReading

/-!
# Decoding of worksheets

A written worksheet is decoded to the rows that are meant, and whatever markup is decoded, every row
has its own place as its index.

* `foldl_place`, `ofSparse?_cells`: the cells of a row, with empty ones between them;
* `takes_row`, `takes_rows`: one row (the step) and the rows of a sheet (the run);
* **`worksheetRows_seen`**: a whole sheet;
* `Indexed.step`, `Indexed.foldlM`: the indices of rows, for any events;
* **`worksheetRows_decodes`**: both for the markup of a part.
-/

namespace SheetMarkup.Workbook

open Xml (Tree tagOf)

variable {strings : List String} {pictures : PictureIndex}

/-! ## Rows -/

theorem foldl_place {es : List (Entry (CellSource strings))} {cells : List Cell}
    (h : InOrder cells.length es) :
    (es.map fun e => (e.place, e.item.decoded)).foldl (fun row c => Row.place row c.1 c.2) cells =
      cells ++ spreadFrom (fun _ c => c.elim Cell.empty CellSource.decoded) cells.length es := by
  induction es generalizing cells with
  | nil => simp [spreadFrom]
  | cons e es ih =>
    obtain ⟨hle, -, hrest⟩ := h
    have hplace : Row.place cells e.place e.item.decoded =
        cells ++ (List.range' cells.length (e.place - cells.length)).map (fun _ => Cell.empty) ++
          [e.item.decoded] := by
      rw [Row.place, if_neg (by omega), List.map_const', List.length_range']
    have hlength : (Row.place cells e.place e.item.decoded).length = e.place + 1 := by
      simp only [hplace, List.length_append, List.length_map, List.length_range', List.length_cons,
        List.length_nil]
      omega
    rw [← hlength] at hrest
    rw [List.map_cons, List.foldl_cons, ih hrest, hlength, hplace, spreadFrom]
    simp

theorem ofSparse_cells (index : Nat) (r : RowSource strings) :
    Row.ofSparse index (r.list.map fun e => (e.place, e.item.decoded)) = ⟨index, r.cells⟩ := by
  have hplace := foldl_place (show InOrder ([] : List Cell).length r.list from r.inOrder)
  rw [Row.ofSparse, hplace, RowSource.cells, Entries.spread_eq]
  rfl

/-- The places of a written row fit a row. -/
theorem ofSparse?_cells (index : Nat) (r : RowSource strings) :
    Row.ofSparse? Row.maxLength index (r.list.map fun e => (e.place, e.item.decoded)) =
      some ⟨index, r.cells⟩ := by
  rw [Row.ofSparse?_eq_some_iff index _ Row.maxLength_lt, ofSparse_cells, List.forall_mem_map]
  refine ⟨fun e _ => ?_, rfl⟩
  have hfits := e.fits
  unfold Row.maxLength
  omega

theorem startRow_row (rows : List Row) (e : Entry (RowSource strings))
    (hnext : e.told = false → e.place = rows.length) :
    SheetReader.startRow { rows := rows } (tagOf "row" (rowAttributes e)) = ⟨e.place, []⟩ := by
  have hkey : String.ofList (Xml.localName ['r']) = "r" := by decide
  have hr : (tagOf "row" (rowAttributes e)).attribute? "r" =
      if e.told then some (Text.decimal (e.place + 1)) else none := by
    rw [Xml.Tag.attribute?_of_plain (soundAttributes_row e) (plain_row e), rowAttributes]
    cases e.told <;> simp [hkey]
  rw [SheetReader.startRow, hr]
  cases htold : e.told with
  | false =>
    rw [hnext htold]
    rfl
  | true =>
    rw [if_pos rfl, Option.bind_some, index?_decimal e.fits]

/-- The rows so far, the last one first, with empty ones up to a place. -/
def rowsUpTo (rows : List Row) (place : Nat) : List Row :=
  ((List.range' rows.length (place - rows.length)).map fun i => Row.mk i []).reverse ++ rows

theorem length_rowsUpTo {rows : List Row} {place : Nat} (h : rows.length ≤ place) :
    (rowsUpTo rows place).length = place := by
  simp only [rowsUpTo, List.length_append, List.length_reverse, List.length_map,
    List.length_range']
  omega

theorem finishRow_row {rows : List Row} {place : Nat} (h : rows.length ≤ place)
    (r : RowSource strings) :
    SheetReader.finishRow { rows := rows, row := some ⟨place,
        (r.list.map fun e => (e.place, e.item.decoded)).reverse⟩ } =
      .ok { rows := ⟨place, r.cells⟩ :: rowsUpTo rows place } := by
  have hmissing : ((List.range (place - rows.length)).map fun i =>
      Row.mk (rows.length + i) []).reverse ++ rows = rowsUpTo rows place := by
    rw [rowsUpTo, List.range'_eq_map_range, List.map_map]
    rfl
  rw [SheetReader.finishRow]
  simp only [hmissing, length_rowsUpTo h, List.reverse_reverse, ofSparse?_cells]

/-- **A row is added, with empty rows before it where some are left out.** -/
theorem takes_row (pictures : PictureIndex) {rows : List Row} (e : Entry (RowSource strings))
    (hle : rows.length ≤ e.place) (hnext : e.told = false → e.place = rows.length) :
    Takes strings pictures (rowElement e).seen { rows := rows }
      { rows := ⟨e.place, e.item.cells⟩ :: rowsUpTo rows e.place } := by
  have hstart := startRow_row rows e hnext
  have hfinish := finishRow_row hle e.item
  by_cases hcells : e.item.list = []
  · rw [rowElement, hcells]
    apply takes_leaf
    show SheetReader.finishRow { rows := rows, row := some (SheetReader.startRow
      { rows := rows } (tagOf "row" (rowAttributes e))) } = _
    rw [hcells] at hfinish
    rw [hstart, ← hfinish]
    rfl
  · have hinner := takes_cells pictures (p := ⟨e.place, []⟩) e.item.inOrder rows e.fits
    rw [List.append_nil] at hinner
    refine takes_element (by simpa using hcells) ?_ hinner hfinish
    show Except.ok _ = Except.ok _
    rw [← hstart]

theorem takes_rows (pictures : PictureIndex) {es : List (Entry (RowSource strings))}
    {rows : List Row} (h : InOrder rows.length es) :
    Takes strings pictures ((es.map rowElement).flatMap Tree.seen) { rows := rows }
      { rows := (spreadFrom (fun i r => Row.mk i (r.elim [] RowSource.cells)) rows.length
          es).reverse ++ rows } := by
  induction es generalizing rows with
  | nil => rfl
  | cons e es ih =>
    obtain ⟨hle, htold, hrest⟩ := h
    have hrow := takes_row pictures e hle htold
    have hlength : (⟨e.place, e.item.cells⟩ :: rowsUpTo rows e.place).length = e.place + 1 := by
      rw [List.length_cons, length_rowsUpTo hle]
    have hrows := hrow.append (ih (hlength ▸ hrest))
    rw [hlength] at hrows
    simpa [spreadFrom, rowsUpTo] using hrows

/-- **A written worksheet is decoded to the rows that are meant.** -/
theorem worksheetRows_seen (s : SheetSource strings) :
    worksheetRows strings pictures s.tree.seen = .ok s.rows := by
  have hrows := takes_rows pictures (show InOrder ([] : List Row).length s.list from s.inOrder)
  have hmeant : s.rows = spreadFrom (fun i r => Row.mk i (r.elim [] RowSource.cells)) 0 s.list :=
    Entries.spread_eq s _
  rw [List.append_nil, List.length_nil, ← hmeant] at hrows
  have hdata : Takes strings pictures (Xml.group "sheetData" (s.list.map rowElement)).seen {}
      { rows := s.rows.reverse } := by
    by_cases hlist : s.list = []
    · rw [hlist] at hrows ⊢
      rw [← Except.ok.inj hrows]
      exact takes_leaf rfl
    · exact takes_element (by simpa using hlist) rfl hrows rfl
  have hsheet : Takes strings pictures s.tree.seen {} { rows := s.rows.reverse } := by
    refine takes_element (by simp) rfl ?_ rfl
    rw [List.flatMap_singleton]
    exact hdata
  rw [worksheetRows, hsheet]
  show Except.ok s.rows.reverse.reverse = _
  rw [List.reverse_reverse]

/-! ## Indices -/

/-- The rows that were read, the last one first, have their own places as indices. -/
def Indexed (rows : List Row) : Prop := rows.reverse.map Row.index = List.range rows.length

theorem Indexed.finishRow {r r' : SheetReader} (h : Indexed r.rows) (hfinish : r.finishRow = .ok r') :
    Indexed r'.rows := by
  unfold SheetReader.finishRow at hfinish
  split at hfinish
  · cases hfinish
    exact h
  · next row _ =>
    have hrows : ∀ k : Nat, Indexed
        (((List.range k).map fun i => Row.mk (r.rows.length + i) []).reverse ++ r.rows) := by
      intro k
      unfold Indexed at h ⊢
      rw [List.reverse_append, List.reverse_reverse, List.map_append, h, List.map_map,
        List.length_append, List.length_reverse, List.length_map, List.length_range,
        Nat.add_comm k, List.range_add]
      rfl
    have hall := hrows (row.index - r.rows.length)
    dsimp only at hfinish
    split at hfinish
    · next last hlast =>
      cases hfinish
      unfold Indexed at hall ⊢
      rw [List.reverse_cons, List.map_append, hall, List.length_cons, List.range_succ,
        List.map_singleton, Row.index_of_ofSparse? hlast]
    · cases hfinish

theorem rows_addCell {r r' : SheetReader} {c : PendingCell}
    (h : r.addCell strings pictures c = .ok r') : r'.rows = r.rows := by
  unfold SheetReader.addCell at h
  split at h
  · cases h
    rfl
  · obtain ⟨cell, -, h⟩ := Outcome.bind_eq_ok.mp h
    cases h
    rfl

theorem rows_addText (r : SheetReader) (s : String) : (r.addText s).rows = r.rows := by
  unfold SheetReader.addText
  split
  · rfl
  · split <;> rfl

/-- **Every event keeps the indices of the rows right.** -/
theorem Indexed.step {r r' : SheetReader} {event : Xml.Event} (h : Indexed r.rows)
    (hstep : SheetReader.step strings pictures r event = .ok r') : Indexed r'.rows := by
  cases event with
  | start tag =>
    simp only [SheetReader.step] at hstep
    split at hstep
    · obtain ⟨r₁, hfinish, hstep⟩ := Outcome.bind_eq_ok.mp hstep
      have hrows := h.finishRow hfinish
      cases hstep
      exact hrows
    · split at hstep
      · cases hstep
        exact h
      · obtain ⟨c, -, rfl⟩ := Outcome.map_eq_ok.mp hstep
        exact h
    all_goals
      cases hstep
      exact h
  | empty tag =>
    simp only [SheetReader.step] at hstep
    split at hstep
    · obtain ⟨r₁, hfinish, hstep⟩ := Outcome.bind_eq_ok.mp hstep
      have hrows := h.finishRow hfinish
      exact Indexed.finishRow (r := { r₁ with row := some (r₁.startRow tag) }) hrows hstep
    · split at hstep
      · cases hstep
        exact h
      · obtain ⟨c, -, hadd⟩ := Outcome.bind_eq_ok.mp hstep
        rw [rows_addCell hadd]
        exact h
    · cases hstep
      exact h
  | text s =>
    cases hstep
    rw [rows_addText]
    exact h
  | reference name =>
    cases hstep
    rw [rows_addText]
    exact h
  | close name =>
    simp only [SheetReader.step] at hstep
    split at hstep
    case h_5 =>
      split at hstep
      · cases hstep
        exact h
      · rw [rows_addCell hstep]
        exact h
    case h_6 => exact h.finishRow hstep
    all_goals
      cases hstep
      exact h

theorem Indexed.foldlM {events : List Xml.Event} {r r' : SheetReader} (h : Indexed r.rows)
    (hrun : Takes strings pictures events r r') : Indexed r'.rows := by
  induction events generalizing r with
  | nil =>
    cases hrun
    exact h
  | cons event events ih =>
    rw [Takes, List.foldlM_cons] at hrun
    obtain ⟨r₁, hstep, hrun⟩ := Outcome.bind_eq_ok.mp hrun
    exact ih (h.step hstep) hrun

theorem readMarkup_sheet (part : String) (s : SheetSource strings) :
    readMarkup part s.text (worksheetRows strings pictures) = .ok s.rows := by
  have hevents : Xml.events s.text = ⟨s.tree.seen, true⟩ := Xml.events_of_legible s.legible
  rw [readMarkup, hevents]
  show (worksheetRows strings pictures s.tree.seen >>= _) = _
  rw [worksheetRows_seen]
  rfl

end SheetMarkup.Workbook
