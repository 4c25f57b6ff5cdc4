import Mathlib.Data.List.Forall2
import SheetMarkup.Proofs.Text.Trim
import SheetMarkup.Source.Csv

/-!
# The lines of a comma-separated sheet

The reader passes over the breaks between two records and counts the blank lines in them afterwards.
What it finds is what one sees when the sheet is cut into lines.

* `IsField`, `scan_fields`: a text that is read as one field (the step), and a row of such texts (the
  run);
* `IsRecord`: a text that is read as one record, wherever a line ends;
* `EndsLine`, `Layout`: what ends a line, and the lines of a whole sheet;
* `rowCells_blank`, `rowCells_after`, `rowCells_record`: the reader at a blank line, behind a record
  and at a record (the steps);
* **`rowCells_of_layout`**: every line is one row (the run).
-/

namespace SheetMarkup

/-- The cell without its place in the source text. -/
def Cell.unplaced (c : Cell) : Cell := { c with span := none }

def Row.unplaced (r : Row) : Row := ⟨r.index, r.cells.map Cell.unplaced⟩

end SheetMarkup

namespace SheetMarkup.Csv

/-! ## Fields -/

section Fields

variable {mode : Mode} {field used cs rest : List Char} {fields : List (List Char)}

/-- The text is at its end, or a line ends in front of it. -/
def AtStop (rest : List Char) : Prop := ∀ c ∈ rest.head?, isBreak c = true

theorem scan_comma (h : mode ≠ .quoted) : scan mode field fields used (',' :: cs) =
    scan .start [] (field.reverse :: fields) (',' :: used) cs := by
  simp [scan, h]

theorem scan_stop (h : mode ≠ .quoted) (hrest : AtStop rest) : scan mode field fields used rest =
    ⟨(field.reverse :: fields).reverse, (rest.take 1).reverse ++ used, rest.drop 1⟩ := by
  cases rest with
  | nil => rfl
  | cons c cs =>
    have hc : isBreak c = true := hrest c rfl
    have hcomma : c ≠ ',' := by
      rintro rfl
      exact absurd hc (by decide)
    simp [scan, h, hc, hcomma]

/-- The text is read as one field, whatever stands around it. -/
def IsField (written field : List Char) : Prop :=
  ∀ fields used rest, ∃ mode, mode ≠ .quoted ∧ scan .start [] fields used (written ++ rest) =
    scan mode field.reverse fields (written.reverse ++ used) rest

/-- **Fields with commas between them are read one after the other**, up to the end of the line. -/
theorem scan_fields (hrest : AtStop rest) {written row : List (List Char)}
    (h : List.Forall₂ IsField written row) (hrow : row ≠ []) :
    scan .start [] fields used ([','].intercalate written ++ rest) = ⟨fields.reverse ++ row,
      (rest.take 1).reverse ++ (([','].intercalate written).reverse ++ used), rest.drop 1⟩ := by
  induction h generalizing fields used with
  | nil => exact absurd rfl hrow
  | @cons w f written row hfield h ih =>
    cases h with
    | nil =>
      obtain ⟨mode, hmode, hscan⟩ := hfield fields used rest
      rw [List.intercalate_singleton, hscan, scan_stop hmode hrest]
      simp
    | @cons v g written row _ _ =>
      have hsplit : [','].intercalate (w :: v :: written) ++ rest =
          w ++ ',' :: ([','].intercalate (v :: written) ++ rest) := by
        rw [List.intercalate_cons_cons]
        simp
      obtain ⟨mode, hmode, hscan⟩ := hfield fields used
        (',' :: ([','].intercalate (v :: written) ++ rest))
      rw [hsplit, hscan, scan_comma hmode, ih (List.cons_ne_nil g row), List.intercalate_cons_cons]
      simp

end Fields

/-! ## Records -/

/-- The text is read as one record with these fields, wherever a line ends behind it. -/
structure IsRecord (content : List Char) (fields : List (List Char)) : Prop where
  head : ∃ c cs, content = c :: cs ∧ isBreak c = false
  last : ∃ cs c, content = cs ++ [c] ∧ isBreak c = false
  read : ∀ rest, AtStop rest → recordAt (content ++ rest) =
    ⟨fields, (rest.take 1).reverse ++ content.reverse, rest.drop 1⟩

theorem isRecord_of_fields {written row : List (List Char)} (h : List.Forall₂ IsField written row)
    (hrow : row ≠ []) (head : ∃ c cs, [','].intercalate written = c :: cs ∧ isBreak c = false)
    (last : ∃ cs c, [','].intercalate written = cs ++ [c] ∧ isBreak c = false) :
    IsRecord ([','].intercalate written) row := by
  refine ⟨head, last, ?_⟩
  intro rest hrest
  rw [recordAt, scan_fields hrest h hrow, List.append_nil]
  rfl

theorem IsRecord.content_recordAt {content rest : List Char} {fields : List (List Char)}
    (h : IsRecord content fields) (hrest : AtStop rest) :
    (recordAt (content ++ rest)).content = content ∧ (recordAt (content ++ rest)).tail = rest := by
  obtain ⟨cs, c, hcontent, hc⟩ := h.last
  have hreverse : content.reverse = c :: cs.reverse := by rw [hcontent]; simp
  have hbreak : ∀ d ∈ (rest.take 1).reverse, isBreak d = true := by
    intro d hd
    cases rest with
    | nil => cases hd
    | cons e rest =>
      have hde : d = e := by simpa using hd
      exact hrest d (by rw [hde]; rfl)
  rw [Record.content, Record.tail, h.read rest hrest]
  constructor
  · show (((rest.take 1).reverse ++ content.reverse).dropWhile isBreak).reverse = content
    rw [hreverse, Text.dropWhile_append_stop hbreak hc, ← hreverse, List.reverse_reverse]
  · show (((rest.take 1).reverse ++ content.reverse).takeWhile isBreak).reverse ++ rest.drop 1 = rest
    rw [hreverse, Text.takeWhile_append_stop hbreak hc, List.reverse_reverse, List.take_append_drop]

/-! ## Lines -/

/-- What ends a line in front of a text. A carriage return before a line feed ends no line alone. -/
inductive EndsLine : List Char → List Char → Prop
  | feed (rest : List Char) : EndsLine ['\n'] rest
  | pair (rest : List Char) : EndsLine ['\r', '\n'] rest
  | carriage {rest : List Char} (h : rest.head? ≠ some '\n') : EndsLine ['\r'] rest

/-- A line of a sheet: its text, the fields in it, and what ends it. -/
structure Line where
  content : List Char
  fields : List (List Char)
  stop : List Char

/-- The text of a sheet with its lines. Only the last record may go without an end. -/
inductive Layout : List Char → List Line → Prop
  | nil : Layout [] []
  | last {content : List Char} {fields : List (List Char)} (h : IsRecord content fields) :
      Layout content [⟨content, fields, []⟩]
  | blank {stop rest : List Char} {lines : List Line} (hstop : EndsLine stop rest)
      (h : Layout rest lines) : Layout (stop ++ rest) (⟨[], [], stop⟩ :: lines)
  | record {content stop rest : List Char} {fields : List (List Char)} {lines : List Line}
      (hrecord : IsRecord content fields) (hstop : EndsLine stop rest) (h : Layout rest lines) :
      Layout (content ++ (stop ++ rest)) (⟨content, fields, stop⟩ :: lines)

theorem EndsLine.forall_isBreak {stop rest : List Char} (h : EndsLine stop rest) :
    ∀ c ∈ stop, isBreak c = true := by
  cases h <;> simp [isBreak]

theorem EndsLine.breaks_append {stop rest : List Char} (h : EndsLine stop rest) :
    (stop ++ rest).takeWhile isBreak = stop ++ rest.takeWhile isBreak ∧
      (stop ++ rest).dropWhile isBreak = rest.dropWhile isBreak :=
  ⟨List.takeWhile_append_of_pos h.forall_isBreak, List.dropWhile_append_of_pos h.forall_isBreak⟩

theorem EndsLine.atStop {stop rest : List Char} (h : EndsLine stop rest) :
    AtStop (stop ++ rest) := by
  intro c hc
  cases h <;> cases hc <;> rfl

theorem EndsLine.countBreaks {stop rest : List Char} (h : EndsLine stop rest) :
    countBreaks (stop ++ rest.takeWhile isBreak) = countBreaks (rest.takeWhile isBreak) + 1 := by
  cases h with
  | feed => rfl
  | pair => rfl
  | carriage hne =>
    have hgap : ∀ cs, rest.takeWhile isBreak ≠ '\n' :: cs := by
      intro cs hcs
      obtain ⟨c, rest, rfl⟩ : ∃ c cs, rest = c :: cs := by
        cases rest with
        | nil => cases hcs
        | cons c cs => exact ⟨c, cs, rfl⟩
      rw [List.takeWhile_cons] at hcs
      split at hcs
      · cases hcs
        exact hne rfl
      · cases hcs
    rw [List.singleton_append, Csv.countBreaks]
    · rfl
    · rintro cs - hcs
      exact hgap cs hcs

/-! ## Steps of the reader -/

theorem rowCells_of_breaks {text : List Char} (h : text.dropWhile isBreak = []) (after : Bool)
    (offset : Nat) : rowCells after offset text =
      List.replicate (countBreaks (text.takeWhile isBreak) - (if after then 1 else 0)) [] := by
  rw [rowCells]
  refine (congrArg _ ?_).trans (List.append_nil _)
  split
  · rfl
  · next c cs heq =>
    rw [h] at heq
    cases heq

theorem rowCells_of_cons {text cs : List Char} {c : Char} (h : text.dropWhile isBreak = c :: cs)
    (after : Bool) (offset : Nat) : rowCells after offset text =
      List.replicate (countBreaks (text.takeWhile isBreak) - (if after then 1 else 0)) [] ++
        recordCells (offset + Text.byteLength (text.takeWhile isBreak))
            (recordAt (c :: cs)).content (recordAt (c :: cs)).fields ::
          rowCells true (offset + Text.byteLength (text.takeWhile isBreak) +
            Text.byteLength (recordAt (c :: cs)).content) (recordAt (c :: cs)).tail := by
  conv_lhs => rw [rowCells]
  refine congrArg _ ?_
  split
  · next heq =>
    rw [h] at heq
    cases heq
  · next d ds heq =>
    rw [h] at heq
    cases heq
    rfl

variable {stop rest content : List Char}

theorem rowCells_blank (h : EndsLine stop rest) (offset : Nat) :
    rowCells false offset (stop ++ rest) =
      [] :: rowCells false (offset + Text.byteLength stop) rest := by
  obtain ⟨htake, hdrop⟩ := h.breaks_append
  cases hd : rest.dropWhile isBreak with
  | nil =>
    rw [rowCells_of_breaks (hdrop.trans hd), rowCells_of_breaks hd, htake, h.countBreaks]
    rfl
  | cons c cs =>
    rw [rowCells_of_cons (hdrop.trans hd), rowCells_of_cons hd, htake, h.countBreaks,
      Text.byteLength_append, ← Nat.add_assoc]
    rfl

theorem rowCells_after (h : EndsLine stop rest) (offset : Nat) :
    rowCells true offset (stop ++ rest) = rowCells false (offset + Text.byteLength stop) rest := by
  obtain ⟨htake, hdrop⟩ := h.breaks_append
  cases hd : rest.dropWhile isBreak with
  | nil =>
    rw [rowCells_of_breaks (hdrop.trans hd), rowCells_of_breaks hd, htake, h.countBreaks]
    rfl
  | cons c cs =>
    rw [rowCells_of_cons (hdrop.trans hd), rowCells_of_cons hd, htake, h.countBreaks,
      Text.byteLength_append, ← Nat.add_assoc]
    rfl

theorem rowCells_nil (after : Bool) (offset : Nat) : rowCells after offset [] = [] := by
  rw [rowCells_of_breaks rfl]
  show List.replicate (0 - _) [] = []
  rw [Nat.zero_sub]
  rfl

theorem rowCells_record {fields : List (List Char)} (h : IsRecord content fields)
    (hrest : AtStop rest) (offset : Nat) :
    rowCells false offset (content ++ rest) = recordCells offset content fields ::
      rowCells true (offset + Text.byteLength content) rest := by
  obtain ⟨hcontent, htail⟩ := h.content_recordAt hrest
  have hfields : (recordAt (content ++ rest)).fields = fields := by rw [h.read rest hrest]
  obtain ⟨c, cs, hcs, hc⟩ := h.head
  have hsplit : content ++ rest = c :: (cs ++ rest) := by rw [hcs]; rfl
  have hdrop : (content ++ rest).dropWhile isBreak = c :: (cs ++ rest) := by
    rw [hsplit, List.dropWhile_cons, hc]
    rfl
  have htake : (content ++ rest).takeWhile isBreak = [] := by
    rw [hsplit, List.takeWhile_cons, hc]
    rfl
  rw [rowCells_of_cons hdrop, htake, ← hsplit, hcontent, htail, hfields]
  rfl

/-! ## All rows -/

/-- The cells of lines of which the first one starts at an offset. -/
def lineCells : Nat → List Line → List (List Cell)
  | _, [] => []
  | offset, l :: ls => recordCells offset l.content l.fields ::
      lineCells (offset + Text.byteLength l.content + Text.byteLength l.stop) ls

/-- **Every line of a sheet is one row.** The induction is on the lines. -/
theorem rowCells_of_layout {text : List Char} {lines : List Line} (h : Layout text lines)
    (offset : Nat) : rowCells false offset text = lineCells offset lines := by
  induction h generalizing offset with
  | nil => exact rowCells_nil false offset
  | @last content fields h =>
    have hend : AtStop [] := by rintro c ⟨⟩
    have hrow := rowCells_record h hend offset
    rw [List.append_nil, rowCells_nil] at hrow
    exact hrow
  | blank hstop _ ih =>
    rw [rowCells_blank hstop, ih]
    rfl
  | record hrecord hstop _ ih =>
    rw [rowCells_record hrecord hstop.atStop, rowCells_after hstop, ih]
    rfl

theorem sheetCells_of_unmarked {cs : List Char} (h : cs.head? ≠ some '\ufeff') :
    sheetCells cs = rowCells false 0 cs := by
  unfold sheetCells
  split
  · exact absurd rfl h
  · rfl

/-! ## Cells without their places -/

theorem unplaced_cellsFrom (whole : Span) (fields : List (List Char)) (cursor : Nat)
    (text : List Char) :
    (cellsFrom whole cursor text fields).map Cell.unplaced = fields.map cellOf := by
  have hcell : ∀ (field : List Char) (span : Span),
      ((cellOf field).withSpan span).unplaced = cellOf field := by
    intro field span
    unfold cellOf
    split_ifs <;> rfl
  induction fields generalizing cursor text with
  | nil => rfl
  | cons field fields ih =>
    rw [cellsFrom]
    split
    · rw [List.map_cons, hcell, ih, List.map_cons]
    · rw [List.map_cons, hcell, ih, List.map_cons]

theorem unplaced_lineCells (lines : List Line) (offset : Nat) :
    (lineCells offset lines).map (List.map Cell.unplaced) =
      lines.map fun l => l.fields.map cellOf := by
  induction lines generalizing offset with
  | nil => rfl
  | cons l lines ih => rw [lineCells, List.map_cons, ih, recordCells, unplaced_cellsFrom]; rfl

/-- What is left of a field: nothing where it is blank. -/
def shown (field : String) : String := if Text.isBlankText field then "" else field

theorem value_cellOf (field : List Char) : (cellOf field).value = shown (String.ofList field) := by
  unfold cellOf shown Text.isBlankText
  rw [String.toList_ofList]
  split_ifs <;> rfl

/-- **Up to their places, the rows of a sheet are the fields of its lines.** -/
theorem unplaced_rowsOf {source : String} {lines : List Line} (h : Layout source.toList lines)
    (hmark : source.toList.head? ≠ some '\ufeff') :
    (rowsOf source).map Row.unplaced =
      lines.zipIdx.map fun l => ⟨l.2, l.1.fields.map cellOf⟩ := by
  have hcells := unplaced_lineCells lines 0
  rw [← rowCells_of_layout h, ← sheetCells_of_unmarked hmark] at hcells
  have hrows := congrArg (fun cells => cells.zipIdx.map fun r => Row.mk r.2 r.1) hcells
  rw [rowsOf, List.map_map]
  simpa [List.zipIdx_map, Function.comp_def, Row.unplaced] using hrows

end SheetMarkup.Csv
