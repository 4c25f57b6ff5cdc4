import SheetMarkup.Proofs.Csv.Records

/-!
# The records of a sheet

Whatever a text is, the reader takes it apart into records and the breaks between them. Every row with
cells is one of these records; the other rows stand for blank lines.

* `Passage`, `passages`: the records of a text, each where it stands;
* `passagesFrom_of_breaks`, `passagesFrom_of_cons`: in front of a record (the steps);
* `recordRows`, **`cells_recordRows`**: the rows with cells are the records, in their order;
* `passages_of_marked`: the first record of a sheet with a byte order mark.
-/

namespace SheetMarkup.Csv

open Text (byteLength)

/-! ## Passages -/

/-- A record where it stands. A byte order mark at the start of the sheet belongs to the text of the
first record, with the breaks behind it. -/
structure Passage where
  start : Nat
  mark : List Char
  content : List Char
  fields : List (List Char)

namespace Passage

variable (p : Passage)

/-- The text of the record in the source. -/
def text : List Char := p.mark ++ p.content

/-- The place of the record. -/
def whole : Span := ⟨p.start, p.start + byteLength p.text⟩

def cells : List Cell := recordCells p.start p.text p.fields

end Passage

theorem not_of_dropWhile {α : Type} {p : α → Bool} {xs ys : List α} {y : α}
    (h : xs.dropWhile p = y :: ys) : p y = false := by
  have hhead := List.head?_dropWhile_not p xs
  rw [h] at hhead
  simpa using hhead

theorem length_tail_recordAt {text cs : List Char} {c : Char}
    (h : text.dropWhile isBreak = c :: cs) : (recordAt (c :: cs)).tail.length < text.length := by
  have htail : (recordAt (c :: cs)).tail.length < (c :: cs).length :=
    recordAt_tail_lt (not_of_dropWhile h)
  have hdrop := (List.dropWhile_sublist (l := text) isBreak).length_le
  rw [h] at hdrop
  omega

theorem scan_split (mode : Mode) (field : List Char) (fields : List (List Char))
    (used cs : List Char) : (scan mode field fields used cs).used.reverse ++
      (scan mode field fields used cs).rest = used.reverse ++ cs := by
  induction cs generalizing mode field fields used with
  | nil => simp [scan]
  | cons c cs ih =>
    have hstep : ∀ m f fs, (scan m f fs (c :: used) cs).used.reverse ++
        (scan m f fs (c :: used) cs).rest = used.reverse ++ c :: cs := by
      intro m f fs
      rw [ih]
      simp
    rw [scan]
    split_ifs
    all_goals first | exact hstep _ _ _ | simp

theorem Record.used_eq (r : Record) : ∃ breaks, (∀ c ∈ breaks, isBreak c = true) ∧
    r.used.reverse = r.content ++ breaks ∧ r.tail = breaks ++ r.rest := by
  refine ⟨(r.used.takeWhile isBreak).reverse, ?_, ?_, rfl⟩
  · exact fun c hc => List.mem_takeWhile_imp (List.mem_reverse.mp hc)
  · rw [Record.content, ← List.reverse_append, List.takeWhile_append_dropWhile]

/-- The text of a record starts where the record starts, and behind it the sheet goes on. -/
theorem content_recordAt {c : Char} (hc : isBreak c = false) (cs : List Char) :
    (∃ content, (recordAt (c :: cs)).content = c :: content) ∧
      (recordAt (c :: cs)).content ++ (recordAt (c :: cs)).tail = c :: cs := by
  constructor
  · obtain ⟨read, hread⟩ : ∃ read, (recordAt (c :: cs)).used = read ++ [c] := by
      have key : ∀ m f fs, ∃ read, (scan m f fs [c] cs).used = read ++ [c] := by
        intro m f fs
        obtain ⟨read, hread, -⟩ := scan_used m f fs [c] cs
        exact ⟨read, hread⟩
      rw [recordAt, scan, hc]
      simp only [reduceCtorEq, if_false, Bool.false_eq_true]
      split_ifs
      all_goals exact key _ _ _
    rw [Record.content, hread, Text.dropWhile_append_cons hc, List.reverse_append]
    exact ⟨_, rfl⟩
  · obtain ⟨breaks, -, hused, htail⟩ := (recordAt (c :: cs)).used_eq
    rw [htail, ← List.append_assoc, ← hused]
    exact scan_split .start [] [] [] (c :: cs)

/-- The records of a text that starts at an offset. -/
def passagesFrom (offset : Nat) (text : List Char) : List Passage :=
  match _h : text.dropWhile isBreak with
  | [] => []
  | c :: cs =>
    let start := offset + byteLength (text.takeWhile isBreak)
    let record := recordAt (c :: cs)
    ⟨start, [], record.content, record.fields⟩ ::
      passagesFrom (start + byteLength record.content) record.tail
termination_by text.length
decreasing_by exact length_tail_recordAt _h

/-- The records of a sheet. -/
def passages : List Char → List Passage
  | '\ufeff' :: cs =>
    match cs.dropWhile isBreak with
    | [] => []
    | body =>
      let mark := '\ufeff' :: cs.takeWhile isBreak
      let record := recordAt body
      ⟨0, mark, record.content, record.fields⟩ ::
        passagesFrom (byteLength (mark ++ record.content)) record.tail
  | cs => passagesFrom 0 cs

theorem passagesFrom_of_breaks {text : List Char} (h : text.dropWhile isBreak = []) (offset : Nat) :
    passagesFrom offset text = [] := by
  rw [passagesFrom]
  split
  · rfl
  · next c cs heq =>
    rw [h] at heq
    cases heq

theorem passagesFrom_of_cons {text cs : List Char} {c : Char}
    (h : text.dropWhile isBreak = c :: cs) (offset : Nat) : passagesFrom offset text =
      ⟨offset + byteLength (text.takeWhile isBreak), [], (recordAt (c :: cs)).content,
        (recordAt (c :: cs)).fields⟩ ::
          passagesFrom (offset + byteLength (text.takeWhile isBreak) +
            byteLength (recordAt (c :: cs)).content) (recordAt (c :: cs)).tail := by
  rw [passagesFrom]
  split
  · next heq =>
    rw [h] at heq
    cases heq
  · next d ds heq =>
    rw [h] at heq
    cases heq
    rfl

theorem passages_of_unmarked {cs : List Char} (h : cs.head? ≠ some '\ufeff') :
    passages cs = passagesFrom 0 cs := by
  unfold passages
  split
  · exact absurd rfl h
  · rfl

/-- What a sheet with a byte order mark holds behind the mark: breaks only, or a first record. -/
theorem passages_of_marked (cs : List Char) :
    cs.dropWhile isBreak = [] ∧ passages ('\ufeff' :: cs) = [] ∧
        sheetCells ('\ufeff' :: cs) = List.replicate (countBreaks cs) [] ∨
      ∃ c body, cs.dropWhile isBreak = c :: body ∧
        passages ('\ufeff' :: cs) =
          ⟨0, '\ufeff' :: cs.takeWhile isBreak, (recordAt (c :: body)).content,
            (recordAt (c :: body)).fields⟩ ::
          passagesFrom (byteLength ('\ufeff' :: cs.takeWhile isBreak ++
            (recordAt (c :: body)).content)) (recordAt (c :: body)).tail ∧
        sheetCells ('\ufeff' :: cs) =
          recordCells 0 ('\ufeff' :: cs.takeWhile isBreak ++ (recordAt (c :: body)).content)
            (recordAt (c :: body)).fields ::
          rowCells true (byteLength ('\ufeff' :: cs.takeWhile isBreak ++
            (recordAt (c :: body)).content)) (recordAt (c :: body)).tail := by
  cases h : cs.dropWhile isBreak with
  | nil =>
    refine .inl ⟨rfl, ?_, ?_⟩
    · simp [passages, h]
    · simp [sheetCells, h]
  | cons c body =>
    refine .inr ⟨c, body, rfl, ?_, ?_⟩
    · simp [passages, h]
    · simp [sheetCells, h]

/-! ## Rows -/

theorem fields_scan_ne_nil (mode : Mode) (field : List Char) (fields : List (List Char))
    (used cs : List Char) : (scan mode field fields used cs).fields ≠ [] := by
  induction cs generalizing mode field fields used with
  | nil => simp [scan]
  | cons c cs ih =>
    rw [scan]
    split_ifs
    all_goals first | exact ih _ _ _ _ | simp

theorem length_cellsFrom (whole : Span) (cursor : Nat) (text : List Char)
    (fields : List (List Char)) : (cellsFrom whole cursor text fields).length = fields.length := by
  have h := congrArg List.length (unplaced_cellsFrom whole fields cursor text)
  rwa [List.length_map, List.length_map] at h

theorem recordCells_ne_nil (offset : Nat) (text cs : List Char) :
    recordCells offset text (recordAt cs).fields ≠ [] := by
  intro h
  have hlength := length_cellsFrom ⟨offset, offset + byteLength text⟩ offset text (recordAt cs).fields
  rw [← recordCells, h] at hlength
  exact fields_scan_ne_nil .start [] [] [] cs (List.eq_nil_of_length_eq_zero hlength.symm)

theorem filter_rowCells (after : Bool) (offset : Nat) (text : List Char) :
    (rowCells after offset text).filter (fun cells => !cells.isEmpty) =
      (passagesFrom offset text).map Passage.cells := by
  have hblank : ∀ m, (List.replicate m ([] : List Cell)).filter (fun cells => !cells.isEmpty) = [] := by
    intro m
    simp
  induction offset, text using passagesFrom.induct generalizing after with
  | case1 offset text hd => rw [rowCells_of_breaks hd, passagesFrom_of_breaks hd, hblank, List.map_nil]
  | case2 offset text c cs hd start record ih =>
    have hcells := recordCells_ne_nil start record.content (c :: cs)
    rw [rowCells_of_cons hd, passagesFrom_of_cons hd, List.filter_append, hblank, List.nil_append,
      List.filter_cons_of_pos (by simpa using hcells), ih true, List.map_cons]
    rfl

theorem filter_sheetCells (cs : List Char) :
    (sheetCells cs).filter (fun cells => !cells.isEmpty) = (passages cs).map Passage.cells := by
  by_cases h : cs.head? = some '\ufeff'
  · obtain ⟨cs, rfl⟩ := List.head?_eq_some_iff.mp h
    rcases passages_of_marked cs with ⟨-, hp, hs⟩ | ⟨c, body, -, hp, hs⟩
    · rw [hp, hs]
      simp
    · have hcells := recordCells_ne_nil 0
        ('\ufeff' :: cs.takeWhile isBreak ++ (recordAt (c :: body)).content) (c :: body)
      rw [hp, hs, List.filter_cons_of_pos (by simpa using hcells), filter_rowCells, List.map_cons]
      rfl
  · rw [passages_of_unmarked h, sheetCells_of_unmarked h, filter_rowCells]

theorem cells_rowsOf (source : String) : (rowsOf source).map Row.cells = sheetCells source.toList := by
  rw [rowsOf, List.map_map]
  exact List.zipIdx_map_fst 0 _

/-- The rows with cells. -/
def recordRows (source : String) : List Row := (rowsOf source).filter fun r => !r.cells.isEmpty

/-- **The rows with cells are the records**, in their order. -/
theorem cells_recordRows (source : String) :
    (recordRows source).map Row.cells = (passages source.toList).map Passage.cells := by
  rw [← filter_sheetCells, ← cells_rowsOf, List.filter_map]
  rfl

theorem forall₂_passages_recordRows (source : String) :
    List.Forall₂ (fun p row => row.cells = p.cells) (passages source.toList) (recordRows source) := by
  have h : List.Forall₂ (· = ·) ((recordRows source).map Row.cells)
      ((passages source.toList).map Passage.cells) := by
    rw [List.forall₂_eq_eq_eq]
    exact cells_recordRows source
  rw [List.forall₂_map_left_iff, List.forall₂_map_right_iff] at h
  exact h.flip

theorem index_rowsOf (source : String) :
    (rowsOf source).map Row.index = List.range (rowsOf source).length := by
  rw [rowsOf, List.map_map, List.length_map, List.length_zipIdx, List.range_eq_range']
  exact List.zipIdx_map_snd 0 _

end SheetMarkup.Csv
