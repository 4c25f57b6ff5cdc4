import SheetMarkup.Proofs.Csv.Reports
import SheetMarkup.Proofs.Csv.Search

/-!
# Reading by positions

The rows of a sheet can be put together from what the reader of records reports and from slices of the
source at positions that follow from the reports. Each slice needs both of its ends between two
characters, in order and inside the source, and each report has to hold texts. None of this ever fails.

* `clamp?`, `cellsChecked`, `Progress.add?`, `rowsChecked`: reading by positions, which may fail;
* `Meets`, `Course`: how the reader gets from record to record;
* `cellsChecked_eq`: the cells of a record; `add?_record`: one record (the step); `foldlM_add?`: all
  records (the run);
* **`rowsChecked_eq`**: it does not fail, and gives the rows of the sheet;
* `Report.place?`, `Report.Gives`: the place of a record, and the row that it gives;
* **`rowsOf_reported`**: every sheet is read, and every row with cells is given by its record.
-/

namespace SheetMarkup.Csv

open Text (byteLength byteLength_append slice? slice?_eq_some StandsAt utf8)

/-! ## Readings that may fail -/

/-- A number moved between two bounds, which have to be in order. -/
def clamp? (n low high : Nat) : Option Nat :=
  if low ≤ high then some (max low (min n high)) else none

/-- The fields of a report, if all of them are texts. -/
def Report.texts? (r : Report) : Option (List (List Char)) :=
  r.fields.mapM fun bytes => (Text.decodeUtf8? bytes.toByteArray).map String.toList

/-- The cells of fields that are looked up between a cursor and the end of their record. -/
def cellsChecked (source : List Char) (whole : Span) : Nat → List (List Char) → Option (List Cell)
  | _, [] => some []
  | cursor, field :: fields => do
    let text ← slice? source cursor whole.stop
    match (find? field cursor text).filter fun _ => !field.isEmpty with
    | some (start, _) =>
      let stop := start + byteLength field
      let cells ← cellsChecked source whole stop fields
      some ((cellOf field).withSpan ⟨start, stop⟩ :: cells)
    | none =>
      let cells ← cellsChecked source whole cursor fields
      some ((cellOf field).withSpan whole :: cells)

/-- Rows of these cells, the first of them with a given index. -/
def numbered (index : Nat) (cells : List (List Cell)) : List Row :=
  (cells.zipIdx index).map fun r => ⟨r.2, r.1⟩

/-- The rows read so far, and where the text of the last record ends. -/
structure Progress where
  rows : List Row
  stop : Option Nat

namespace Progress

variable (source : List Char) (p : Progress)

/-- The rows with the blank lines up to a position. Behind a record the first break only ends it. -/
def blanks? (position : Nat) : Option (List Row) := do
  let gap ← slice? source (p.stop.getD 0) position
  let blanks := countBreaks gap - (if p.stop.isSome then 1 else 0)
  some (p.rows ++ numbered p.rows.length (List.replicate blanks []))

/-- The rows of some more lines, the last of which is a record that ends there. -/
def append (cells : List (List Cell)) (stop : Nat) : Progress :=
  ⟨p.rows ++ numbered p.rows.length cells, some stop⟩

/-- Takes up a report. -/
def add? (r : Report) : Option Progress := do
  let fields ← r.texts?
  let position ← clamp? r.position (p.stop.getD 0) (byteLength source)
  let rest ← slice? source position (byteLength source)
  let start := position + byteLength rest - byteLength (rest.dropWhile isBreak)
  let rows ← p.blanks? source start
  let reached ← clamp? r.reached start (byteLength source)
  let text ← slice? source start reached
  let whole : Span := ⟨start, start + byteLength (Text.dropEndWhile isBreak text)⟩
  let cells ← cellsChecked source whole start fields
  some ⟨rows ++ [⟨rows.length, cells⟩], some whole.stop⟩

end Progress

/-- The rows of a sheet, by positions. -/
def rowsChecked (source : List Char) : Option (List Row) := do
  let p ← (reports (utf8 source)).foldlM (Progress.add? source) ⟨[], none⟩
  p.blanks? source (byteLength source)

/-! ## They do not fail -/

theorem clamp?_of_le {n low high : Nat} (hlow : low ≤ n) (hhigh : n ≤ high) :
    clamp? n low high = some n := by
  rw [clamp?, if_pos (hlow.trans hhigh)]
  congr 1
  omega

theorem texts?_of_fields {r : Report} {fields : List (List Char)} (h : r.fields = fields.map utf8) :
    r.texts? = some fields := by
  have hmapM : ∀ fields : List (List Char), (fields.map utf8).mapM (fun bytes =>
      (Text.decodeUtf8? bytes.toByteArray).map String.toList) = some fields := by
    intro fields
    induction fields with
    | nil => rfl
    | cons field fields ih =>
      rw [List.map_cons, List.mapM_cons, ih, Text.decodeUtf8?_utf8, Option.map_some,
        String.toList_ofList]
      rfl
  rw [Report.texts?, h, hmapM]

theorem numbered_append (index : Nat) (xs ys : List (List Cell)) :
    numbered index (xs ++ ys) = numbered index xs ++ numbered (index + xs.length) ys := by
  rw [numbered, List.zipIdx_append, List.map_append]
  rfl

theorem length_numbered (index : Nat) (xs : List (List Cell)) :
    (numbered index xs).length = xs.length := by
  rw [numbered, List.length_map, List.length_zipIdx]

section Cells

variable {source behind : List Char} {whole : Span}

/-- **All slices of a record can be taken.** -/
theorem cellsChecked_eq {before text : List Char} (hsource : source = before ++ (text ++ behind))
    (hstop : whole.stop = byteLength (before ++ text)) (fields : List (List Char)) :
    cellsChecked source whole (byteLength before) fields =
      some (cellsFrom whole (byteLength before) text fields) := by
  induction fields generalizing before text with
  | nil => rfl
  | cons field fields ih =>
    have hslice : slice? source (byteLength before) whole.stop = some text :=
      slice?_eq_some.mpr ⟨before, behind, hsource, rfl, hstop⟩
    rw [cellsChecked, hslice, Option.bind_eq_bind, Option.bind_some, cellsFrom]
    cases hfind : (find? field (byteLength before) text).filter fun _ => !field.isEmpty with
    | none =>
      show (cellsChecked source whole (byteLength before) fields).bind _ = _
      rw [ih hsource hstop]
      rfl
    | some found =>
      obtain ⟨start, tail⟩ := found
      obtain ⟨hfound, hne⟩ := Option.filter_eq_some_iff.mp hfind
      have hne : field ≠ [] := by simpa using hne
      obtain ⟨front, rfl, -, rfl⟩ := (find?_eq_some hne).mp hfound
      have hcursor : byteLength before + byteLength front + byteLength field =
          byteLength (before ++ (front ++ field)) := by
        simp only [byteLength_append]
        omega
      have hsource' : source = before ++ (front ++ field) ++ (tail ++ behind) := by
        rw [hsource]
        simp
      have hrest := ih hsource' (by rw [hstop]; simp)
      show (cellsChecked source whole _ fields).bind _ = _
      rw [← hcursor] at hrest
      rw [hrest]
      rfl

end Cells

section Records

variable {source before behind : List Char}

theorem blanks?_eq {p : Progress} {gap : List Char} (hsource : source = before ++ (gap ++ behind))
    (hp : p.stop.getD 0 = byteLength before) {position : Nat}
    (hposition : position = byteLength (before ++ gap)) :
    p.blanks? source position = some (p.rows ++ numbered p.rows.length
      (List.replicate (countBreaks gap - (if p.stop.isSome then 1 else 0)) [])) := by
  have hslice : slice? source (p.stop.getD 0) position = some gap :=
    slice?_eq_some.mpr ⟨before, behind, hsource, hp, hposition⟩
  rw [Progress.blanks?, hslice]
  rfl

/-- **One record is taken up.** The reader stood in front of it or in the breaks before it, and has got
behind it or into the breaks that follow it. -/
theorem add?_record {p : Progress} {r : Report} {front gap content breaks : List Char}
    {fields : List (List Char)}
    (hsource : source = before ++ ((front ++ gap) ++ (content ++ (breaks ++ behind))))
    (hp : p.stop.getD 0 = byteLength before) (hfields : r.fields = fields.map utf8)
    (hposition : r.position = byteLength (before ++ front))
    (hgap : ∀ c ∈ gap, isBreak c = true) (hhead : ∃ c cs, content = c :: cs ∧ isBreak c = false)
    (htrimmed : Text.dropEndWhile isBreak (content ++ breaks) = content)
    (hreached : r.reached = byteLength (before ++ (front ++ gap) ++ content ++ breaks)) :
    p.add? source r = some (p.append
      (List.replicate (countBreaks (front ++ gap) - (if p.stop.isSome then 1 else 0)) [] ++
        [recordCells (byteLength (before ++ (front ++ gap))) content fields])
      (byteLength (before ++ (front ++ gap) ++ content))) := by
  have hlength : byteLength source = byteLength before + byteLength front + byteLength gap +
      byteLength content + byteLength breaks + byteLength behind := by
    rw [hsource]
    simp only [byteLength_append]
    omega
  -- the reader never goes back, so no position has to be moved
  have hclamp : clamp? r.position (p.stop.getD 0) (byteLength source) =
      some (byteLength (before ++ front)) := by
    rw [hposition, hp]
    refine clamp?_of_le ?_ ?_ <;> rw [byteLength_append] <;> omega
  have hrest : slice? source (byteLength (before ++ front)) (byteLength source) =
      some (gap ++ (content ++ (breaks ++ behind))) := by
    refine slice?_eq_some.mpr ⟨before ++ front, [], by rw [hsource]; simp, rfl, ?_⟩
    rw [hsource]
    simp
  have hdrop : (gap ++ (content ++ (breaks ++ behind))).dropWhile isBreak =
      content ++ (breaks ++ behind) := by
    obtain ⟨c, cs, rfl, hc⟩ := hhead
    exact Text.dropWhile_append_stop hgap hc _
  have hstart : byteLength (before ++ front) + byteLength (gap ++ (content ++ (breaks ++ behind))) -
      byteLength ((gap ++ (content ++ (breaks ++ behind))).dropWhile isBreak) =
        byteLength (before ++ (front ++ gap)) := by
    rw [hdrop]
    simp only [byteLength_append]
    omega
  have hblanks : p.blanks? source (byteLength (before ++ (front ++ gap))) = _ :=
    blanks?_eq hsource hp rfl
  have hclamp' : clamp? r.reached (byteLength (before ++ (front ++ gap))) (byteLength source) =
      some (byteLength (before ++ (front ++ gap) ++ (content ++ breaks))) := by
    rw [hreached, List.append_assoc _ content]
    refine clamp?_of_le ?_ ?_ <;> simp only [byteLength_append] <;> omega
  have htext : slice? source (byteLength (before ++ (front ++ gap)))
      (byteLength (before ++ (front ++ gap) ++ (content ++ breaks))) = some (content ++ breaks) :=
    slice?_eq_some.mpr ⟨before ++ (front ++ gap), behind, by rw [hsource]; simp, rfl, rfl⟩
  have hstop : byteLength (before ++ (front ++ gap)) + byteLength content =
      byteLength (before ++ (front ++ gap) ++ content) := (byteLength_append _ _).symm
  have hsource' : source = before ++ (front ++ gap) ++ (content ++ (breaks ++ behind)) := by
    rw [hsource]
    simp
  have hcells : cellsChecked source ⟨byteLength (before ++ (front ++ gap)),
      byteLength (before ++ (front ++ gap) ++ content)⟩ (byteLength (before ++ (front ++ gap))) fields =
        _ := cellsChecked_eq hsource' rfl fields
  simp only [Progress.add?, texts?_of_fields hfields, hclamp, hrest, hstart, hblanks, hclamp', htext,
    htrimmed, hstop, hcells, Option.bind_eq_bind, Option.bind_some]
  rw [Progress.append, numbered_append, List.length_append, length_numbered, List.append_assoc,
    recordCells, hstop]
  rfl

end Records

/-! ## The course of the reader -/

/-- The first record of a text, with the breaks in front of it and those that are read with it. -/
structure Meets (text gap breaks : List Char) (r : Record) : Prop where
  before : ∀ c ∈ gap, isBreak c = true
  behind : ∀ c ∈ breaks, isBreak c = true
  head : ∃ c cs, r.content = c :: cs ∧ isBreak c = false
  trimmed : Text.dropEndWhile isBreak (r.content ++ breaks) = r.content
  split : text = gap ++ (r.content ++ (breaks ++ r.rest))
  tail : r.tail = breaks ++ r.rest
  used : r.used.reverse = r.content ++ breaks

theorem meets_recordAt {text cs : List Char} {c : Char} (h : text.dropWhile isBreak = c :: cs) :
    ∃ breaks, Meets text (text.takeWhile isBreak) breaks (recordAt (c :: cs)) := by
  have hc : isBreak c = false := not_of_dropWhile h
  obtain ⟨⟨content, hcontent⟩, hsplit⟩ := content_recordAt hc cs
  obtain ⟨breaks, hbreaks, hused, htail⟩ := (recordAt (c :: cs)).used_eq
  refine ⟨breaks, ?_⟩
  constructor
  case before => exact fun d hd => List.mem_takeWhile_imp hd
  case behind => exact hbreaks
  case head => exact ⟨c, content, hcontent, hc⟩
  case trimmed => rw [← hused, Text.dropEndWhile, List.reverse_reverse, Record.content]
  case split =>
    rw [← htail, hsplit, ← h, List.takeWhile_append_dropWhile]
  case tail => exact htail
  case used => exact hused

/-- How the reader gets through a text: it reads record by record, until nothing but breaks is left. -/
inductive Course : List Char → Prop
  | done {text : List Char} (h : text.dropWhile isBreak = []) : Course text
  | record {text cs breaks : List Char} {c : Char} (h : text.dropWhile isBreak = c :: cs)
      (hmeets : Meets text (text.takeWhile isBreak) breaks (recordAt (c :: cs)))
      (hrest : Course (recordAt (c :: cs)).rest) : Course text

theorem course (text : List Char) : Course text := by
  obtain ⟨n, hn⟩ : ∃ n, text.length = n := ⟨_, rfl⟩
  induction n using Nat.strong_induction_on generalizing text with
  | _ n ih =>
    cases hd : text.dropWhile isBreak with
    | nil => exact .done hd
    | cons c cs =>
      obtain ⟨breaks, hmeets⟩ := meets_recordAt hd
      have hlt := length_tail_recordAt hd
      rw [hmeets.tail, List.length_append] at hlt
      exact .record hd hmeets (ih _ (by omega) _ rfl)

theorem reportsFrom_record {text cs breaks : List Char} {c : Char}
    (h : text.dropWhile isBreak = c :: cs)
    (hmeets : Meets text (text.takeWhile isBreak) breaks (recordAt (c :: cs)))
    (before front : List Char) {reached : Nat} (hreached : reached = byteLength (before ++
      (front ++ text.takeWhile isBreak) ++ (recordAt (c :: cs)).content ++ breaks)) :
    reportsFrom (byteLength (before ++ front)) 0 (utf8 text) =
      ⟨(recordAt (c :: cs)).fields.map utf8, byteLength (before ++ front), reached⟩ ::
        reportsFrom reached 0 (utf8 (recordAt (c :: cs)).rest) := by
  refine reportsFrom_of_cons _ _ h ?_
  rw [hreached, hmeets.used]
  simp only [byteLength_append]
  omega

theorem Progress.rows_append (p : Progress) (cells : List (List Cell)) (stop : Nat)
    (more : List (List Cell)) :
    (p.append cells stop).rows ++ numbered (p.append cells stop).rows.length more =
      p.rows ++ numbered p.rows.length (cells ++ more) := by
  rw [Progress.append, numbered_append, List.length_append, length_numbered, List.append_assoc]

/-- **All records are taken up.** In front of the text that is left to read there may be breaks that
stand behind the last record. -/
theorem foldlM_add? {text : List Char} (hcourse : Course text) {source before front : List Char}
    (hsource : source = before ++ (front ++ text)) (hfront : ∀ c ∈ front, isBreak c = true)
    {p : Progress} (hp : p.stop.getD 0 = byteLength before) :
    ((reportsFrom (byteLength (before ++ front)) 0 (utf8 text)).foldlM (Progress.add? source) p).bind
        (fun p => p.blanks? source (byteLength source)) =
      some (p.rows ++ numbered p.rows.length
        (rowCells p.stop.isSome (byteLength before) (front ++ text))) := by
  induction hcourse generalizing before front p with
  | @done text hd =>
    have htake : (front ++ text).takeWhile isBreak = front ++ text := by
      rw [List.takeWhile_append_of_pos hfront,
        List.takeWhile_eq_self_iff.mpr (List.dropWhile_eq_nil_iff.mp hd)]
    rw [reportsFrom_of_breaks _ _ hd,
      rowCells_of_breaks ((List.dropWhile_append_of_pos hfront).trans hd), htake]
    have hsource' : source = before ++ ((front ++ text) ++ []) := by
      rw [hsource]
      simp
    exact blanks?_eq hsource' hp (by rw [hsource])
  | @record text cs breaks c hd hmeets _ ih =>
    have hreport := reportsFrom_record hd hmeets before front rfl
    have hcells := rowCells_of_cons ((List.dropWhile_append_of_pos hfront).trans hd) p.stop.isSome
      (byteLength before)
    rw [List.takeWhile_append_of_pos hfront] at hcells
    generalize recordAt (c :: cs) = record, text.takeWhile isBreak = gap at *
    have hsource' : source =
        before ++ ((front ++ gap) ++ (record.content ++ (breaks ++ record.rest))) := by
      rw [hsource, List.append_assoc front, ← hmeets.split]
    have hstep := add?_record (p := p) (r := ⟨record.fields.map utf8, byteLength (before ++ front),
      byteLength (before ++ (front ++ gap) ++ record.content ++ breaks)⟩) hsource' hp rfl rfl
      hmeets.before hmeets.head hmeets.trimmed rfl
    have hnext : source = before ++ (front ++ gap) ++ record.content ++ (breaks ++ record.rest) := by
      rw [hsource']
      simp
    have hrun := ih hnext hmeets.behind (p := p.append (List.replicate (countBreaks (front ++ gap) -
          (if p.stop.isSome then 1 else 0)) [] ++
        [recordCells (byteLength (before ++ (front ++ gap))) record.content record.fields])
        (byteLength (before ++ (front ++ gap) ++ record.content))) rfl
    rw [hreport, List.foldlM_cons, hstep, Option.bind_eq_bind, Option.bind_some, hrun,
      Progress.rows_append, hcells, hmeets.tail, ← byteLength_append, ← byteLength_append,
      List.append_assoc (List.replicate _ _)]
    rfl

theorem countBreaks_mark (cs : List Char) : countBreaks ('\ufeff' :: cs) = countBreaks cs := by
  rw [countBreaks]
  · rfl
  · rintro _ ⟨⟩

/-- A byte order mark and the breaks behind it belong to the text of the first record. -/
theorem Meets.marked {text gap breaks : List Char} {r : Record} (h : Meets text gap breaks r) :
    (∃ c cs, '\ufeff' :: gap ++ r.content = c :: cs ∧ isBreak c = false) ∧
      Text.dropEndWhile isBreak (('\ufeff' :: gap ++ r.content) ++ breaks) =
        '\ufeff' :: gap ++ r.content ∧
      '\ufeff' :: text = ('\ufeff' :: gap ++ r.content) ++ (breaks ++ r.rest) ∧
      0 + 3 + byteLength gap + byteLength r.used.reverse =
        byteLength (('\ufeff' :: gap ++ r.content) ++ breaks) := by
  refine ⟨⟨_, _, rfl, rfl⟩, ?_, ?_, ?_⟩
  · obtain ⟨c, content, hcontent, hc⟩ := h.head
    have hlast : ∀ front, Text.dropEndWhile isBreak (front ++ (r.content ++ breaks)) =
        front ++ Text.dropEndWhile isBreak (r.content ++ breaks) := by
      intro front
      have hcons := Text.dropEndWhile_append_cons hc [] (content ++ breaks)
      rw [hcontent, List.cons_append, Text.dropEndWhile_append_cons hc]
      exact congrArg _ hcons.symm
    rw [List.append_assoc, hlast, h.trimmed]
  · rw [h.split]
    simp
  · have hmarkSize : '\ufeff'.utf8Size = 3 := by decide
    rw [h.used]
    simp only [byteLength_append, List.cons_append, Text.byteLength_cons, hmarkSize]
    omega

/-- **Reading by positions does not fail, and gives the rows of the sheet.** -/
theorem rowsChecked_eq (source : List Char) :
    rowsChecked source = some (numbered 0 (sheetCells source)) := by
  rw [rowsChecked, Option.bind_eq_bind]
  by_cases hmark : source.head? = some '\ufeff'
  · obtain ⟨cs, rfl⟩ := List.head?_eq_some_iff.mp hmark
    rw [reports_marked]
    rcases passages_of_marked cs with ⟨hd, -, hcells⟩ | ⟨c, body, hd, -, hcells⟩
    · rw [reportsFrom_of_breaks _ _ hd, hcells]
      have hsource : '\ufeff' :: cs = [] ++ (('\ufeff' :: cs) ++ []) := by simp
      have hblanks : Progress.blanks? ('\ufeff' :: cs) ⟨[], none⟩ (byteLength ('\ufeff' :: cs)) = _ :=
        blanks?_eq hsource rfl rfl
      rw [countBreaks_mark] at hblanks
      exact hblanks
    · -- the first record starts with the mark, and all others are read as without it
      obtain ⟨breaks, hmeets⟩ := meets_recordAt hd
      have hreport := reportsFrom_of_cons 0 3 hd rfl
      generalize recordAt (c :: body) = record, cs.takeWhile isBreak = gap at *
      obtain ⟨hhead, htrimmed, hsource, hreached⟩ := hmeets.marked
      generalize '\ufeff' :: gap ++ record.content = text at *
      have hsource' : '\ufeff' :: cs = [] ++ (([] ++ []) ++ (text ++ (breaks ++ record.rest))) :=
        hsource
      have hstep := add?_record (p := ⟨[], none⟩)
        (r := ⟨record.fields.map utf8, 0, byteLength (text ++ breaks)⟩) hsource' rfl rfl rfl (by simp)
        hhead htrimmed rfl
      have hrun := foldlM_add? (course record.rest) hsource hmeets.behind
        (p := Progress.append ⟨[], none⟩ [recordCells 0 text record.fields] (byteLength text)) rfl
      rw [hreport, List.foldlM_cons, hreached, hstep, hcells, hmeets.tail]
      exact hrun
  · rw [reports_unmarked hmark, sheetCells_of_unmarked hmark]
    have hsource : source = [] ++ ([] ++ source) := rfl
    exact foldlM_add? (course source) hsource (by simp) rfl

/-! ## What a record gives -/

/-- The place of the text of a record: what lies between its positions, without the breaks at both
ends. -/
def Report.place? (source : List Char) (r : Report) : Option Span := do
  let text ← slice? source r.position r.reached
  let start := r.position + byteLength (text.takeWhile isBreak)
  some ⟨start, start + byteLength (Text.trimWhile isBreak text)⟩

/-- The row is read from the record that is reported, and all its cells have their places there. -/
structure Report.Gives (source : List Char) (r : Report) (row : Row) (whole : Span) : Prop where
  place : r.place? source = some whole
  fields : ∃ fields, r.texts? = some fields ∧ row.cells.map Cell.unplaced = fields.map cellOf
  placed : ∀ c ∈ row.cells, c.PlacedIn source whole
  ascending : (partPlaces whole row.cells).Pairwise fun s t => s.start < s.stop ∧ s.stop ≤ t.start

/-- The report tells of a record of the source. -/
structure Report.TellsOf (source : List Char) (r : Report) (p : Passage) : Prop where
  fields : r.fields = p.fields.map utf8
  place : r.place? source = some p.whole
  text : ∃ before behind, source = before ++ (p.text ++ behind) ∧ p.start = byteLength before

theorem Report.TellsOf.gives {source : List Char} {r : Report} {p : Passage} (h : r.TellsOf source p)
    {row : Row} (hrow : row.cells = p.cells) : r.Gives source row p.whole := by
  obtain ⟨before, behind, hsource, hstart⟩ := h.text
  constructor
  case place => exact h.place
  case fields =>
    refine ⟨p.fields, texts?_of_fields h.fields, ?_⟩
    rw [hrow, Passage.cells, recordCells, unplaced_cellsFrom]
  case placed =>
    have hstop : p.whole.stop = byteLength (before ++ p.text) := by
      rw [byteLength_append, ← hstart]
      rfl
    rw [hrow]
    show ∀ c ∈ cellsFrom p.whole p.start p.text p.fields, _
    rw [hstart]
    have hfrom : p.whole.start ≤ byteLength before := hstart.le
    have hwhole : StandsAt source p.text p.whole.start p.whole.stop :=
      ⟨before, behind, hsource, hstart, hstop⟩
    exact placedIn_cellsFrom hsource hfrom hstop hwhole p.fields
  case ascending =>
    rw [hrow]
    exact pairwise_partPlaces p.whole p.start p.text p.fields

theorem tellsOf_record {source before front gap content breaks behind : List Char}
    (hsource : source = before ++ ((front ++ gap) ++ (content ++ (breaks ++ behind))))
    (hgap : ∀ c ∈ gap, isBreak c = true) (hhead : ∃ c cs, content = c :: cs ∧ isBreak c = false)
    (htrimmed : Text.dropEndWhile isBreak (content ++ breaks) = content) {r : Report} {p : Passage}
    (hfields : r.fields = p.fields.map utf8) (hposition : r.position = byteLength (before ++ front))
    (hreached : r.reached = byteLength (before ++ (front ++ gap) ++ content ++ breaks))
    (hstart : p.start = byteLength (before ++ (front ++ gap))) (htext : p.text = content) :
    r.TellsOf source p := by
  obtain ⟨c, cs, hcontent, hc⟩ := hhead
  have hslice : slice? source r.position r.reached = some (gap ++ (content ++ breaks)) := by
    refine slice?_eq_some.mpr ⟨before ++ front, behind, by rw [hsource]; simp, hposition, ?_⟩
    rw [hreached]
    simp
  have hcut : (gap ++ (content ++ breaks)).takeWhile isBreak = gap ∧
      (gap ++ (content ++ breaks)).dropWhile isBreak = content ++ breaks := by
    rw [hcontent, List.cons_append]
    exact ⟨Text.takeWhile_append_stop hgap hc _, Text.dropWhile_append_stop hgap hc _⟩
  constructor
  case fields => exact hfields
  case place =>
    rw [Report.place?, hslice, Option.bind_eq_bind, Option.bind_some, hcut.1, Text.trimWhile, hcut.2,
      htrimmed, Passage.whole, htext, hstart, hposition, ← byteLength_append, List.append_assoc]
  case text => exact ⟨before ++ (front ++ gap), breaks ++ behind, by rw [hsource, htext]; simp, hstart⟩

/-- **The reader tells of all records.** -/
theorem forall₂_tellsOf {text : List Char} (hcourse : Course text) {source before front : List Char}
    (hsource : source = before ++ (front ++ text)) (hfront : ∀ c ∈ front, isBreak c = true) :
    List.Forall₂ (Report.TellsOf source)
      (reportsFrom (byteLength (before ++ front)) 0 (utf8 text))
      (passagesFrom (byteLength before) (front ++ text)) := by
  induction hcourse generalizing before front with
  | done hd =>
    rw [reportsFrom_of_breaks _ _ hd,
      passagesFrom_of_breaks ((List.dropWhile_append_of_pos hfront).trans hd)]
    exact .nil
  | @record text cs breaks c hd hmeets _ ih =>
    have hreport := reportsFrom_record hd hmeets before front rfl
    have hpassages := passagesFrom_of_cons ((List.dropWhile_append_of_pos hfront).trans hd)
      (byteLength before)
    rw [List.takeWhile_append_of_pos hfront] at hpassages
    generalize recordAt (c :: cs) = record, text.takeWhile isBreak = gap at *
    have hsource' : source =
        before ++ ((front ++ gap) ++ (record.content ++ (breaks ++ record.rest))) := by
      rw [hsource, List.append_assoc front, ← hmeets.split]
    rw [hreport, hpassages, hmeets.tail, ← byteLength_append, ← byteLength_append]
    refine .cons ?_ (ih (by rw [hsource']; simp) hmeets.behind)
    exact tellsOf_record hsource' hmeets.before hmeets.head hmeets.trimmed rfl rfl rfl rfl rfl

theorem forall₂_reports_passages (source : List Char) :
    List.Forall₂ (Report.TellsOf source) (reports (utf8 source)) (passages source) := by
  by_cases hmark : source.head? = some '\ufeff'
  · obtain ⟨cs, rfl⟩ := List.head?_eq_some_iff.mp hmark
    rw [reports_marked]
    rcases passages_of_marked cs with ⟨hd, hpassages, -⟩ | ⟨c, body, hd, hpassages, -⟩
    · rw [reportsFrom_of_breaks _ _ hd, hpassages]
      exact .nil
    · obtain ⟨breaks, hmeets⟩ := meets_recordAt hd
      have hreport := reportsFrom_of_cons 0 3 hd rfl
      generalize recordAt (c :: body) = record, cs.takeWhile isBreak = gap at *
      obtain ⟨hhead, htrimmed, hsource, hreached⟩ := hmeets.marked
      rw [hreport, hreached, hpassages, hmeets.tail]
      refine .cons ?_ (forall₂_tellsOf (course record.rest) hsource hmeets.behind)
      have hsource' : '\ufeff' :: cs = [] ++ (([] ++ []) ++ (('\ufeff' :: gap ++ record.content) ++
          (breaks ++ record.rest))) := hsource
      exact tellsOf_record hsource' (by simp) hhead htrimmed rfl rfl rfl rfl rfl
  · rw [reports_unmarked hmark, passages_of_unmarked hmark]
    have hsource : source = [] ++ ([] ++ source) := rfl
    exact forall₂_tellsOf (course source) hsource (by simp)

/-- **Every sheet is read by the positions that are reported**, in order and between characters, and
its records give its rows. -/
theorem rowsOf_reported (source : String) :
    rowsChecked source.toList = some (rowsOf source) ∧
      (rowsOf source).map Row.index = List.range (rowsOf source).length ∧
      List.Forall₂ (fun r row => ∃ whole, r.Gives source.toList row whole)
        (reports (utf8 source.toList)) (recordRows source) := by
  refine ⟨rowsChecked_eq source.toList, index_rowsOf source, ?_⟩
  have hcells : List.Forall₂ (fun r cells => ∃ p : Passage, r.TellsOf source.toList p ∧ p.cells = cells)
      (reports (utf8 source.toList)) ((recordRows source).map Row.cells) := by
    rw [cells_recordRows, List.forall₂_map_right_iff]
    exact (forall₂_reports_passages source.toList).imp fun r p h => ⟨p, h, rfl⟩
  rw [List.forall₂_map_right_iff] at hcells
  refine hcells.imp fun r row => ?_
  rintro ⟨p, h, hrow⟩
  exact ⟨p.whole, h.gives hrow.symm⟩

end SheetMarkup.Csv
