import SheetMarkup.Proofs.Csv.Records

/-!
# Sheets without quotes

Where no quote stands, a sheet is what it looks like: lines, cut at every line end, and fields, cut at
every comma. The reader finds the place of a field by looking for its text behind the field before it;
as only commas stand between the two, it finds the field itself.

* `cutLines`, `placedFields`, `placedRows`: the plain reading of a text, with places;
* `layout_cutLines`: the lines of the plain reading are those of the reader;
* `find?_behind_commas`: where a field is found (the step), `cellsFrom_fields`: the places of a whole
  row (the run);
* **`rowsOf_plainText`**: the reader gives the plain reading.
-/

namespace SheetMarkup.Csv

/-! ## The plain reading -/

/-- The lines of a text, each with what ends it. What follows the last end is a line of its own, unless
nothing follows it. -/
def cutLines : List Char → List (List Char × List Char)
  | [] => []
  | '\r' :: '\n' :: cs => ([], ['\r', '\n']) :: cutLines cs
  | c :: cs =>
    if isBreak c then ([], [c]) :: cutLines cs
    else match cutLines cs with
      | [] => [([c], [])]
      | (line, stop) :: lines => (c :: line, stop) :: lines

/-- The values and places of fields with commas between them, of which the first starts at an offset. An
empty field has the place of its whole line. -/
def placedFields (whole : Span) : Nat → List (List Char) → List (String × Option Span)
  | _, [] => []
  | start, field :: fields =>
    (shown (String.ofList field),
        some (if field = [] then whole else ⟨start, start + Text.byteLength field⟩)) ::
      placedFields whole (start + Text.byteLength field + 1) fields

/-- The fields of a line. -/
def fieldsOf (line : List Char) : List (List Char) := if line = [] then [] else line.splitOn ','

/-- The values and places of the fields of some lines, of which the first starts at an offset. -/
def placedRows : Nat → List (List Char × List Char) → List (List (String × Option Span))
  | _, [] => []
  | offset, (line, stop) :: lines =>
    placedFields ⟨offset, offset + Text.byteLength line⟩ offset (fieldsOf line) ::
      placedRows (offset + Text.byteLength line + Text.byteLength stop) lines

/-! ## Lines -/

variable {line stop rest : List Char}

theorem cutLines_stop (h : EndsLine stop rest) : cutLines (stop ++ rest) = ([], stop) :: cutLines rest := by
  cases h with
  | feed => rfl
  | pair => rfl
  | carriage hne =>
    rw [List.singleton_append, cutLines]
    · rfl
    · rintro cs - rfl
      exact hne rfl

theorem cutLines_cons {c : Char} (hc : isBreak c = false) (cs : List Char) :
    cutLines (c :: cs) = match cutLines cs with
      | [] => [([c], [])]
      | (line, stop) :: lines => (c :: line, stop) :: lines := by
  rw [cutLines, if_neg (by simp [hc])]
  rintro ds rfl
  exact absurd hc (by decide)

theorem cutLines_line (hline : ∀ c ∈ line, isBreak c = false) (h : EndsLine stop rest) :
    cutLines (line ++ (stop ++ rest)) = (line, stop) :: cutLines rest := by
  induction line with
  | nil => exact cutLines_stop h
  | cons c line ih =>
    rw [List.forall_mem_cons] at hline
    rw [List.cons_append, cutLines_cons hline.1, ih hline.2]

theorem cutLines_last (hline : ∀ c ∈ line, isBreak c = false) (hne : line ≠ []) :
    cutLines line = [(line, [])] := by
  induction line with
  | nil => exact absurd rfl hne
  | cons c line ih =>
    rw [List.forall_mem_cons] at hline
    rw [cutLines_cons hline.1]
    cases line with
    | nil => rfl
    | cons d line => rw [ih hline.2 (List.cons_ne_nil d line)]

/-- Every text is a line with its end and a text behind it, or a line without an end. -/
theorem exists_line (text : List Char) : ∃ line, (∀ c ∈ line, isBreak c = false) ∧
    (text = line ∨ ∃ stop rest, EndsLine stop rest ∧ text = line ++ (stop ++ rest)) := by
  induction text with
  | nil => exact ⟨[], by simp, Or.inl rfl⟩
  | cons c text ih =>
    by_cases hc : isBreak c = true
    · have hend : ∃ stop rest, EndsLine stop rest ∧ c :: text = stop ++ rest := by
        have hchar : c = '\n' ∨ c = '\r' := by simpa [isBreak] using hc
        rcases hchar with rfl | rfl
        · exact ⟨_, text, .feed text, rfl⟩
        · by_cases hfeed : text.head? = some '\n'
          · obtain ⟨tail, rfl⟩ := List.head?_eq_some_iff.mp hfeed
            exact ⟨_, tail, .pair tail, rfl⟩
          · exact ⟨_, text, .carriage hfeed, rfl⟩
      exact ⟨[], by simp, Or.inr hend⟩
    · obtain ⟨line, hline, h⟩ := ih
      refine ⟨c :: line, List.forall_mem_cons.mpr ⟨by simpa using hc, hline⟩, ?_⟩
      rcases h with rfl | ⟨stop, rest, hstop, rfl⟩
      · exact Or.inl rfl
      · exact Or.inr ⟨stop, rest, hstop, rfl⟩

/-! ## Fields -/

theorem isField_plain {field : List Char}
    (h : ∀ c ∈ field, c ≠ ',' ∧ c ≠ '"' ∧ isBreak c = false) : IsField field field := by
  have hscan : ∀ (mode : Mode) (taken : List Char) (fields : List (List Char)) (used rest : List Char),
      mode ≠ .quoted → ∃ mode', mode' ≠ .quoted ∧ scan mode taken fields used (field ++ rest) =
        scan mode' (field.reverse ++ taken) fields (field.reverse ++ used) rest := by
    induction field with
    | nil =>
      intro mode taken fields used rest hmode
      exact ⟨mode, hmode, rfl⟩
    | cons c field ih =>
      intro mode taken fields used rest hmode
      rw [List.forall_mem_cons] at h
      obtain ⟨⟨hcomma, hquote, hbreak⟩, hfield⟩ := h
      have hstep : scan mode taken fields used (c :: (field ++ rest)) =
          scan .plain (c :: taken) fields (c :: used) (field ++ rest) := by
        simp [scan, hmode, hcomma, hquote, hbreak]
      obtain ⟨mode', hmode', hrun⟩ := ih hfield .plain (c :: taken) fields (c :: used) rest (by decide)
      refine ⟨mode', hmode', ?_⟩
      rw [List.cons_append, hstep, hrun]
      simp
  intro fields used rest
  obtain ⟨mode, hmode, h⟩ := hscan .start [] fields used rest (by decide)
  rw [List.append_nil] at h
  exact ⟨mode, hmode, h⟩

theorem isRecord_plain (hne : line ≠ []) (hquote : '"' ∉ line)
    (hline : ∀ c ∈ line, isBreak c = false) : IsRecord line (line.splitOn ',') := by
  have hjoin : [','].intercalate (line.splitOn ',') = line := List.intercalate_splitOn ','
  have hfields : List.Forall₂ IsField (line.splitOn ',') (line.splitOn ',') := by
    refine List.forall₂_same.mpr fun field hfield => isField_plain fun c hc => ?_
    obtain ⟨hmem, hcomma⟩ := Text.mem_of_mem_splitOn hfield hc
    exact ⟨hcomma, fun e => hquote (e ▸ hmem), hline c hmem⟩
  have hhead : ∃ c cs, line = c :: cs ∧ isBreak c = false := by
    obtain ⟨c, cs, rfl⟩ := List.exists_cons_of_ne_nil hne
    exact ⟨c, cs, rfl, hline c List.mem_cons_self⟩
  have hlast : ∃ cs c, line = cs ++ [c] ∧ isBreak c = false :=
    ⟨line.dropLast, line.getLast hne, (List.dropLast_append_getLast hne).symm,
      hline _ (List.getLast_mem hne)⟩
  have h := isRecord_of_fields hfields (List.splitOn_ne_nil ',' line)
  rw [hjoin] at h
  exact h hhead hlast

/-- The line of the reader for a line of the plain reading. -/
def plainLine (l : List Char × List Char) : Line := ⟨l.1, fieldsOf l.1, l.2⟩

/-- **Without quotes, the lines of a text are those of its plain reading.** The induction is on the
length of the text, as every line but the last takes up its end. -/
theorem layout_cutLines (text : List Char) (hquote : '"' ∉ text) :
    Layout text ((cutLines text).map plainLine) := by
  obtain ⟨n, hn⟩ : ∃ n, text.length = n := ⟨_, rfl⟩
  induction n using Nat.strong_induction_on generalizing text with
  | _ n ih =>
    obtain ⟨line, hline, h⟩ := exists_line text
    rcases h with rfl | ⟨stop, rest, hstop, rfl⟩
    · by_cases hne : text = []
      · subst hne
        exact .nil
      · rw [cutLines_last hline hne]
        simp only [List.map_cons, List.map_nil, plainLine, fieldsOf, if_neg hne]
        exact .last (isRecord_plain hne hquote hline)
    · simp only [List.mem_append, not_or] at hquote
      have hlength : rest.length < n := by
        have hpos : 0 < stop.length := by cases hstop <;> decide
        simp only [List.length_append] at hn
        omega
      have hrest := ih _ hlength rest hquote.2.2 rfl
      rw [cutLines_line hline hstop, List.map_cons]
      by_cases hne : line = []
      · subst hne
        exact .blank hstop hrest
      · simp only [plainLine, fieldsOf, if_neg hne]
        exact .record (isRecord_plain hne hquote.1 hline) hstop hrest

/-! ## Places -/

/-- **A field behind commas is found where it stands.** -/
theorem find?_behind_commas {field : List Char} (hne : field ≠ []) (hcomma : ',' ∉ field) (n : Nat)
    (cursor : Nat) (tail : List Char) :
    find? field cursor (List.replicate n ',' ++ (field ++ tail)) = some (cursor + n, tail) := by
  obtain ⟨c, cs, rfl⟩ := List.exists_cons_of_ne_nil hne
  induction n generalizing cursor with
  | zero =>
    have hp : (c :: cs).isPrefixOf (c :: (cs ++ tail)) = true := by simp
    show find? (c :: cs) cursor (c :: (cs ++ tail)) = _
    rw [find?, if_pos hp]
    simp
  | succ n ih =>
    have hc : c ≠ ',' := fun e => hcomma (e ▸ List.mem_cons_self)
    have hp : ¬ (c :: cs).isPrefixOf (',' :: (List.replicate n ',' ++ (c :: cs ++ tail))) = true := by
      simp [hc]
    rw [List.replicate_succ, List.cons_append, find?, if_neg hp, ih]
    have hsize : ','.utf8Size = 1 := by decide
    rw [hsize]
    congr 2
    omega

theorem cellsFrom_found {field text tail : List Char} {cursor start : Nat} (hne : field ≠ [])
    (h : find? field cursor text = some (start, tail)) (whole : Span) (fields : List (List Char)) :
    cellsFrom whole cursor text (field :: fields) =
      (cellOf field).withSpan ⟨start, start + Text.byteLength field⟩ ::
        cellsFrom whole (start + Text.byteLength field) tail fields := by
  have hfilter : (some (start, tail)).filter (fun _ => !field.isEmpty) = some (start, tail) := by
    simp [hne]
  rw [cellsFrom, h, hfilter]

theorem cellsFrom_empty (text : List Char) (cursor : Nat) (whole : Span) (fields : List (List Char)) :
    cellsFrom whole cursor text ([] :: fields) =
      (cellOf []).withSpan whole :: cellsFrom whole cursor text fields := by
  rw [cellsFrom]
  simp

/-- The value and the place of a cell. -/
def valueAndPlace (c : Cell) : String × Option Span := (c.value, c.span)

theorem valueAndPlace_cellOf (field : List Char) (span : Span) :
    valueAndPlace ((cellOf field).withSpan span) = (shown (String.ofList field), some span) := by
  rw [← value_cellOf]
  rfl

/-- **Fields are found one after the other.** Between the cursor and the next field stand the commas of
the empty fields since the last one that was found. -/
theorem cellsFrom_fields (whole : Span) (fields : List (List Char)) (h : ∀ f ∈ fields, ',' ∉ f)
    (n cursor : Nat) :
    (cellsFrom whole cursor (List.replicate n ',' ++ [','].intercalate fields) fields).map
      valueAndPlace = placedFields whole (cursor + n) fields := by
  induction fields generalizing n cursor with
  | nil => rfl
  | cons field fields ih =>
    rw [List.forall_mem_cons] at h
    obtain ⟨tail, htail, hrest⟩ : ∃ tail, [','].intercalate (field :: fields) = field ++ tail ∧
        ∀ m cursor, (cellsFrom whole cursor (List.replicate m ',' ++ tail) fields).map valueAndPlace =
          placedFields whole (cursor + m + 1) fields := by
      cases fields with
      | nil => exact ⟨[], by rw [List.intercalate_singleton, List.append_nil], fun _ _ => rfl⟩
      | cons g fields =>
        refine ⟨',' :: [','].intercalate (g :: fields), by simp [List.intercalate_cons_cons], ?_⟩
        intro m cursor
        have hm : List.replicate m ',' ++ ',' :: [','].intercalate (g :: fields) =
            List.replicate (m + 1) ',' ++ [','].intercalate (g :: fields) := by
          rw [List.replicate_succ']
          simp
        rw [hm, ih h.2, Nat.add_assoc]
    rw [htail, placedFields]
    by_cases hne : field = []
    · subst hne
      rw [cellsFrom_empty, List.map_cons, valueAndPlace_cellOf, if_pos rfl, List.nil_append, hrest]
      rfl
    · have hfound := find?_behind_commas hne h.1 n cursor tail
      have hzero := hrest 0 (cursor + n + Text.byteLength field)
      rw [cellsFrom_found hne hfound, List.map_cons, valueAndPlace_cellOf, if_neg hne]
      exact congrArg _ hzero

theorem lineCells_plain (lines : List (List Char × List Char)) (offset : Nat) :
    (lineCells offset (lines.map plainLine)).map (List.map valueAndPlace) =
      placedRows offset lines := by
  induction lines generalizing offset with
  | nil => rfl
  | cons l lines ih =>
    obtain ⟨line, stop⟩ := l
    rw [List.map_cons, lineCells, List.map_cons, ih, placedRows]
    refine congrArg (· :: _) ?_
    by_cases hne : line = []
    · subst hne
      rfl
    · have hfields : ∀ f ∈ line.splitOn ',', ',' ∉ f := fun f hf hc =>
        (Text.mem_of_mem_splitOn hf hc).2 rfl
      have h := cellsFrom_fields ⟨offset, offset + Text.byteLength line⟩ _ hfields 0 offset
      rw [List.intercalate_splitOn] at h
      simpa [plainLine, fieldsOf, hne, recordCells] using h

/-- **Without quotes, a sheet is its lines and their fields**, and the place of a cell is that of
its field, or of the line where it is empty. -/
theorem rowsOf_plainText {source : String} (hquote : '"' ∉ source.toList)
    (hmark : source.toList.head? ≠ some '\ufeff') :
    (rowsOf source).map (fun r => (r.index, r.cells.map valueAndPlace)) =
      (placedRows 0 (cutLines source.toList)).zipIdx.map Prod.swap := by
  have hcells := lineCells_plain (cutLines source.toList) 0
  rw [← rowCells_of_layout (layout_cutLines source.toList hquote) 0,
    ← sheetCells_of_unmarked hmark] at hcells
  rw [rowsOf, List.map_map, ← hcells, List.zipIdx_map, List.map_map]
  rfl

/-- Blank lines at both ends, all three line ends, a field that is found twice, and a wide character. -/
def mixedSource : String := "\n,ab,,b\r\r\nä,\u3000\n\r1,a"

theorem rowsOf_plainText_mixedSource : '"' ∉ mixedSource.toList ∧
    mixedSource.toList.head? ≠ some '\ufeff' ∧
    (rowsOf mixedSource).map (fun r => (r.index, r.cells.map valueAndPlace)) =
      [(0, []), (1, [("", some ⟨1, 7⟩), ("ab", some ⟨2, 4⟩), ("", some ⟨1, 7⟩), ("b", some ⟨6, 7⟩)]),
        (2, []), (3, [("ä", some ⟨10, 12⟩), ("", some ⟨13, 16⟩)]), (4, []),
        (5, [("1", some ⟨18, 19⟩), ("a", some ⟨20, 21⟩)])] := by
  have hquote : '"' ∉ mixedSource.toList := by decide
  have hmark : mixedSource.toList.head? ≠ some '\ufeff' := by decide
  exact ⟨hquote, hmark, (rowsOf_plainText hquote hmark).trans (by decide +kernel)⟩

end SheetMarkup.Csv
