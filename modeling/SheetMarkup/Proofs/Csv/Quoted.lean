import SheetMarkup.Proofs.Csv.Records

/-!
# Quoted tables

A table is written with every field between quotes and a line end behind every row. Reading it gives
the table back, whatever characters its fields hold.

* `quotedField`, `quotedRow`, `quotedText`: the written form;
* `isField_quotedField`, `isRecord_quotedRow`, `layout_quotedText`: fields, rows and whole tables are
  read as such;
* **`rowsOf_quotedText`**: a quoted table is read back.
-/

namespace SheetMarkup.Csv

/-! ## The written form -/

/-- The three ways to end a line. -/
inductive LineEnd where
  | feed
  | pair
  | carriage
  deriving DecidableEq

def LineEnd.chars : LineEnd → List Char
  | feed => ['\n']
  | pair => ['\r', '\n']
  | carriage => ['\r']

/-- A character of a quoted field: a quote is doubled. -/
def quotedChar (c : Char) : List Char := if c = '"' then ['"', '"'] else [c]

def quotedField (field : List Char) : List Char := '"' :: (field.flatMap quotedChar ++ ['"'])

def quotedRow (fields : List (List Char)) : List Char := [','].intercalate (fields.map quotedField)

def quotedChars (stop : LineEnd) (table : List (List String)) : List Char :=
  table.flatMap fun fields => quotedRow (fields.map String.toList) ++ stop.chars

/-- A table with every field between quotes, and a line end behind every row. -/
def quotedText (stop : LineEnd) (table : List (List String)) : String :=
  String.ofList (quotedChars stop table)

/-! ## Fields and rows -/

variable {used rest : List Char} {fields : List (List Char)}

theorem scan_quotedChars (field taken : List Char) : scan .quoted taken fields used
    (field.flatMap quotedChar ++ '"' :: rest) = scan .closing (field.reverse ++ taken) fields
      ('"' :: ((field.flatMap quotedChar).reverse ++ used)) rest := by
  induction field generalizing taken used with
  | nil => simp [scan]
  | cons c field ih =>
    by_cases hc : c = '"'
    · subst hc
      have hstep : scan .quoted taken fields used
          ('"' :: '"' :: (field.flatMap quotedChar ++ '"' :: rest)) =
            scan .quoted ('"' :: taken) fields ('"' :: '"' :: used)
              (field.flatMap quotedChar ++ '"' :: rest) := by
        simp [scan, isBreak]
      rw [List.flatMap_cons, List.append_assoc]
      refine hstep.trans ?_
      rw [ih]
      simp [quotedChar]
    · have hstep : scan .quoted taken fields used
          (c :: (field.flatMap quotedChar ++ '"' :: rest)) =
            scan .quoted (c :: taken) fields (c :: used)
              (field.flatMap quotedChar ++ '"' :: rest) := by
        simp [scan, hc]
      have hchar : quotedChar c = [c] := if_neg hc
      rw [List.flatMap_cons, hchar, List.append_assoc, List.singleton_append, hstep, ih]
      simp

theorem isField_quotedField (field : List Char) : IsField (quotedField field) field := by
  intro fields used rest
  have hsplit : quotedField field ++ rest =
      '"' :: (field.flatMap quotedChar ++ '"' :: rest) := by
    simp [quotedField]
  have hopen : scan .start [] fields used ('"' :: (field.flatMap quotedChar ++ '"' :: rest)) =
      scan .quoted [] fields ('"' :: used) (field.flatMap quotedChar ++ '"' :: rest) := by
    simp [scan, isBreak]
  refine ⟨.closing, by decide, ?_⟩
  rw [hsplit, hopen, scan_quotedChars]
  simp [quotedField]

theorem quotedRow_eq (f : List Char) (row : List (List Char)) :
    (∃ cs, quotedRow (f :: row) = '"' :: cs) ∧ ∃ cs, quotedRow (f :: row) = cs ++ ['"'] := by
  induction row generalizing f with
  | nil => exact ⟨⟨_, rfl⟩, ⟨'"' :: f.flatMap quotedChar, List.intercalate_singleton⟩⟩
  | cons g row ih =>
    obtain ⟨-, cs, hcs⟩ := ih g
    have hrow : quotedRow (f :: g :: row) = quotedField f ++ [','] ++ quotedRow (g :: row) :=
      List.intercalate_cons_cons
    rw [hrow, hcs]
    exact ⟨⟨_, rfl⟩, ⟨quotedField f ++ [','] ++ cs, by simp⟩⟩

theorem isRecord_quotedRow (f : List Char) (row : List (List Char)) :
    IsRecord (quotedRow (f :: row)) (f :: row) := by
  obtain ⟨⟨cs, hhead⟩, ds, hlast⟩ := quotedRow_eq f row
  refine isRecord_of_fields ?_ (List.cons_ne_nil f row) ⟨'"', cs, hhead, by decide⟩
    ⟨ds, '"', hlast, by decide⟩
  rw [List.forall₂_map_left_iff]
  exact List.forall₂_same.mpr fun field _ => isField_quotedField field

/-! ## Tables -/

theorem head?_quotedChars {stop : LineEnd} {table : List (List String)} {c : Char}
    (h : (quotedChars stop table).head? = some c) : c = '"' ∨ stop.chars.head? = some c := by
  cases table with
  | nil => cases h
  | cons row table =>
    rw [quotedChars, List.flatMap_cons] at h
    cases row with
    | nil =>
      right
      cases stop <;> exact h
    | cons f row =>
      left
      obtain ⟨⟨cs, hcs⟩, -⟩ := quotedRow_eq f.toList (row.map String.toList)
      rw [List.map_cons, hcs] at h
      exact (Option.some.inj h).symm

/-- No written table starts with the line feed of a split line end. -/
theorem endsLine_quotedChars (stop : LineEnd) (table : List (List String)) :
    EndsLine stop.chars (quotedChars stop table) := by
  cases stop with
  | feed => exact .feed _
  | pair => exact .pair _
  | carriage =>
    apply EndsLine.carriage
    intro h
    rcases head?_quotedChars h with h | h
    · exact absurd h (by decide)
    · exact absurd h (by decide)

/-- The lines that a table is written in. -/
def quotedLines (stop : LineEnd) (table : List (List String)) : List Line :=
  table.map fun row => ⟨quotedRow (row.map String.toList), row.map String.toList, stop.chars⟩

/-- **A written table is laid out in its rows.** A row without fields is a blank line. -/
theorem layout_quotedText (stop : LineEnd) (table : List (List String)) :
    Layout (quotedChars stop table) (quotedLines stop table) := by
  induction table with
  | nil => exact .nil
  | cons row table ih =>
    have hstop := endsLine_quotedChars stop table
    rw [quotedChars, List.flatMap_cons, List.append_assoc]
    cases row with
    | nil => exact .blank hstop ih
    | cons f row => exact .record (isRecord_quotedRow f.toList _) hstop ih

theorem unmarked_quotedChars (stop : LineEnd) (table : List (List String)) :
    (quotedChars stop table).head? ≠ some '\ufeff' := by
  intro h
  rcases head?_quotedChars h with h | h
  · exact absurd h (by decide)
  · cases stop <;> exact absurd h (by decide)

theorem unplaced_rowsOf_quotedText (stop : LineEnd) (table : List (List String)) :
    (rowsOf (quotedText stop table)).map Row.unplaced =
      table.zipIdx.map fun r => ⟨r.2, r.1.map fun f => cellOf f.toList⟩ := by
  have hlist : (quotedText stop table).toList = quotedChars stop table := String.toList_ofList
  have hlayout := layout_quotedText stop table
  have hmark := unmarked_quotedChars stop table
  rw [← hlist] at hlayout hmark
  rw [unplaced_rowsOf hlayout hmark, quotedLines, List.zipIdx_map, List.map_map]
  refine List.map_congr_left fun r _ => ?_
  simp [Function.comp_def]

/-- **A quoted table is read back**, with any of the three line ends and up to the places of its
cells. -/
theorem rowsOf_quotedText (stop : LineEnd) (table : List (List String)) :
    (rowsOf (quotedText stop table)).map (fun r => (r.index, r.cells.map Cell.value)) =
      table.zipIdx.map fun r => (r.2, r.1.map shown) := by
  have h := congrArg (List.map fun r : Row => (r.index, r.cells.map Cell.value))
    (unplaced_rowsOf_quotedText stop table)
  rw [List.map_map, List.map_map] at h
  simpa [Function.comp_def, Row.unplaced, Cell.unplaced, value_cellOf] using h

example : (rowsOf (quotedText .pair [["a\r\nb", " "], [], ["\"", ","]])).map
    (fun r => (r.index, r.cells.map Cell.value)) =
      [(0, ["a\r\nb", ""]), (1, []), (2, ["\"", ","])] := by
  decide +kernel

end SheetMarkup.Csv
