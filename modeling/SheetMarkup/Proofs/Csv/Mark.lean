import SheetMarkup.Proofs.Csv.Passages

/-!
# Sheets with a byte order mark

The mark stands in front of the first record, and the breaks behind it belong to the text of that
record. So the lines in front of the first record, which are rows of a sheet without the mark, are no
rows of a sheet with it.

* `leadingBlanks`: the lines in front of the first record;
* `unplaced_rowCells`: up to their places, cells do not depend on where a text starts;
* `unplaced_sheetCells_mark`: behind a mark these lines are missing;
* **`unplaced_rowsOf_mark`**: the rows of a sheet with a mark, against those of the sheet without it.
-/

namespace SheetMarkup.Csv

/-- The number of lines in front of the first record, if there is one. -/
def leadingBlanks (cs : List Char) : Nat :=
  if (cs.dropWhile isBreak).isEmpty then 0 else countBreaks (cs.takeWhile isBreak)

/-- The cells of rows without their places. -/
def unplacedCells (cells : List (List Cell)) : List (List Cell) := cells.map (List.map Cell.unplaced)

theorem unplaced_recordCells (offset : Nat) (content : List Char) (fields : List (List Char)) :
    (recordCells offset content fields).map Cell.unplaced = fields.map cellOf :=
  unplaced_cellsFrom _ fields offset content

theorem unplaced_rowCells (after : Bool) (offset offset' : Nat) (text : List Char) :
    unplacedCells (rowCells after offset text) = unplacedCells (rowCells after offset' text) := by
  induction offset, text using passagesFrom.induct generalizing after offset' with
  | case1 offset text hd => rw [rowCells_of_breaks hd, rowCells_of_breaks hd]
  | case2 offset text c cs hd start record ih =>
    have hnext := ih true
    rw [rowCells_of_cons hd, rowCells_of_cons hd]
    simp only [unplacedCells, List.map_append, List.map_cons, unplaced_recordCells] at hnext ⊢
    exact congrArg (fun cells => _ ++ _ :: cells) (hnext _)

/-- **Behind a byte order mark the lines in front of the first record are missing.** -/
theorem unplaced_sheetCells_mark {cs : List Char} (hmark : cs.head? ≠ some '\ufeff') :
    unplacedCells (sheetCells ('\ufeff' :: cs)) =
        unplacedCells ((sheetCells cs).drop (leadingBlanks cs)) ∧
      leadingBlanks cs ≤ (sheetCells cs).length ∧
      ∀ cells ∈ (sheetCells cs).take (leadingBlanks cs), cells = [] := by
  rw [sheetCells_of_unmarked hmark]
  rcases passages_of_marked cs with ⟨hd, -, hcells⟩ | ⟨c, body, hd, -, hcells⟩
  · have hlost : leadingBlanks cs = 0 := by rw [leadingBlanks, hd]; rfl
    have htake : cs.takeWhile isBreak = cs :=
      List.takeWhile_eq_self_iff.mpr (List.dropWhile_eq_nil_iff.mp hd)
    rw [hcells, rowCells_of_breaks hd, hlost, htake]
    refine ⟨rfl, Nat.zero_le _, ?_⟩
    rw [List.take_zero]
    rintro _ ⟨⟩
  · have hlost : leadingBlanks cs = countBreaks (cs.takeWhile isBreak) := by
      rw [leadingBlanks, hd]
      rfl
    have hlength : (List.replicate (leadingBlanks cs) ([] : List Cell)).length = leadingBlanks cs :=
      List.length_replicate
    rw [hcells, rowCells_of_cons hd, ← hlost, if_neg Bool.false_ne_true, Nat.sub_zero]
    refine ⟨?_, ?_, ?_⟩
    · rw [List.drop_left' hlength]
      have hnext := unplaced_rowCells true
      simp only [unplacedCells, List.map_cons, unplaced_recordCells] at hnext ⊢
      rw [hnext]
    · rw [List.length_append, hlength]
      exact Nat.le_add_right _ _
    · rw [List.take_left' hlength]
      exact fun cells hcells => List.eq_of_mem_replicate hcells

/-- No line stands in front of the first record exactly if the text starts with no break, or has no
record. -/
theorem leadingBlanks_eq_zero_iff (cs : List Char) : leadingBlanks cs = 0 ↔
    (∀ c ∈ cs, isBreak c = true) ∨ ∀ c ∈ cs.head?, isBreak c = false := by
  have hnil : cs.dropWhile isBreak = [] ↔ ∀ c ∈ cs, isBreak c = true := List.dropWhile_eq_nil_iff
  rw [leadingBlanks]
  split_ifs with hd
  · exact ⟨fun _ => .inl (hnil.mp (List.isEmpty_iff.mp hd)), fun _ => rfl⟩
  · have hnot : ¬ ∀ c ∈ cs, isBreak c = true := fun h => hd (List.isEmpty_iff.mpr (hnil.mpr h))
    rw [or_iff_right hnot]
    cases cs with
    | nil => exact absurd (by simp) hnot
    | cons c cs =>
      rw [List.takeWhile_cons]
      by_cases hc : isBreak c = true
      · have hpos : ∀ ds, countBreaks (c :: ds) ≠ 0 := by
          intro ds
          rw [countBreaks.eq_def]
          split
          · next heq => cases heq
          · exact Nat.succ_ne_zero _
          · next heq =>
            obtain ⟨rfl, rfl⟩ := List.cons.inj heq
            rw [if_pos hc]
            exact Nat.succ_ne_zero _
        rw [if_pos hc]
        exact ⟨fun h => absurd h (hpos _), fun h => absurd hc (by simp [h c rfl])⟩
      · rw [if_neg hc]
        exact ⟨fun _ d hd => by cases hd; simpa using hc, fun _ => rfl⟩

/-! ## Rows -/

theorem unplaced_rowsOf_eq (source : String) : (rowsOf source).map Row.unplaced =
    (unplacedCells (sheetCells source.toList)).zipIdx.map fun r => ⟨r.2, r.1⟩ := by
  rw [rowsOf, unplacedCells, List.zipIdx_map, List.map_map, List.map_map]
  rfl

/-- **What a byte order mark does to the rows of a sheet.** The blank lines in front of the first
record are lost. -/
theorem unplaced_rowsOf_mark {source : String} (hmark : source.toList.head? ≠ some '\ufeff') :
    (rowsOf ("\ufeff" ++ source)).map Row.unplaced =
        ((rowsOf source).drop (leadingBlanks source.toList)).map
          (fun r => ⟨r.index - leadingBlanks source.toList, r.cells.map Cell.unplaced⟩) ∧
      (∀ r ∈ (rowsOf source).take (leadingBlanks source.toList), r.cells = []) ∧
      ((rowsOf ("\ufeff" ++ source)).map Row.unplaced = (rowsOf source).map Row.unplaced ↔
        (∀ c ∈ source.toList, isBreak c = true) ∨ ∀ c ∈ source.toList.head?, isBreak c = false) := by
  obtain ⟨hcells, hle, hblank⟩ := unplaced_sheetCells_mark hmark
  have hsource : ("\ufeff" ++ source).toList = '\ufeff' :: source.toList := by
    rw [String.toList_append]
    rfl
  have hmarked := unplaced_rowsOf_eq ("\ufeff" ++ source)
  rw [hsource, hcells] at hmarked
  have hplain := unplaced_rowsOf_eq source
  rw [← leadingBlanks_eq_zero_iff]
  generalize leadingBlanks source.toList = lost at *
  refine ⟨?_, ?_, ?_⟩
  · rw [hmarked]
    apply List.ext_getElem?
    intro i
    simp [rowsOf, unplacedCells, Function.comp_def]
  · intro r hr
    refine hblank r.cells ?_
    rw [← cells_rowsOf, ← List.map_take]
    exact List.mem_map_of_mem hr
  · rw [hmarked, hplain]
    constructor
    · intro h
      have hlength := congrArg List.length h
      simp only [unplacedCells, List.length_map, List.length_zipIdx, List.length_drop] at hlength
      omega
    · rintro rfl
      rw [List.drop_zero]

theorem unplaced_rowsOf_mark_twoLines : "\n\np,style=x\n".toList.head? ≠ some '\ufeff' ∧
    (rowsOf ("\ufeff" ++ "\n\np,style=x\n")).map Row.unplaced =
      ((rowsOf "\n\np,style=x\n").drop 2).map fun r => ⟨r.index - 2, r.cells.map Cell.unplaced⟩ := by
  have hmark : "\n\np,style=x\n".toList.head? ≠ some '\ufeff' := by decide +kernel
  have hlost : leadingBlanks "\n\np,style=x\n".toList = 2 := by decide +kernel
  have hrows := (unplaced_rowsOf_mark hmark).1
  rw [hlost] at hrows
  exact ⟨hmark, hrows⟩

/-- Of three rows the mark leaves one. -/
theorem rowsOf_mark_blankLines : "\n\np".toList.head? ≠ some '\ufeff' ∧
    (rowsOf "\n\np").map Row.unplaced = [⟨0, []⟩, ⟨1, []⟩, ⟨2, [Cell.ofText "p"]⟩] ∧
    (rowsOf ("\ufeff" ++ "\n\np")).map Row.unplaced = [⟨0, [Cell.ofText "p"]⟩] ∧
    (rowsOf ("\ufeff" ++ "\n\np")).map Row.unplaced ≠ (rowsOf "\n\np").map Row.unplaced := by
  decide +kernel

end SheetMarkup.Csv
