import Mathlib.Data.List.Induction
import SheetMarkup.Sheet.Row

/-!
# Rows from cells with their columns

Cells are put into a row one after the other, in any order of their columns. In the end the row reaches
up to the greatest column, every column has the last cell that was given for it, and a column without
one is empty. There is such a row exactly where there is room for all columns.

* `Row.width`, `Row.lastAt?`: the columns of a row, and the last cell for a column;
* `place`, `length_place`, `getElem?_place`, **`place?_eq`**: one cell (the step);
* `ofSparse`, `length_ofSparse`, **`getElem?_ofSparse`**: all cells (the run);
* **`ofSparse?_eq`**, `ofSparse?_eq_some_iff`, `ofSparse?_eq_none_iff`: when there is a row;
* `lt_length_of_grow?`: a row is never too short for the cell that is put in.
-/

namespace SheetMarkup.Row

/-- One more than the greatest of some columns, and zero for none. -/
def width (columns : List Nat) : Nat := (columns.max?.map (· + 1)).getD 0

/-- The cell of the last pair with a column. -/
def lastAt? (cells : List (Nat × Cell)) (column : Nat) : Option Cell :=
  (cells.filter fun c => c.1 == column).getLast?.map Prod.snd

theorem width_append_singleton (columns : List Nat) (column : Nat) :
    width (columns ++ [column]) = max (width columns) (column + 1) := by
  cases hmax : columns.max? with
  | none =>
    rw [List.max?_eq_none_iff.mp hmax]
    simp [width]
  | some m =>
    obtain ⟨hm, hle⟩ := List.max?_eq_some_iff.mp hmax
    have hgreatest : (columns ++ [column]).max? = some (max m column) := by
      rw [List.max?_eq_some_iff, List.mem_append, List.forall_mem_append,
        List.forall_mem_singleton]
      refine ⟨?_, fun n hn => Nat.le_trans (hle n hn) (Nat.le_max_left m column),
        Nat.le_max_right m column⟩
      rcases Nat.le_total m column with hcolumn | hcolumn
      · rw [Nat.max_eq_right hcolumn]
        exact .inr List.mem_cons_self
      · rw [Nat.max_eq_left hcolumn]
        exact .inl hm
    rw [width, width, hgreatest, hmax]
    simp only [Option.map_some, Option.getD_some]
    omega

theorem lt_width {columns : List Nat} {column : Nat} (h : column ∈ columns) :
    column < width columns := by
  cases hmax : columns.max? with
  | none =>
    rw [List.max?_eq_none_iff.mp hmax] at h
    cases h
  | some m =>
    have hle := (List.max?_eq_some_iff.mp hmax).2 column h
    rw [width, hmax]
    simp only [Option.map_some, Option.getD_some]
    omega

theorem lastAt?_append_singleton (cells : List (Nat × Cell)) (x : Nat × Cell) (column : Nat) :
    lastAt? (cells ++ [x]) column = if x.1 = column then some x.2 else lastAt? cells column := by
  rw [lastAt?, List.filter_append, List.getLast?_append, List.filter_cons, List.filter_nil]
  by_cases h : x.1 = column
  · simp [h]
  · simp [h, lastAt?]

/-- Where no two pairs have one column, the last pair with a column is the first one. -/
theorem lastAt?_of_nodup {cells : List (Nat × Cell)} (h : (cells.map Prod.fst).Nodup)
    (column : Nat) :
    lastAt? cells column = (cells.find? fun c => c.1 == column).map Prod.snd := by
  induction cells using List.reverseRecOn with
  | nil => rfl
  | append_singleton cells x ih =>
    rw [List.map_append, List.nodup_append] at h
    obtain ⟨hcells, -, hother⟩ := h
    rw [lastAt?_append_singleton, List.find?_append, ih hcells]
    split_ifs with hx
    · have hnone : cells.find? (fun c => c.1 == column) = none := by
        rw [List.find?_eq_none]
        intro c hc hcolumn
        refine hother c.1 (List.mem_map_of_mem hc) x.1 (by simp) ?_
        rw [beq_iff_eq.mp hcolumn, hx]
      simp [hnone, hx]
    · simp [hx]

/-! ## One cell -/

/-- Puts a cell into a column, however long the row gets. A gap before it is filled with empty
cells. -/
def place (cells : List Cell) (column : Nat) (cell : Cell) : List Cell :=
  if column < cells.length then cells.set column cell
  else cells ++ List.replicate (column - cells.length) Cell.empty ++ [cell]

theorem length_gap {cells : List Cell} {column : Nat} (h : ¬ column < cells.length) :
    (cells ++ List.replicate (column - cells.length) Cell.empty).length = column := by
  rw [List.length_append, List.length_replicate]
  omega

theorem length_place (cells : List Cell) (column : Nat) (cell : Cell) :
    (place cells column cell).length = max cells.length (column + 1) := by
  unfold place
  split_ifs with h
  · rw [List.length_set]
    omega
  · rw [List.length_append, length_gap h, List.length_singleton]
    omega

/-- **A cell that is put into a row changes its own column only.** A gap before it is empty, as every
missing column is. -/
theorem getElem?_place (cells : List Cell) (column : Nat) (cell : Cell) (i : Nat) :
    (place cells column cell)[i]?.getD .empty =
      if column = i then cell else cells[i]?.getD .empty := by
  unfold place
  split_ifs with h hi hi
  · subst hi
    rw [List.getElem?_set_self h, Option.getD_some]
  · rw [List.getElem?_set_ne hi]
  · subst hi
    rw [List.getElem?_append_right (Nat.le_of_eq (length_gap h)), length_gap h, Nat.sub_self]
    rfl
  · by_cases hlt : i < cells.length
    · rw [List.append_assoc, List.getElem?_append_left hlt]
    · -- behind the old end there is the gap, then the cell, then nothing
      rw [List.getElem?_eq_none (Nat.le_of_not_lt hlt), List.append_assoc,
        List.getElem?_append_right (Nat.le_of_not_lt hlt)]
      by_cases hgap : i - cells.length < column - cells.length
      · rw [List.getElem?_append_left (by simpa using hgap), List.getElem?_replicate, if_pos hgap]
        rfl
      · rw [List.getElem?_eq_none]
        simp only [List.length_append, List.length_replicate, List.length_singleton]
        omega

theorem maxLength_lt : maxLength < Text.bound64 := by decide

section Room

variable {room : Nat}

/-- A row that was made long enough is never too short. -/
theorem lt_length_of_grow? {cells grown : List Cell} {column : Nat}
    (h : grow? room cells column = some grown) : column < grown.length := by
  unfold grow? at h
  split_ifs at h with hin hfits
  · cases h
    exact hin
  · cases h
    simp only [List.length_append, List.length_replicate]
    omega

theorem length_place_le {cells : List Cell} (hcells : cells.length ≤ room) {column : Nat}
    (hcolumn : column < room) (cell : Cell) : (place cells column cell).length ≤ room := by
  rw [length_place]
  omega

variable (hroom : room < Text.bound64)
include hroom

/-- **A cell is put in exactly where there is room for its column.** -/
theorem place?_eq {cells : List Cell} (hcells : cells.length ≤ room) (column : Nat) (cell : Cell) :
    place? room cells column cell =
      if column < room then some (place cells column cell) else none := by
  by_cases hin : column < cells.length
  · have hgrow : grow? room cells column = some cells := if_pos hin
    rw [if_pos (Nat.lt_of_lt_of_le hin hcells), place?, hgrow, Option.bind_eq_bind,
      Option.bind_some, if_pos hin, place, if_pos hin]
  · by_cases hcolumn : column < room
    · have hgrow : grow? room cells column =
          some (cells ++ List.replicate (column + 1 - cells.length) Cell.empty) := by
        rw [grow?, if_neg hin, if_pos ⟨by omega, hcolumn⟩]
      -- the last one of the empty cells that are added is replaced
      have hgap : column + 1 - cells.length = (column - cells.length) + 1 := by omega
      rw [if_pos hcolumn, place?, hgrow, Option.bind_eq_bind, Option.bind_some,
        if_pos (lt_length_of_grow? hgrow), place, if_neg hin, hgap, List.replicate_succ',
        ← List.append_assoc, List.set_append_right _ _ (Nat.le_of_eq (length_gap hin)),
        length_gap hin, Nat.sub_self]
      rfl
    · have hgrow : grow? room cells column = none := by
        rw [grow?, if_neg hin, if_neg fun h => hcolumn h.2]
      rw [if_neg hcolumn, place?, hgrow]
      rfl

end Room

/-! ## All cells -/

variable (index : Nat) (cells : List (Nat × Cell))

/-- The row of some cells, however long it gets. -/
def ofSparse : Row := ⟨index, cells.foldl (fun row c => place row c.1 c.2) []⟩

theorem cells_ofSparse_append_singleton (x : Nat × Cell) :
    (ofSparse index (cells ++ [x])).cells = place (ofSparse index cells).cells x.1 x.2 := by
  rw [ofSparse, List.foldl_append]
  rfl

theorem length_ofSparse :
    (ofSparse index cells).cells.length = width (cells.map Prod.fst) := by
  induction cells using List.reverseRecOn with
  | nil => rfl
  | append_singleton cells x ih =>
    rw [cells_ofSparse_append_singleton, length_place, ih, List.map_append, List.map_singleton,
      width_append_singleton]

/-- **Every column has the last cell that is given for it, and a column without one is empty.** -/
theorem getD_ofSparse (column : Nat) :
    (ofSparse index cells).cells[column]?.getD .empty = (lastAt? cells column).getD .empty := by
  induction cells using List.reverseRecOn with
  | nil => rfl
  | append_singleton cells x ih =>
    rw [cells_ofSparse_append_singleton, getElem?_place, lastAt?_append_singleton, ih]
    split_ifs <;> rfl

theorem getElem?_ofSparse {column : Nat} (h : column < width (cells.map Prod.fst)) :
    (ofSparse index cells).cells[column]? = some ((lastAt? cells column).getD .empty) := by
  rw [← getD_ofSparse index cells]
  rw [← length_ofSparse index cells] at h
  rw [List.getElem?_eq_getElem h, Option.getD_some]

theorem cells_ofSparse : (ofSparse index cells).cells =
    (List.range (width (cells.map Prod.fst))).map fun column =>
      (lastAt? cells column).getD .empty := by
  apply List.ext_getElem?
  intro column
  by_cases h : column < width (cells.map Prod.fst)
  · rw [getElem?_ofSparse index cells h, List.getElem?_map, List.getElem?_range h, Option.map_some]
  · rw [List.getElem?_eq_none (by rw [length_ofSparse]; omega),
      List.getElem?_eq_none (by simp; omega)]

theorem index_of_ofSparse? {room index : Nat} {cells : List (Nat × Cell)} {r : Row}
    (h : ofSparse? room index cells = some r) : r.index = index := by
  obtain ⟨_, -, rfl⟩ := Option.map_eq_some_iff.mp h
  rfl

section Room

variable {room : Nat} (hroom : room < Text.bound64)
include hroom

theorem foldlM_place? {row : List Cell} (hrow : row.length ≤ room) :
    cells.foldlM (fun row c => place? room row c.1 c.2) row =
      if ∀ c ∈ cells, c.1 < room then some (cells.foldl (fun row c => place row c.1 c.2) row)
      else none := by
  induction cells generalizing row with
  | nil => simp
  | cons x cells ih =>
    rw [List.foldlM_cons, place?_eq hroom hrow]
    by_cases hx : x.1 < room
    · rw [if_pos hx, Option.bind_eq_bind, Option.bind_some, ih (length_place_le hrow hx x.2),
        List.foldl_cons]
      simp only [List.forall_mem_cons, hx, true_and]
    · rw [if_neg hx, if_neg fun h => hx (h x List.mem_cons_self)]
      rfl

/-- **There is a row exactly where there is room for all columns.** -/
theorem ofSparse?_eq : ofSparse? room index cells =
    if ∀ c ∈ cells, c.1 < room then some (ofSparse index cells) else none := by
  have hnil : ([] : List Cell).length ≤ room := Nat.zero_le room
  rw [ofSparse?, foldlM_place? cells hroom hnil]
  split_ifs <;> rfl

theorem ofSparse?_eq_some_iff {r : Row} : ofSparse? room index cells = some r ↔
    (∀ c ∈ cells, c.1 < room) ∧ r = ofSparse index cells := by
  rw [ofSparse?_eq index cells hroom, Option.ite_none_right_eq_some, Option.some.injEq,
    eq_comm (a := r)]

theorem ofSparse?_eq_none_iff :
    ofSparse? room index cells = none ↔ ∃ c ∈ cells, room ≤ c.1 := by
  rw [ofSparse?_eq index cells hroom, ite_eq_right_iff]
  simp

end Room

end SheetMarkup.Row
