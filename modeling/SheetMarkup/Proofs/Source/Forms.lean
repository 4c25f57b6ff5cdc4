import SheetMarkup.Proofs.Script.Unplaced
import SheetMarkup.Proofs.Sheet.Columns
import SheetMarkup.Proofs.Sheet.Sparse
import SheetMarkup.Source.Toml

/-!
# The values of rows

A row is written as an array of values, or as a table whose keys are the names of columns. Such a table
is read as the array that has the same values in their columns and empty texts in the gaps: the keys may
stand in any case and any order.

* `TomlSheet.Keyed`, `TomlSheet.arrayForm`, `TomlSheet.HasForm`: tables of that kind, and the values of
  a row column by column;
* `TomlSheet.Within`, `TomlSheet.HasRoom`: there is room for a row, or for all rows;
* `TomlSheet.IsCell`, `TomlSheet.plainCell`: the values that are cells, and their cells;
* `exists_rowOf_iff`, **`bare_rowOf`**: one row (the step);
* `Holds.exists_rowsWithin_iff`, **`Holds.bare_rowsWithin`**: a sheet (the run);
* `Holds.exists_rowsOf_iff`: there is always room as far as 64 bits count.
-/

namespace SheetMarkup

namespace TomlSheet

open Toml (Value)

/-! ## The two forms of a row -/

/-- The columns that the keys of a table name. -/
def columnsOf (entries : List (String × Value)) : List Nat :=
  entries.filterMap fun e => columnIndex? e.1

/-- The keys of a table are names of columns, and no two of them name one column. -/
structure Keyed (entries : List (String × Value)) : Prop where
  named : ∀ e ∈ entries, (columnIndex? e.1).isSome = true
  distinct : (columnsOf entries).Nodup

/-- The value whose key names a column. -/
def valueAt? (entries : List (String × Value)) (column : Nat) : Option Value :=
  (entries.find? fun e => columnIndex? e.1 == some column).map Prod.snd

/-- The values of a table up to its last column, with empty texts in the gaps. -/
def arrayForm (entries : List (String × Value)) : List Value :=
  (List.range (Row.width (columnsOf entries))).map fun column =>
    (valueAt? entries column).getD (.string "")

/-- There is room for a row up to the last column that its keys name. -/
def Within (room : Nat) : Value → Prop
  | .table entries => ∀ column ∈ columnsOf entries, column < room
  | _ => True

/-- There is room for all rows of a text. -/
def HasRoom (room : Nat) (source : String) : Prop :=
  ∀ items ∈ items? source, ∀ item ∈ items, Within room item.2

/-- A row has these values: as an array, or as a table keyed by columns. -/
inductive HasForm : Value → List Value → Prop where
  | array (items : List (Span × Value)) : HasForm (.array items) (items.map Prod.snd)
  | table {entries : List (String × Value)} (keyed : Keyed entries) :
    HasForm (.table entries) (arrayForm entries)

/-- The rows of a text have these values. -/
def Holds (source : String) (forms : List (List Value)) : Prop :=
  ∃ items, items? source = some items ∧
    List.Forall₂ (fun (item : Span × Value) values => HasForm item.2 values) items forms

instance (entries : List (String × Value)) : Decidable (Keyed entries) :=
  decidable_of_iff ((∀ e ∈ entries, (columnIndex? e.1).isSome = true) ∧ (columnsOf entries).Nodup)
    ⟨fun h => ⟨h.1, h.2⟩, fun h => ⟨h.named, h.distinct⟩⟩

theorem hasForm_array_iff {items : List (Span × Value)} {values : List Value} :
    HasForm (.array items) values ↔ items.map Prod.snd = values := by
  constructor
  · rintro ⟨⟩
    rfl
  · rintro rfl
    exact .array items

theorem hasForm_table_iff {entries : List (String × Value)} {values : List Value} :
    HasForm (.table entries) values ↔ Keyed entries ∧ arrayForm entries = values := by
  constructor
  · rintro ⟨⟩
    exact ⟨‹_›, rfl⟩
  · rintro ⟨hkeyed, rfl⟩
    exact .table hkeyed

instance : (value : Value) → (values : List Value) → Decidable (HasForm value values)
  | .array _, _ => decidable_of_iff' _ hasForm_array_iff
  | .table _, _ => decidable_of_iff' _ hasForm_table_iff
  | .string _, _ | .integer _, _ | .float _, _ | .boolean _, _ | .datetime _, _ => .isFalse nofun

instance (source : String) (forms : List (List Value)) : Decidable (Holds source forms) :=
  inferInstanceAs (Decidable (∃ items, items ∈ items? source ∧
    List.Forall₂ (fun (item : Span × Value) values => HasForm item.2 values) items forms))

/-- The name of a column leaves room for one more. -/
theorem within_maxLength (value : Value) : Within Row.maxLength value := by
  cases value with
  | table entries =>
    intro column hcolumn
    obtain ⟨e, -, hname⟩ := List.mem_filterMap.mp hcolumn
    obtain ⟨-, -, -, hfits⟩ := columnIndex?_eq_some.mp hname
    unfold Row.maxLength
    omega
  | string | integer | float | boolean | datetime | array => trivial

theorem hasRoom_maxLength (source : String) : HasRoom Row.maxLength source :=
  fun _ _ item _ => within_maxLength item.2

/-! ## Cells -/

/-- The values that are cells: texts, numbers, truth values and images. -/
inductive IsCell : Value → Prop where
  | string (s : String) : IsCell (.string s)
  | integer (n : Int) : IsCell (.integer n)
  | float (x : Text.Binary64) : IsCell (.float x)
  | boolean (b : Bool) : IsCell (.boolean b)
  | image (source : String) : IsCell (.table [("image", .string source)])

/-- The cell of a value. One that is none counts as empty. -/
def plainCell (v : Value) : Cell :=
  match cellOf 0 v with
  | .ok c => c
  | .error _ => .empty

theorem cellOf_eq_ok_iff {row : Nat} {v : Value} {c : Cell} :
    cellOf row v = .ok c ↔ IsCell v ∧ c = plainCell v := by
  constructor
  · intro h
    unfold cellOf at h
    split at h <;> cases h
    · exact ⟨.string _, rfl⟩
    · exact ⟨.integer _, rfl⟩
    · exact ⟨.float _, rfl⟩
    · exact ⟨.boolean _, rfl⟩
    · exact ⟨.image _, rfl⟩
  · rintro ⟨hcell, rfl⟩
    cases hcell <;> rfl

instance (v : Value) : Decidable (IsCell v) :=
  decidable_of_iff ((cellOf 0 v).isOk = true) (by
    constructor
    · intro hok
      obtain ⟨c, hc⟩ := Outcome.exists_of_isOk hok
      exact (cellOf_eq_ok_iff.mp hc).1
    · intro hcell
      rw [cellOf_eq_ok_iff.mpr ⟨hcell, rfl⟩]
      rfl)

/-- A cell of a table with its column, at the place of the row. -/
def sparseCell (span : Span) (e : String × Value) : Nat × Cell :=
  ((columnIndex? e.1).getD 0, (plainCell e.2).withSpan span)

theorem sparseCells_eq_ok_iff {row : Nat} {span : Span} {entries : List (String × Value)}
    {cells : List (Nat × Cell)} : sparseCells row span entries = .ok cells ↔
      (∀ e ∈ entries, (columnIndex? e.1).isSome = true ∧ IsCell e.2) ∧
        cells = entries.map (sparseCell span) := by
  induction entries generalizing cells with
  | nil =>
    rw [sparseCells, Except.ok.injEq]
    exact ⟨fun h => ⟨by simp, h.symm⟩, fun h => h.2.symm⟩
  | cons e entries ih =>
    obtain ⟨key, v⟩ := e
    rw [sparseCells, List.forall_mem_cons, List.map_cons, sparseCell]
    cases columnIndex? key with
    | none => simp
    | some column =>
      simp only [Option.isSome_some, true_and, Option.getD_some, Outcome.bind_eq_ok,
        cellOf_eq_ok_iff, ih, Except.ok.injEq]
      constructor
      · rintro ⟨c, ⟨hcell, rfl⟩, rest, ⟨hcells, rfl⟩, rfl⟩
        exact ⟨⟨hcell, hcells⟩, rfl⟩
      · rintro ⟨⟨hcell, hcells⟩, rfl⟩
        exact ⟨_, ⟨hcell, rfl⟩, _, ⟨hcells, rfl⟩, rfl⟩

/-! ## Columns of a table -/

theorem find?_of_nodup_filterMap {α β : Type} [BEq β] [LawfulBEq β] {f : α → Option β}
    {xs : List α} (h : (xs.filterMap f).Nodup) {x : α} (hx : x ∈ xs) {b : β} (hb : f x = some b) :
    xs.find? (fun y => f y == some b) = some x := by
  induction xs with
  | nil => cases hx
  | cons y ys ih =>
    rcases List.mem_cons.mp hx with rfl | hx
    · rw [List.find?_cons_of_pos (by simp [hb])]
    · have hmem : b ∈ ys.filterMap f := List.mem_filterMap.mpr ⟨x, hx, hb⟩
      cases hy : f y with
      | none =>
        rw [List.filterMap_cons_none hy] at h
        rw [List.find?_cons_of_neg (by simp [hy])]
        exact ih h hx
      | some c =>
        rw [List.filterMap_cons_some hy, List.nodup_cons] at h
        have hne : c ≠ b := fun heq => h.1 (heq ▸ hmem)
        rw [List.find?_cons_of_neg (by simpa [hy] using hne)]
        exact ih h.2 hx

section Columns

variable {entries : List (String × Value)} (h : Keyed entries)

include h

theorem columns_sparseCell (span : Span) :
    (entries.map (sparseCell span)).map Prod.fst = columnsOf entries := by
  rw [List.map_map, columnsOf, ← List.filterMap_eq_map]
  apply List.filterMap_congr
  intro e he
  obtain ⟨column, hcolumn⟩ := Option.isSome_iff_exists.mp (h.named e he)
  simp [sparseCell, hcolumn]

/-- The cell of a column is that of the one entry whose key names it. -/
theorem lastAt?_sparseCell (span : Span) (column : Nat) :
    Row.lastAt? (entries.map (sparseCell span)) column =
      (valueAt? entries column).map fun v => (plainCell v).withSpan span := by
  have hdistinct : ((entries.map (sparseCell span)).map Prod.fst).Nodup := by
    rw [columns_sparseCell h]
    exact h.distinct
  have hkey : ∀ e ∈ entries, ((sparseCell span e).1 == column) =
      (columnIndex? e.1 == some column) := by
    intro e he
    obtain ⟨n, hn⟩ := Option.isSome_iff_exists.mp (h.named e he)
    simp [sparseCell, hn]
  have hfind : entries.find? ((fun c => c.1 == column) ∘ sparseCell span) =
      entries.find? fun e => columnIndex? e.1 == some column := by
    rw [← List.head?_filter, ← List.head?_filter]
    exact congrArg List.head? (List.filter_congr hkey)
  rw [Row.lastAt?_of_nodup hdistinct, List.find?_map, hfind, valueAt?, Option.map_map,
    Option.map_map]
  rfl

theorem valueAt?_of_mem {e : String × Value} (he : e ∈ entries) :
    ∃ column < Row.width (columnsOf entries), valueAt? entries column = some e.2 := by
  obtain ⟨column, hcolumn⟩ := Option.isSome_iff_exists.mp (h.named e he)
  have hmem : column ∈ columnsOf entries := List.mem_filterMap.mpr ⟨e, he, hcolumn⟩
  refine ⟨column, Row.lt_width hmem, ?_⟩
  rw [valueAt?, find?_of_nodup_filterMap h.distinct he hcolumn]
  rfl

theorem isCell_arrayForm_iff :
    (∀ v ∈ arrayForm entries, IsCell v) ↔ ∀ e ∈ entries, IsCell e.2 := by
  rw [arrayForm, List.forall_mem_map]
  constructor
  · intro hcells e he
    obtain ⟨column, hlt, hvalue⟩ := valueAt?_of_mem h he
    have hcell := hcells column (List.mem_range.mpr hlt)
    rwa [hvalue] at hcell
  · intro hcells column _
    cases hvalue : valueAt? entries column with
    | none => exact .string ""
    | some v =>
      obtain ⟨e, he, rfl⟩ := Option.map_eq_some_iff.mp hvalue
      exact hcells e (List.mem_of_find?_eq_some he)

/-- **The row of a table has the cells of its array form.** -/
theorem bare_ofSparse (index : Nat) (span : Span) :
    (Row.ofSparse index (entries.map (sparseCell span))).bare =
      ⟨index, (arrayForm entries).map fun v => (plainCell v).bare⟩ := by
  show (⟨index, _⟩ : Row) = _
  rw [Row.cells_ofSparse, columns_sparseCell h, arrayForm, List.map_map, List.map_map]
  congr 1
  apply List.map_congr_left
  intro column _
  simp only [Function.comp_apply, lastAt?_sparseCell h]
  cases valueAt? entries column <;> rfl

end Columns

/-! ## One row -/

/-- The row of some values, without places. -/
def plainRow (index : Nat) (values : List Value) : Row :=
  ⟨index, values.map fun v => (plainCell v).bare⟩

section Rows

variable {room index : Nat} {value : Value} {values : List Value} {span : Span}

theorem rowOf_array_eq_ok_iff {items : List (Span × Value)} {r : Row} :
    rowOf room index (span, .array items) = .ok r ↔
      (∀ v ∈ items.map Prod.snd, IsCell v) ∧
        r = ⟨index, items.map fun v => (plainCell v.2).withSpan span⟩ := by
  have hcell : ∀ (v : Span × Value) (c : Cell),
      (cellOf (index + 1) v.2).map (·.withSpan span) = .ok c ↔
        IsCell v.2 ∧ c = (plainCell v.2).withSpan span := by
    intro v c
    rw [Outcome.map_eq_ok]
    simp only [cellOf_eq_ok_iff]
    constructor
    · rintro ⟨_, ⟨hv, rfl⟩, rfl⟩
      exact ⟨hv, rfl⟩
    · rintro ⟨hv, rfl⟩
      exact ⟨_, ⟨hv, rfl⟩, rfl⟩
  show (items.mapM _ >>= _) = _ ↔ _
  rw [Outcome.bind_eq_ok, List.forall_mem_map]
  simp only [Outcome.mapM_eq_ok_iff hcell, Except.ok.injEq]
  constructor
  · rintro ⟨_, ⟨hcells, rfl⟩, rfl⟩
    exact ⟨hcells, rfl⟩
  · rintro ⟨hcells, rfl⟩
    exact ⟨_, ⟨hcells, rfl⟩, rfl⟩

variable (hroom : room < Text.bound64)
include hroom

theorem rowOf_table_eq_ok_iff {entries : List (String × Value)} (h : Keyed entries) {r : Row} :
    rowOf room index (span, .table entries) = .ok r ↔
      (∀ v ∈ arrayForm entries, IsCell v) ∧ Within room (.table entries) ∧
        r = Row.ofSparse index (entries.map (sparseCell span)) := by
  have hmade : ∀ cells : List (Nat × Cell),
      (Row.ofSparse? room index cells).elim (.error Refusal.tooWide) Except.ok = .ok r ↔
        (∀ c ∈ cells, c.1 < room) ∧ r = Row.ofSparse index cells := by
    intro cells
    rw [← Row.ofSparse?_eq_some_iff index cells hroom]
    cases Row.ofSparse? room index cells <;> simp
  have hwithin : Within room (.table entries) ↔
      ∀ c ∈ entries.map (sparseCell span), c.1 < room := by
    rw [Within, ← columns_sparseCell h span, List.forall_mem_map]
  show (sparseCells _ _ entries >>= _) = _ ↔ _
  rw [Outcome.bind_eq_ok, isCell_arrayForm_iff h, hwithin]
  simp only [sparseCells_eq_ok_iff]
  constructor
  · rintro ⟨_, ⟨hcells, rfl⟩, hrow⟩
    exact ⟨fun e he => (hcells e he).2, (hmade _).mp hrow⟩
  · rintro ⟨hcells, hrow⟩
    exact ⟨_, ⟨fun e he => ⟨h.named e he, hcells e he⟩, rfl⟩, (hmade _).mpr hrow⟩

/-- **A row is read in either form if its values are cells and there is room for it.** -/
theorem exists_rowOf_iff (h : HasForm value values) (index : Nat) (span : Span) :
    (∃ r, rowOf room index (span, value) = .ok r) ↔
      (∀ v ∈ values, IsCell v) ∧ Within room value := by
  cases h with
  | array items =>
    simp only [rowOf_array_eq_ok_iff, exists_and_left, exists_eq, and_true, Within]
  | table keyed =>
    simp only [rowOf_table_eq_ok_iff hroom keyed, exists_and_left, exists_eq, and_true]

/-- **Both forms of a row have the same cells.** -/
theorem bare_rowOf (h : HasForm value values) {r : Row}
    (hr : rowOf room index (span, value) = .ok r) : r.bare = plainRow index values := by
  cases h with
  | array items =>
    obtain ⟨-, rfl⟩ := rowOf_array_eq_ok_iff.mp hr
    simp only [Row.bare, plainRow, List.map_map]
    rfl
  | table keyed =>
    obtain ⟨-, -, rfl⟩ := (rowOf_table_eq_ok_iff hroom keyed).mp hr
    exact bare_ofSparse keyed index span

end Rows

/-! ## All rows -/

section Sheets

variable {room : Nat} (hroom : room < Text.bound64)

section Items

variable {items : List (Span × Value)} {forms : List (List Value)}
  (h : List.Forall₂ (fun (item : Span × Value) values => HasForm item.2 values) items forms)

include hroom h

theorem exists_mapM_rowOf_iff (first : Nat) :
    (∃ rows, (items.zipIdx first).mapM (fun item => rowOf room item.2 item.1) = .ok rows) ↔
      (∀ values ∈ forms, ∀ v ∈ values, IsCell v) ∧ ∀ item ∈ items, Within room item.2 := by
  induction h generalizing first with
  | nil => simp [pure, Except.pure]
  | @cons item values items forms hitem _ ih =>
    have hrow := exists_rowOf_iff hroom hitem first item.1
    rw [List.forall_mem_cons, List.forall_mem_cons, and_and_and_comm, ← ih (first + 1), ← hrow]
    simp only [Outcome.mapM_eq_ok, List.zipIdx_cons, List.forall₂_cons_left_iff]
    constructor
    · rintro ⟨_, r, rows, hr, hrows, rfl⟩
      exact ⟨⟨r, hr⟩, rows, hrows⟩
    · rintro ⟨⟨r, hr⟩, rows, hrows⟩
      exact ⟨_, r, rows, hr, hrows, rfl⟩

theorem bare_mapM_rowOf {first : Nat} {rows : List Row}
    (hrows : (items.zipIdx first).mapM (fun item => rowOf room item.2 item.1) = .ok rows) :
    rows.map Row.bare = (forms.zipIdx first).map fun form => plainRow form.2 form.1 := by
  rw [Outcome.mapM_eq_ok] at hrows
  induction h generalizing first rows with
  | nil =>
    cases hrows
    rfl
  | @cons item values items forms hitem _ ih =>
    rw [List.zipIdx_cons, List.forall₂_cons_left_iff] at hrows
    obtain ⟨r, rest, hr, hrest, rfl⟩ := hrows
    rw [List.map_cons, List.zipIdx_cons, List.map_cons, ih hrest, bare_rowOf hroom hitem hr]

end Items

variable {source : String} {forms : List (List Value)} (h : Holds source forms)
include h

section Within

include hroom

/-- **A sheet is read if the values of its rows are cells and there is room for all rows.** -/
theorem Holds.exists_rowsWithin_iff : (∃ rows, rowsWithin room source = .ok rows) ↔
    (∀ values ∈ forms, ∀ v ∈ values, IsCell v) ∧ HasRoom room source := by
  obtain ⟨items, hitems, hforms⟩ := h
  have hread := exists_mapM_rowOf_iff hroom hforms 0
  simpa only [rowsWithin, HasRoom, hitems, Option.mem_some_iff, forall_eq'] using hread

theorem Holds.bare_rowsWithin {rows : List Row} (hrows : rowsWithin room source = .ok rows) :
    rows.map Row.bare = forms.zipIdx.map fun form => plainRow form.2 form.1 := by
  obtain ⟨items, hitems, hforms⟩ := h
  rw [rowsWithin, hitems] at hrows
  exact bare_mapM_rowOf hroom hforms hrows

end Within

theorem Holds.exists_rowsOf_iff :
    (∃ rows, rowsOf source = .ok rows) ↔ ∀ values ∈ forms, ∀ v ∈ values, IsCell v :=
  (h.exists_rowsWithin_iff Row.maxLength_lt).trans (and_iff_left (hasRoom_maxLength source))

theorem Holds.bare_rowsOf {rows : List Row} (hrows : rowsOf source = .ok rows) :
    rows.map Row.bare = forms.zipIdx.map fun form => plainRow form.2 form.1 :=
  h.bare_rowsWithin Row.maxLength_lt hrows

end Sheets

end TomlSheet

end SheetMarkup
