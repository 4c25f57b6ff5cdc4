import SheetMarkup.Proofs.Source.Agreement

/-!
# Rows keyed by columns

The columns of a row may come in any order, of two cells for one column the later one stays, and a sheet
whose rows are keyed by columns agrees with the sheet that has their array forms: the empty cells in the
gaps show in no result.

* **`sparse_rows_agree`**: rows from cells with their columns, and sheets in the two forms;
* `sparse_row_without_room`: a column may be too far for a row.
-/

namespace SheetMarkup

open TomlSheet

/-- **Rows from cells with their columns.** There is a row exactly where there is room for all
columns, and sheets that are keyed by columns agree with those that have the array forms. -/
theorem sparse_rows_agree {room : Nat} (hroom : room < Text.bound64) :
    (∀ (index : Nat) (cells : List (Nat × Cell)), (∀ c ∈ cells, c.1 < room) →
      ∃ r, Row.ofSparse? room index cells = some r ∧ r.index = index ∧
        r.cells.length = Row.width (cells.map Prod.fst) ∧
        ∀ column < r.cells.length,
          r.cells[column]? = some ((Row.lastAt? cells column).getD .empty)) ∧
    (∀ (index : Nat) (cells : List (Nat × Cell)),
      Row.ofSparse? room index cells = none ↔ ∃ c ∈ cells, room ≤ c.1) ∧
    (∀ (cells grown : List Cell) (column : Nat),
      Row.grow? room cells column = some grown → column < grown.length) ∧
    (∀ (value value' : Toml.Value) (values : List Toml.Value), HasForm value values →
      HasForm value' values → ∀ (index : Nat) (span span' : Span),
        ((∃ r, rowOf room index (span, value) = .ok r) ↔
          (∀ v ∈ values, IsCell v) ∧ Within room value) ∧
        ∀ r r', rowOf room index (span, value) = .ok r →
          rowOf room index (span', value') = .ok r' →
            r.bare = plainRow index values ∧
              ∀ before after, Agree (before ++ r :: after) (before ++ r' :: after)) ∧
    (∀ (source source' : String) (forms : List (List Toml.Value)), Holds source forms →
      Holds source' forms →
        ((∃ rows, rowsWithin room source = .ok rows) ↔
          (∀ values ∈ forms, ∀ v ∈ values, IsCell v) ∧ HasRoom room source) ∧
        ∀ rows rows', rowsWithin room source = .ok rows → rowsWithin room source' = .ok rows' →
          rows.map Row.bare = (forms.zipIdx.map fun form => plainRow form.2 form.1) ∧
            Agree rows rows') := by
  refine ⟨?_, fun index cells => Row.ofSparse?_eq_none_iff index cells hroom,
    fun _ _ _ => Row.lt_length_of_grow?, ?_, ?_⟩
  · intro index cells hcells
    have hmade := (Row.ofSparse?_eq_some_iff index cells hroom).mpr ⟨hcells, rfl⟩
    refine ⟨Row.ofSparse index cells, hmade, rfl, Row.length_ofSparse index cells, ?_⟩
    rw [Row.length_ofSparse]
    exact fun column hcolumn => Row.getElem?_ofSparse index cells hcolumn
  · intro value value' values h h' index span span'
    refine ⟨exists_rowOf_iff hroom h index span, ?_⟩
    intro r r' hr hr'
    have hbare := bare_rowOf hroom h hr
    refine ⟨hbare, fun before after => agree_of_bare ?_⟩
    simp only [List.map_append, List.map_cons, hbare, bare_rowOf hroom h' hr']
  · intro source source' forms h h'
    refine ⟨h.exists_rowsWithin_iff hroom, ?_⟩
    intro rows rows' hrows hrows'
    have hbare := h.bare_rowsWithin hroom hrows
    exact ⟨hbare, agree_of_bare (hbare.trans (h'.bare_rowsWithin hroom hrows').symm)⟩

/-- A row whose keys are neither in the order of the columns nor in one case, and a number and an image
behind a gap. -/
def keyedSource : String :=
  "rows = [\x7b AA = \"size=12\", b = \"name=Big\", A = \"s\" \x7d, [\"p\", \"\", \"style=Big\"], " ++
    "\x7b c = 12, D = \x7b image = \"a.png\" \x7d \x7d]"

/-- The same rows as arrays. -/
def arraySource : String :=
  "rows = [[\"s\", \"name=Big\", " ++ String.join (List.replicate 24 "\"\", ") ++ "\"size=12\"], " ++
    "[\"p\", \"\", \"style=Big\"], [\"\", \"\", 12, \x7b image = \"a.png\" \x7d]]"

def keyedForms : List (List Toml.Value) :=
  [.string "s" :: .string "name=Big" :: List.replicate 24 (.string "") ++ [.string "size=12"],
    [.string "p", .string "", .string "style=Big"],
    [.string "", .string "", .integer 12, .table [("image", .string "a.png")]]]

/-- The values of the last row, as a table of which the keys come in their own order. -/
def keyedRow : Toml.Value :=
  .table [("D", .table [("image", .string "a.png")]), ("c", .integer 12)]

def arrayRow : Toml.Value :=
  .array [(⟨0, 0⟩, .string ""), (⟨0, 0⟩, .string ""), (⟨0, 0⟩, .integer 12),
    (⟨0, 0⟩, .table [("image", .string "a.png")])]

/-- The cells of `keyedRow`, and one that another replaces. -/
def keyedCells : List (Nat × Cell) :=
  [(3, .image "b.png"), (3, .image "a.png"), (2, .numeric "12")]

theorem sparse_rows_agree_keyedSource :
    (∃ r, Row.ofSparse? Row.maxLength 2 keyedCells = some r ∧ r.cells.length = 4 ∧
      r.cells[0]? = some .empty ∧ r.cells[3]? = some (.image "a.png")) ∧
    (∃ r r', rowOf Row.maxLength 2 (⟨73, 108⟩, keyedRow) = .ok r ∧
      rowOf Row.maxLength 2 (⟨73, 103⟩, arrayRow) = .ok r' ∧
      r.bare = ⟨2, [.empty, .empty, .ofText "12", .image "a.png"]⟩ ∧
      ∀ before after, Agree (before ++ r :: after) (before ++ r' :: after)) ∧
    Holds keyedSource keyedForms ∧ Holds arraySource keyedForms ∧
    ∃ rows rows', rowsOf keyedSource = .ok rows ∧ rowsOf arraySource = .ok rows' ∧
      rows.map Row.bare = [⟨0, .ofText "s" :: .ofText "name=Big" ::
        List.replicate 24 .empty ++ [.ofText "size=12"]⟩,
        ⟨1, [.ofText "p", .empty, .ofText "style=Big"]⟩,
        ⟨2, [.empty, .empty, .ofText "12", .image "a.png"]⟩] ∧
      Agree rows rows' := by
  obtain ⟨hmade, -, -, hrow, hsheet⟩ := sparse_rows_agree Row.maxLength_lt
  refine ⟨?_, ?_, ?_⟩
  · obtain ⟨r, hr, -, hlength, hcell⟩ := hmade 2 keyedCells (by decide)
    have hwidth : r.cells.length = 4 := hlength
    rw [hwidth] at hcell
    exact ⟨r, hr, hwidth, hcell 0 (by decide), hcell 3 (by decide)⟩
  · have hkeyed : HasForm keyedRow (keyedForms.getLastD []) := by decide +kernel
    have harray : HasForm arrayRow (keyedForms.getLastD []) := by decide +kernel
    have hcells : ∀ v ∈ keyedForms.getLastD [], IsCell v := by decide +kernel
    obtain ⟨hread, hagree⟩ := hrow _ _ _ hkeyed harray 2 ⟨73, 108⟩ ⟨73, 103⟩
    obtain ⟨r, hr⟩ := hread.mpr ⟨hcells, within_maxLength keyedRow⟩
    obtain ⟨r', hr'⟩ := (hrow _ _ _ harray hkeyed 2 ⟨73, 103⟩ ⟨73, 108⟩).1.mpr
      ⟨hcells, within_maxLength arrayRow⟩
    obtain ⟨hbare, hbetween⟩ := hagree r r' hr hr'
    exact ⟨r, r', hr, hr', hbare.trans (by decide +kernel), hbetween⟩
  · have hkeyed : Holds keyedSource keyedForms := by decide +kernel
    have harray : Holds arraySource keyedForms := by decide +kernel
    have hcells : ∀ values ∈ keyedForms, ∀ v ∈ values, IsCell v := by decide +kernel
    obtain ⟨hread, hagree⟩ := hsheet _ _ _ hkeyed harray
    obtain ⟨rows, hrows⟩ := hread.mpr ⟨hcells, hasRoom_maxLength keyedSource⟩
    obtain ⟨rows', hrows'⟩ := (hsheet _ _ _ harray hkeyed).1.mpr
      ⟨hcells, hasRoom_maxLength arraySource⟩
    obtain ⟨hbare, hrun⟩ := hagree rows rows' hrows hrows'
    exact ⟨hkeyed, harray, rows, rows', hrows, hrows', hbare.trans (by decide +kernel), hrun⟩

/-- A table of which the second key names a column beyond all that fits memory. -/
def wideEntries : List (String × Toml.Value) :=
  [("A", .string "p"), ("ZZZZZZZZZZZZZ", .string "")]

/-- **Not every list of cells has a row.** A length may leave 64 bits, and rows of 56 bytes a cell
may leave 63 bits of memory. -/
theorem sparse_row_without_room :
    Row.ofSparse? Row.maxLength 0 [(Text.bound64 - 1, .ofText "p")] = none ∧
      Keyed wideEntries ∧ (∀ e ∈ wideEntries, IsCell e.2) ∧
      rowOf ((2 ^ 63 - 1) / 56) 0 (⟨8, 38⟩, .table wideEntries) = .error .tooWide := by
  exact ⟨by decide +kernel, by decide +kernel, by decide +kernel, by decide +kernel⟩

end SheetMarkup
