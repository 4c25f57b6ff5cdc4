import SheetMarkup.Proofs.Csv.Quoted
import SheetMarkup.Proofs.Document.Unplaced
import SheetMarkup.Proofs.Source.Forms
import SheetMarkup.Proofs.Workbook.Decoding

/-!
# Agreement of the formats

A table of texts can be written in each format. Its readers differ in the kinds of cells, in cells that
are blank or missing and in places, and none of that shows in the blocks or the document.

* `Shows`: rows that say what a table says;
* `Agree`, `agree_of_shows`, `agree_of_bare`: two sheets with the same results, and what is enough
  for it;
* `shows_strings`, `shows_quotedText`, `shows_toml`, `shows_sheet`: the four readers;
* **`readers_agree`**: they agree on every table.
-/

namespace SheetMarkup

open Workbook (textCell)

/-! ## Results -/

/-- The two sheets are read as the same blocks and rendered as the same document, or refused for the
same fault at the same cell. Only places in the source text may differ. -/
structure Agree (rows rows' : List Row) : Prop where
  blocks : unplacedResult (List.map Block.unplaced) (parse rows) =
    unplacedResult (List.map Block.unplaced) (parse rows')
  document : ∀ config, unplacedResult Rendered.unplaced (parse rows >>= (render · config)) =
    unplacedResult Rendered.unplaced (parse rows' >>= (render · config))

/-- The rows of a table, of which the first has this index. -/
def tableRows (first : Nat) (table : List (List String)) : List Row :=
  (table.zipIdx first).map fun r => ⟨r.2, r.1.map textCell⟩

/-- The rows say what the table says. -/
def Shows (table : List (List String)) (rows : List Row) : Prop :=
  List.Forall₂ Row.SameContent (rows.map Row.bare) (tableRows 0 table)

theorem Shows.blocks {table : List (List String)} {rows : List Row} (h : Shows table rows) :
    unplacedResult (List.map Block.unplaced) (parse rows) = parse (tableRows 0 table) := by
  rw [← parse_bare, parse, parse, assemble, assemble, foldlM_tokensOf_congr h]

theorem Agree.of_blocks {rows rows' : List Row}
    (h : unplacedResult (List.map Block.unplaced) (parse rows) =
      unplacedResult (List.map Block.unplaced) (parse rows')) : Agree rows rows' := by
  have hrender : ∀ (rows : List Row) (config : Config),
      unplacedResult (List.map Block.unplaced) (parse rows) >>= (render · config) =
        unplacedResult Rendered.unplaced (parse rows >>= (render · config)) := by
    intro rows config
    apply unplacedResult_bind
    intro bs
    exact render_unplaced bs config
  refine ⟨h, ?_⟩
  intro config
  rw [← hrender, ← hrender, h]

/-- **Sheets that show one table agree.** -/
theorem agree_of_shows {table : List (List String)} {rows rows' : List Row} (h : Shows table rows)
    (h' : Shows table rows') : Agree rows rows' :=
  .of_blocks (h.blocks.trans h'.blocks.symm)

/-- **Sheets that differ only in places and in what is taken for a number agree.** -/
theorem agree_of_bare {rows rows' : List Row} (h : rows.map Row.bare = rows'.map Row.bare) :
    Agree rows rows' := by
  apply Agree.of_blocks
  rw [← parse_bare, ← parse_bare, h]

/-! ## Texts and quoted tables -/

theorem textCell_bare (field : String) : (textCell field).bare = textCell field := by
  unfold textCell
  split_ifs <;> rfl

theorem hasContent_of_isBlankText {c : Cell} (h : Text.isBlankText c.value = true) :
    c.hasContent = false := by
  have htrim : Text.trimChars c.value.toList = [] := (Text.trimChars_eq_nil_iff _).mpr h
  simp [Cell.hasContent, Cell.classify, htrim]

theorem sameContent_map {f g : String → Cell} (h : ∀ field, (f field).Alike (g field)) (index : Nat)
    (fields : List String) : Row.SameContent ⟨index, fields.map f⟩ ⟨index, fields.map g⟩ := by
  refine ⟨rfl, ?_⟩
  intro column
  show (((fields.map f)[column]?).getD .empty).Alike (((fields.map g)[column]?).getD .empty)
  rw [List.getElem?_map, List.getElem?_map]
  cases fields[column]? with
  | none => exact Or.inl rfl
  | some field => exact h field

theorem shows_of_cells {table : List (List String)} {rows : List Row} {f : String → Cell}
    (h : ∀ field, (f field).Alike (textCell field))
    (hrows : rows.map Row.bare = table.zipIdx.map fun r => ⟨r.2, r.1.map f⟩) : Shows table rows := by
  rw [Shows, hrows, tableRows, List.forall₂_map_left_iff, List.forall₂_map_right_iff,
    List.forall₂_same]
  intro r _
  exact sameContent_map h r.2 r.1

/-- The rows of a table of texts. -/
def rowsOfStrings (table : List (List String)) : List Row :=
  table.zipIdx.map fun r => Row.ofStrings r.2 r.1

theorem shows_strings (table : List (List String)) : Shows table (rowsOfStrings table) := by
  apply shows_of_cells (f := fun v => if v.isEmpty then Cell.empty else Cell.ofText v)
  · intro field
    by_cases hblank : Text.isBlankText field = true
    · right
      refine ⟨?_, ?_⟩
      · split_ifs
        · exact Cell.hasContent_empty
        · exact hasContent_of_isBlankText hblank
      · rw [textCell, if_pos hblank]
        exact Cell.hasContent_empty
    · left
      have hne : ¬ field.isEmpty = true := by
        intro hempty
        rw [String.isEmpty_iff] at hempty
        rw [hempty] at hblank
        exact hblank rfl
      rw [textCell, if_neg hblank, if_neg hne]
  · rw [rowsOfStrings, List.map_map]
    apply List.map_congr_left
    intro r _
    show (⟨r.2, (r.1.map _).map Cell.bare⟩ : Row) = _
    rw [List.map_map]
    congr 1
    apply List.map_congr_left
    intro field _
    show Cell.bare (if field.isEmpty then Cell.empty else Cell.ofText field) = _
    split_ifs <;> rfl

theorem bare_cellOf (field : String) : (Csv.cellOf field.toList).bare = textCell field := by
  unfold Csv.cellOf textCell Text.isBlankText
  rw [String.ofList_toList]
  split_ifs <;> rfl

theorem shows_quotedText (stop : Csv.LineEnd) (table : List (List String)) :
    Shows table (Csv.rowsOf (Csv.quotedText stop table)) := by
  apply shows_of_cells (f := textCell) (fun _ => Or.inl rfl)
  have hunplaced := congrArg (List.map Row.bare) (Csv.unplaced_rowsOf_quotedText stop table)
  simp only [List.map_map] at hunplaced
  have hbare : Row.bare ∘ Row.unplaced = Row.bare := by
    funext r
    show (⟨r.index, (r.cells.map Cell.unplaced).map Cell.bare⟩ : Row) = _
    rw [List.map_map]
    rfl
  rw [hbare] at hunplaced
  rw [hunplaced]
  apply List.map_congr_left
  intro r _
  simp [Row.bare, bare_cellOf]

/-! ## Arrays of texts -/

/-- The texts of an array of texts. -/
def TomlSheet.texts? : Toml.Value → Option (List String)
  | .array values => values.mapM fun v => Config.text? v.2
  | _ => none

/-- The table that a text holds as an array of arrays of texts. -/
def TomlSheet.table? (source : String) : Option (List (List String)) :=
  (items? source).bind fun items => items.mapM fun item => texts? item.2

theorem map_snd_of_texts {items : List (Span × Toml.Value)} {fields : List String}
    (h : TomlSheet.texts? (.array items) = some fields) :
    items.map Prod.snd = fields.map Toml.Value.string := by
  have htext : ∀ {v : Toml.Value} {field : String}, Config.text? v = some field →
      v = .string field := by
    intro v field hv
    cases v <;> cases hv
    rfl
  rw [← List.forall₂_eq_eq_eq, List.forall₂_map_left_iff, List.forall₂_map_right_iff]
  exact (Outcome.mapM_eq_some.mp h).imp fun _ _ hv => htext hv

theorem holds_of_table {source : String} {table : List (List String)}
    (h : TomlSheet.table? source = some table) :
    TomlSheet.Holds source (table.map fun fields => fields.map Toml.Value.string) := by
  obtain ⟨items, hitems, htable⟩ := Option.bind_eq_some_iff.mp h
  refine ⟨items, hitems, ?_⟩
  rw [List.forall₂_map_right_iff]
  apply (Outcome.mapM_eq_some.mp htable).imp
  rintro ⟨span, value⟩ fields hfields
  cases value with
  | array values => exact TomlSheet.hasForm_array_iff.mpr (map_snd_of_texts hfields)
  | string | integer | float | boolean | datetime | table => cases hfields

theorem plainRow_texts (index : Nat) (fields : List String) :
    TomlSheet.plainRow index (fields.map Toml.Value.string) = ⟨index, fields.map textCell⟩ := by
  rw [TomlSheet.plainRow, List.map_map]
  congr 1
  apply List.map_congr_left
  intro field _
  exact textCell_bare field

theorem shows_toml {source : String} {table : List (List String)}
    (h : TomlSheet.table? source = some table) :
    ∃ rows, TomlSheet.rowsOf source = .ok rows ∧ Shows table rows := by
  have hholds := holds_of_table h
  obtain ⟨rows, hrows⟩ := hholds.exists_rowsOf_iff.mpr (by
    simp only [List.forall_mem_map]
    exact fun _ _ field _ => .string field)
  refine ⟨rows, hrows, shows_of_cells (f := textCell) (fun _ => Or.inl rfl) ?_⟩
  rw [hholds.bare_rowsOf hrows, List.zipIdx_map, List.map_map]
  apply List.map_congr_left
  intro r _
  exact plainRow_texts r.2 r.1

/-! ## Worksheets -/

namespace Workbook

variable {strings : List String}

/-- The cell is an inline string that says the field, in its column. -/
def HoldsField (field : String × Nat) (e : Entry (CellSource strings)) : Prop :=
  e.place = field.2 ∧ ∃ runs, e.item = .inline runs ∧ String.join (runs.map Run.said) = field.1

/-- The cells of the row hold the fields that are not empty. -/
def RowSource.Holds (r : RowSource strings) (fields : List String) : Prop :=
  List.Forall₂ HoldsField (fields.zipIdx.filter fun field => !field.1.isEmpty) r.list

/-- The worksheet has a row for every row of the table. -/
def SheetSource.Holds (s : SheetSource strings) (table : List (List String)) : Prop :=
  List.Forall₂ (fun fields e => e.place = fields.2 ∧ RowSource.Holds e.item fields.1)
    table.zipIdx s.list

end Workbook

theorem spreadFrom_of_lt {α β : Type} {f : Nat → Option α → β} {next : Nat} {e : Entry α}
    (h : next < e.place) (es : List (Entry α)) :
    spreadFrom f next (e :: es) = f next none :: spreadFrom f (next + 1) (e :: es) := by
  have hgap : e.place - next = e.place - (next + 1) + 1 := by omega
  rw [spreadFrom, spreadFrom, hgap, List.range'_succ]
  rfl

theorem spreadFrom_of_eq {α β : Type} {f : Nat → Option α → β} {next : Nat} {e : Entry α}
    (h : e.place = next) (es : List (Entry α)) :
    spreadFrom f next (e :: es) = f next (some e.item) :: spreadFrom f (next + 1) es := by
  rw [spreadFrom, h, Nat.sub_self]
  rfl

open Workbook

variable {strings : List String}

theorem bare_decoded {field : String × Nat} {e : Entry (CellSource strings)}
    (h : HoldsField field e) : e.item.decoded.bare = textCell field.1 := by
  obtain ⟨-, runs, hitem, hsaid⟩ := h
  have hdecoded : e.item.decoded = textCell field.1 := by
    rw [hitem, ← hsaid]
    rfl
  rw [hdecoded, textCell_bare]

theorem lt_of_holdsField {fields : List String} {next : Nat} {e : Entry (CellSource strings)}
    {es : List (Entry (CellSource strings))}
    (h : List.Forall₂ HoldsField ((fields.zipIdx (next + 1)).filter fun field => !field.1.isEmpty)
      (e :: es)) : next < e.place := by
  obtain ⟨field, rest, hfield, -, heq⟩ := List.forall₂_cons_right_iff.mp h
  have hmem : field ∈ (fields.zipIdx (next + 1)).filter fun field => !field.1.isEmpty := by
    rw [heq]
    exact List.mem_cons_self
  have hle := (List.mem_zipIdx (List.mem_filter.mp hmem).1).1
  rw [hfield.1]
  omega

/-- **Between the cells of a worksheet there are only empty fields.** -/
theorem contentFrom_cells {fields : List String} {next : Nat}
    {es : List (Entry (CellSource strings))}
    (h : List.Forall₂ HoldsField ((fields.zipIdx next).filter fun field => !field.1.isEmpty) es) :
    contentFrom next ((spreadFrom (fun _ c => c.elim Cell.empty CellSource.decoded) next es).map
      Cell.bare) = contentFrom next (fields.map textCell) := by
  have hempty : ¬ Cell.empty.hasContent = true := by
    rw [Cell.hasContent_empty]
    exact Bool.false_ne_true
  induction fields generalizing next es with
  | nil =>
    cases h
    rfl
  | cons field fields ih =>
    rw [List.zipIdx_cons, List.filter_cons] at h
    by_cases hfield : field = ""
    · -- an empty field has no cell, so the next cell stands further on
      subst hfield
      have hrest : List.Forall₂ HoldsField
          ((fields.zipIdx (next + 1)).filter fun field => !field.1.isEmpty) es := h
      have hblank : textCell "" = Cell.empty := rfl
      rw [List.map_cons, contentFrom_cons, hblank, if_neg hempty, ← ih hrest]
      cases es with
      | nil => rfl
      | cons e es =>
        rw [spreadFrom_of_lt (lt_of_holdsField hrest), List.map_cons, contentFrom_cons]
        exact if_neg hempty
    · rw [if_pos (by simpa using hfield)] at h
      obtain ⟨e, es, hcell, hrest, rfl⟩ := List.forall₂_cons_left_iff.mp h
      rw [spreadFrom_of_eq hcell.1, List.map_cons, List.map_cons, contentFrom_cons,
        contentFrom_cons, ih hrest, Option.elim_some, bare_decoded hcell]

theorem sameContent_row {r : RowSource strings} {fields : List String} (h : r.Holds fields)
    (index : Nat) : Row.SameContent (Row.bare ⟨index, r.cells⟩) ⟨index, fields.map textCell⟩ := by
  rw [Row.sameContent_iff]
  refine ⟨rfl, ?_⟩
  show contentFrom 0 (r.cells.map Cell.bare) = contentFrom 0 (fields.map textCell)
  rw [RowSource.cells, Entries.spread_eq]
  exact contentFrom_cells h

theorem sameContent_rows {table : List (List String)} {first : Nat}
    {es : List (Entry (RowSource strings))}
    (h : List.Forall₂ (fun fields e => e.place = fields.2 ∧ RowSource.Holds e.item fields.1)
      (table.zipIdx first) es) :
    List.Forall₂ Row.SameContent
      ((spreadFrom (fun i r => Row.mk i (r.elim [] RowSource.cells)) first es).map Row.bare)
      (tableRows first table) := by
  induction table generalizing first es with
  | nil =>
    cases h
    exact .nil
  | cons fields table ih =>
    rw [List.zipIdx_cons] at h
    obtain ⟨e, es, ⟨hplace, hholds⟩, hrest, rfl⟩ := List.forall₂_cons_left_iff.mp h
    rw [spreadFrom_of_eq hplace, List.map_cons, tableRows, List.zipIdx_cons, List.map_cons]
    exact .cons (sameContent_row hholds first) (ih hrest)

theorem shows_sheet {s : SheetSource strings} {table : List (List String)} (h : s.Holds table) :
    Shows table s.rows := by
  rw [Shows, SheetSource.rows, Entries.spread_eq]
  exact sameContent_rows h

/-! ## All readers -/

/-- **The readers agree.** One table in any of four forms gives the same blocks and document, or the
same fault and cell. -/
theorem readers_agree {table : List (List String)} {source : String}
    (htoml : TomlSheet.table? source = some table) {s : SheetSource strings} (hsheet : s.Holds table)
    (stop : Csv.LineEnd) (part : String) (pictures : PictureIndex) :
    ∃ tomlRows sheetRows, TomlSheet.rowsOf source = .ok tomlRows ∧
      readMarkup part s.text (worksheetRows strings pictures) = .ok sheetRows ∧
      List.Pairwise Agree
        [rowsOfStrings table, Csv.rowsOf (Csv.quotedText stop table), tomlRows, sheetRows] := by
  obtain ⟨tomlRows, hrows, hshows⟩ := shows_toml htoml
  refine ⟨tomlRows, s.rows, hrows, readMarkup_sheet part s, ?_⟩
  have hall : ∀ rows ∈ [rowsOfStrings table, Csv.rowsOf (Csv.quotedText stop table), tomlRows, s.rows],
      Shows table rows := by
    simp only [List.forall_mem_cons]
    exact ⟨shows_strings table, shows_quotedText stop table, hshows, shows_sheet hsheet, by simp⟩
  apply List.pairwise_of_forall_mem_list
  intro rows hmem rows' hmem'
  exact agree_of_shows (hall rows hmem) (hall rows' hmem')

/-- A style, a blank row, a gap before an argument, a number, blanks and an escaped text. -/
def sampleTable : List (List String) :=
  [["s", "name=Big"], [], ["p", "", "style=Big"], ["", " 12 ", " "], ["", "a < b"]]

def sampleToml : String :=
  "rows = [[\"s\", \"name=Big\"], [], [\"p\", \"\", \"style=Big\"], [\"\", \" 12 \", \" \"], [\"\", \"a < b\"]]"

theorem succ_lt_bound64 {n : Nat} (h : n < 100) : n + 1 < Text.bound64 := by
  unfold Text.bound64
  omega

/-- A cell with an inline string. -/
def inlineEntry (column : Nat) (told : Bool) (field : String) (h : column < 100 := by decide) :
    Entry (CellSource []) :=
  ⟨column, told, .inline [.plain field (.escaped field)], succ_lt_bound64 h⟩

def rowEntry (row : Nat) (told : Bool) (cells : RowSource []) (h : row < 100 := by decide) :
    Entry (RowSource []) :=
  ⟨row, told, cells, succ_lt_bound64 h⟩

/-- The table as a worksheet, with some places told. -/
def tableSheet : SheetSource [] where
  list := [
    rowEntry 0 true ⟨[inlineEntry 0 true "s", inlineEntry 1 false "name=Big"],
      by simp [InOrder, inlineEntry]⟩,
    rowEntry 1 false ⟨[], by simp [InOrder]⟩,
    rowEntry 2 false ⟨[inlineEntry 0 false "p", inlineEntry 2 true "style=Big"],
      by simp [InOrder, inlineEntry]⟩,
    rowEntry 3 true ⟨[inlineEntry 1 true " 12 ", inlineEntry 2 false " "],
      by simp [InOrder, inlineEntry]⟩,
    rowEntry 4 false ⟨[inlineEntry 1 true "a < b"], by simp [InOrder, inlineEntry]⟩]
  inOrder := by simp [InOrder, rowEntry]

theorem readers_agree_sampleTable :
    TomlSheet.table? sampleToml = some sampleTable ∧ tableSheet.Holds sampleTable ∧
    ∃ tomlRows sheetRows, TomlSheet.rowsOf sampleToml = .ok tomlRows ∧
      readMarkup "xl/worksheets/sheet1.xml" tableSheet.text (worksheetRows [] {}) = .ok sheetRows ∧
      List.Pairwise Agree [rowsOfStrings sampleTable,
        Csv.rowsOf (Csv.quotedText .pair sampleTable), tomlRows, sheetRows] := by
  have htoml : TomlSheet.table? sampleToml = some sampleTable := by decide +kernel
  have hsheet : tableSheet.Holds sampleTable := by
    simp [SheetSource.Holds, RowSource.Holds, HoldsField, tableSheet, sampleTable, rowEntry,
      inlineEntry, Run.said]
  exact ⟨htoml, hsheet, readers_agree htoml hsheet .pair _ _⟩

end SheetMarkup
