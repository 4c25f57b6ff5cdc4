import SheetMarkup.Proofs.Document.Registry
import SheetMarkup.Proofs.Script.Acceptance

/-!
# Where errors and warnings are found

Every error of a sheet is found at a cell with content that holds what is reported, and every
warning at the cell of the command that it is about. Origins are handed on from cells to tokens,
arguments, blocks and descriptors; what is proved of each of them here is that it still has the
origin of its cell.

* `Fault.HeldBy`, `Error.LocatedIn`: a cell holds what is reported, and an error points at it;
* `Doubt.IsAbout`, `Warning.LocatedIn`: the same for warnings and blocks;
* `heldBy_of_fault?`: the fault of a wrong cell;
* `Row.exists_cell_of_mem_arguments`: the cell of an argument;
* `locatedIn_of_ofBlock`, `locatedIn_of_styleOf`: the errors of style and paragraph blocks;
* `isAbout_of_mem_warningsOf`: the block of a warning;
* **`diagnostics_located`**: the errors and warnings of all sheets.
-/

namespace SheetMarkup

open Outcome Registry

/-! ## What is claimed of errors -/

/-- The cell is a setting of this name and value. -/
def Cell.Assigns (c : Cell) (name value : String) : Prop :=
  ∃ a, Argument.parse c.value = .ok a ∧ a.name = name ∧ a.value = value

/-- The cell in a column of a row holds what a fault reports. -/
def Fault.HeldBy (r : Row) (column : Nat) (c : Cell) : Fault → Prop
  | unknownCommand word => column = 0 ∧ c.word = word
  | argumentWithoutCommand _ => False
  | malformedArgument payload => Text.trim c.value = payload
  | unknownArgument command name => r.command? = some command ∧ ∃ value, c.Assigns name value
  | missingStyleName => column = 0 ∧ r.command? = some .style
  | invalidStyleName value => c.Assigns "name" value
  | invalidColor value => c.Assigns "color" value
  | invalidSize value => c.Assigns "size" value
  | unresolvedStyleReference value => c.Assigns "style" value

/-- The error points at a cell with content of the sheet that holds what is reported. -/
def Error.LocatedIn (rows : List Row) (e : Error) : Prop :=
  ∃ r ∈ rows, ∃ column c, r.cells[column]? = some c ∧ c.hasContent = true ∧
    e.origin = some ⟨⟨r.index, column⟩, c.span⟩ ∧ e.fault.HeldBy r column c

/-- The sheet is refused, or its script cannot be rendered. -/
def FailsWith (rows : List Row) (config : Config) (e : Error) : Prop :=
  parse rows = .error e ∨ ∃ blocks, parse rows = .ok blocks ∧ render blocks config = .error e

/-! ## What is claimed of warnings -/

/-- The style that a block declares. -/
def Block.Declares (b : Block) (s : Descriptor) : Prop :=
  b.command = .style ∧ Descriptor.ofBlock b = .ok s

/-- The block of a script that a doubt about its document is about. -/
def Doubt.IsAbout (blocks : List Block) (d : Document) (b : Block) : Doubt → Prop
  | ignoredBody name => b.body ≠ [] ∧ ∃ s, b.Declares s ∧ s.name = name
  | redeclared id => (∃ s, b.Declares s ∧ s.id = id) ∧ ∃ before after,
      styleBlocks blocks = before ++ b :: after ∧ ∃ b' ∈ before, ∃ s, b'.Declares s ∧ s.id = id
  | unknownParent id parent => (∃ s, b.Declares s ∧ s.id = id ∧ s.parent = some parent) ∧
      parent ≠ d.defaultStyle ∧ ∀ s ∈ d.styles, s.id ≠ parent
  | repeatedStyle count => b.command = .paragraph ∧ 1 < count ∧
      (b.argumentsNamed "style").length = count

/-- The warning points at the cell of the command of a block that it is about. -/
def Warning.LocatedIn (rows : List Row) (d : Document) (w : Warning) : Prop :=
  ∃ g ∈ groupsOf rows, ∃ c, g.head.cells.head? = some c ∧ c.hasContent = true ∧
    w.origin = some ⟨⟨g.head.index, 0⟩, c.span⟩ ∧
    w.doubt.IsAbout ((groupsOf rows).map Group.block) d g.block

/-! ## Wrong cells -/

theorem Row.cell_of_mem_placed {r : Row} {p : Placed} (h : p ∈ r.placed) :
    p.row = r.index ∧ r.cells.head? = some p.head ∧ r.cells[p.column]? = some p.cell := by
  unfold placed at h
  cases hc : r.cells with
  | nil => rw [hc] at h; cases h
  | cons head cells =>
    rw [hc] at h
    obtain ⟨⟨c, column⟩, hx, rfl⟩ := List.mem_map.mp h
    exact ⟨rfl, rfl, List.mk_mem_zipIdx_iff_getElem?.mp hx⟩

/-- A wrong cell has content and holds what is reported of it. -/
theorem heldBy_of_fault? {r : Row} {p : Placed} (hp : p ∈ r.placed) {fault : Fault}
    (h : p.fault? = some fault) :
    p.cell.hasContent = true ∧ fault.HeldBy r p.column p.cell := by
  obtain ⟨-, hhead, hcell⟩ := Row.cell_of_mem_placed hp
  unfold Placed.fault? at h
  split at h
  case isFalse => cases h
  case isTrue hcontent =>
  refine ⟨(Bool.and_eq_true_iff.mp hcontent).2, ?_⟩
  split at h
  case h_1 hcolumn _ =>
    cases h
    exact ⟨hcolumn, rfl⟩
  case h_2 column command hcolumn hcommand =>
    split at h
    case isFalse => cases h; rfl
    case isTrue he =>
      split at h
      · cases h
      · cases h
        refine ⟨?_, p.cell.setting, _, Argument.parse_value he, rfl, rfl⟩
        rw [Row.command?, hhead, Option.bind_some, hcommand]
  case h_3 => cases h

theorem locatedIn_of_firstError? {rows : List Row} {e : Error} (h : firstError? rows = some e) :
    e.LocatedIn rows := by
  obtain ⟨before, p, after, hcells, -, hf, ho⟩ := firstError?_eq_some_iff.mp h
  have hp : p ∈ cellsOf rows := by rw [hcells]; simp
  obtain ⟨r, hr, hp⟩ := List.mem_flatMap.mp hp
  obtain ⟨hrow, -, hcell⟩ := Row.cell_of_mem_placed hp
  obtain ⟨hcontent, hheld⟩ := heldBy_of_fault? hp hf
  refine ⟨r, hr, p.column, p.cell, hcell, hcontent, ?_, hheld⟩
  rw [ho, Placed.origin, hrow]

/-! ## Cells of blocks -/

theorem Group.exists_command_cell {rows : List Row} {g : Group} (hg : g ∈ groupsOf rows) :
    ∃ c, g.head.cells.head? = some c ∧ c.hasContent = true ∧
      g.block.origin = some ⟨⟨g.head.index, 0⟩, c.span⟩ := by
  obtain ⟨-, hc⟩ := head_mem_of_mem_groupsOf hg
  change ∃ c, _ ∧ _ ∧ g.head.commandOrigin? = _
  unfold Row.isCommand at hc
  unfold Row.commandOrigin?
  cases hcells : g.head.cells with
  | nil => rw [hcells] at hc; cases hc
  | cons c cells =>
    rw [hcells] at hc
    exact ⟨c, rfl, hc, rfl⟩

/-- **An argument of an accepted row is read from one of its cells, and has the origin of it.** -/
theorem Row.exists_cell_of_mem_arguments {r : Row} (hr : r.Accepted) {a : Argument}
    (ha : a ∈ r.arguments) : ∃ column c, r.cells[column]? = some c ∧ c.hasContent = true ∧
      a.origin = some ⟨⟨r.index, column⟩, c.span⟩ ∧ c.Assigns a.name a.value ∧
      Text.trim a.value = a.value := by
  obtain ⟨⟨c, column⟩, hx, rfl⟩ := List.mem_map.mp ha
  obtain ⟨hx, hcontent⟩ := List.mem_filter.mp hx
  have hcell : r.cells[column]? = some c :=
    List.mk_mem_zipIdx_iff_getElem?.mp (List.mem_of_mem_tail hx)
  have htail : c ∈ r.cells.tail := by
    cases hcells : r.cells with
    | nil => rw [hcells] at hx; cases hx
    | cons head cells =>
      rw [hcells] at hx
      exact (mem_zipIdx_one hx).1
  obtain ⟨command, -, hcells⟩ := hr
  have he := (hcells c htail hcontent).1
  refine ⟨column, c, hcell, hcontent, rfl, ⟨_, Argument.parse_value he, rfl, rfl⟩, ?_⟩
  exact Text.trim_trim _

theorem Group.exists_cell_of_mem_arguments {rows : List Row} (h : firstError? rows = none)
    {g : Group} (hg : g ∈ groupsOf rows) {a : Argument} (ha : a ∈ g.block.arguments) :
    ∃ column c, g.head.cells[column]? = some c ∧ c.hasContent = true ∧
      a.origin = some ⟨⟨g.head.index, column⟩, c.span⟩ ∧ c.Assigns a.name a.value ∧
      Text.trim a.value = a.value := by
  obtain ⟨hr, hc⟩ := head_mem_of_mem_groupsOf hg
  exact Row.exists_cell_of_mem_arguments (firstError?_eq_none_iff.mp h g.head hr hc) ha

/-! ## Errors of blocks -/

theorem locatedIn_of_ofBlock {rows : List Row} (h : firstError? rows = none) {g : Group}
    (hg : g ∈ groupsOf rows) (hs : g.block.command = .style) {e : Error}
    (he : Descriptor.ofBlock g.block = .error e) : e.LocatedIn rows := by
  have hr := (head_mem_of_mem_groupsOf hg).1
  rcases Descriptor.ofBlock_eq_error he with rfl | ⟨a, ha, ho, hf⟩
  · obtain ⟨c, hc, hcontent, ho⟩ := Group.exists_command_cell hg
    rw [List.head?_eq_getElem?] at hc
    refine ⟨g.head, hr, 0, c, hc, hcontent, ho, rfl, ?_⟩
    rw [command?_of_firstError? h hg, hs]
  · obtain ⟨column, c, hc, hcontent, hao, hassigns, htrim⟩ :=
      Group.exists_cell_of_mem_arguments h hg ha
    refine ⟨g.head, hr, column, c, hc, hcontent, ?_, ?_⟩
    · rw [ho, hao, Option.some_or]
    · rcases hf with ⟨hn, hf⟩ | ⟨hn, hf⟩ | ⟨hn, hf⟩
      · rw [hf, Fault.HeldBy, ← hn]
        exact hassigns
      · rw [hf, Fault.HeldBy, ← hn, htrim]
        exact hassigns
      · rw [hf, Fault.HeldBy, ← hn]
        exact hassigns

theorem locatedIn_of_styleOf {rows : List Row} (h : firstError? rows = none) {g : Group}
    (hg : g ∈ groupsOf rows) {r : Registry} {e : Error} (he : r.styleOf g.block = .error e) :
    e.LocatedIn rows := by
  unfold styleOf at he
  split at he
  case h_1 => cases he
  case h_2 a ha =>
  split at he
  · cases he
  · cases he
    obtain ⟨hm, hn⟩ := List.mem_filter.mp (List.mem_of_getLast? ha)
    obtain ⟨column, c, hc, hcontent, hao, hassigns, -⟩ :=
      Group.exists_cell_of_mem_arguments h hg hm
    rw [beq_iff_eq.mp hn] at hassigns
    exact ⟨g.head, (head_mem_of_mem_groupsOf hg).1, column, c, hc, hcontent, hao, hassigns⟩

/-! ## Warnings of blocks -/

theorem declares_of_mapM {blocks : List Block} {ds : List Declaration}
    (h : (styleBlocks blocks).mapM declaration = .ok ds) :
    ds.map Declaration.block = styleBlocks blocks ∧ ∀ d ∈ ds, d.block.Declares d.style := by
  refine ⟨map_eq_of_mapM _ (fun b d hd => (declaration_eq_ok.mp hd).2) h, fun d hd => ?_⟩
  obtain ⟨b, hb, hd⟩ := exists_of_mem_of_mapM h hd
  obtain ⟨hs, rfl⟩ := declaration_eq_ok.mp hd
  exact ⟨of_decide_eq_true (List.mem_filter.mp hb).2, hs⟩

theorem isAbout_of_mem_warnings {blocks : List Block} {ds before after : List Declaration}
    {d : Declaration} (hds : (styleBlocks blocks).mapM declaration = .ok ds)
    (hd : ds = before ++ d :: after) {defaultStyle : String} {w : Warning}
    (hw : w ∈ d.warnings (ofDeclarations defaultStyle before)) (doc : Document) :
    w.origin = d.block.origin ∧ w.doubt.IsAbout blocks doc d.block := by
  obtain ⟨hblocks, hdeclares⟩ := declares_of_mapM hds
  have hm : d.block.Declares d.style := hdeclares d (by simp [hd])
  rcases List.mem_append.mp hw with hw | hw
  · split_ifs at hw with he
    · cases hw
    · rw [List.mem_singleton.mp hw]
      exact ⟨rfl, fun hnil => he (by rw [hnil]; rfl), d.style, hm, rfl⟩
  · split_ifs at hw with hagain
    · rw [List.mem_singleton.mp hw]
      refine ⟨rfl, ⟨d.style, hm, rfl⟩, before.map Declaration.block, after.map Declaration.block,
        ?_, ?_⟩
      · rw [← hblocks, hd, List.map_append, List.map_cons]
      · obtain ⟨e, he, hid⟩ := mem_ids_ofDeclarations.mp (declares_iff.mp hagain)
        exact ⟨e.block, List.mem_map_of_mem he, e.style, hdeclares e (by simp [hd, he]), hid⟩
    · cases hw

theorem isAbout_of_unknownParent? {blocks : List Block} {config : Config} {ds : List Declaration}
    (hds : (styleBlocks blocks).mapM declaration = .ok ds) {d : Declaration} (hd : d ∈ ds)
    {w : Warning} (hw : unknownParent? (ofDeclarations config.defaultStyle ds) d = some w)
    (nodes : List (List Node)) :
    w.origin = d.block.origin ∧ w.doubt.IsAbout blocks (documentOf config ds nodes) d.block := by
  obtain ⟨parent, hp, rfl⟩ := Option.map_eq_some_iff.mp hw
  obtain ⟨hp, hunknown⟩ := Option.filter_eq_some_iff.mp hp
  rw [Bool.not_eq_true', ← Bool.not_eq_true, contains_iff, not_or, ofDeclarations_defaultId]
    at hunknown
  refine ⟨rfl, ⟨d.style, (declares_of_mapM hds).2 d hd, rfl, hp⟩, hunknown.1, fun s hs he => ?_⟩
  exact hunknown.2 (List.mem_map.mpr ⟨s, hs, he⟩)

/-- **Every warning of a rendered script has the origin of a block that it is about.** -/
theorem isAbout_of_mem_warningsOf {blocks : List Block} {config : Config} {ds : List Declaration}
    (hds : (styleBlocks blocks).mapM declaration = .ok ds) {w : Warning}
    (hw : w ∈ warningsOf blocks config ds) (nodes : List (List Node)) :
    ∃ b ∈ blocks, w.origin = b.origin ∧ w.doubt.IsAbout blocks (documentOf config ds nodes) b := by
  have hmem : ∀ d ∈ ds, d.block ∈ blocks := by
    intro d hd
    have hb : d.block ∈ styleBlocks blocks :=
      (declares_of_mapM hds).1 ▸ List.mem_map_of_mem hd
    exact (List.mem_filter.mp hb).1
  rcases List.mem_append.mp hw with hw | hw
  · rcases List.mem_append.mp hw with hw | hw
    · obtain ⟨before, d, after, hd, hw⟩ := mem_warnings_foldl_add hw
      exact ⟨d.block, hmem d (by simp [hd]), isAbout_of_mem_warnings hds hd hw _⟩
    · obtain ⟨d, hd, hw⟩ := List.mem_filterMap.mp hw
      exact ⟨d.block, hmem d hd, isAbout_of_unknownParent? hds hd hw nodes⟩
  · obtain ⟨b, hb, hw⟩ := List.mem_flatMap.mp hw
    obtain ⟨hm, hc⟩ := List.mem_filter.mp hb
    unfold repeated at hw
    simp only at hw
    split_ifs at hw with hcount
    · rw [List.mem_singleton.mp hw]
      exact ⟨b, hm, rfl, of_decide_eq_true hc, hcount, rfl⟩
    · cases hw

/-! ## All sheets -/

/-- **Errors and warnings point at the cells that they are about**: at what is reported, or at the
command of the block. -/
theorem diagnostics_located (rows : List Row) (config : Config) :
    (∀ e, FailsWith rows config e → e.LocatedIn rows) ∧
      ∀ blocks rendered, parse rows = .ok blocks → render blocks config = .ok rendered →
        ∀ w ∈ rendered.warnings, w.LocatedIn rows rendered.document := by
  refine ⟨fun e he => ?_, fun blocks rendered hp hr w hw => ?_⟩
  · rcases he with he | ⟨blocks, hp, he⟩
    · exact locatedIn_of_firstError? (parse_eq_error.mp he)
    · obtain ⟨hn, rfl⟩ := parse_eq_ok hp
      rcases render_eq_error he with ⟨b, hb, he⟩ | ⟨ds, b, hb, he⟩
      · obtain ⟨hb, hs⟩ := List.mem_filter.mp hb
        obtain ⟨g, hg, rfl⟩ := List.mem_map.mp hb
        exact locatedIn_of_ofBlock hn hg (of_decide_eq_true hs) he
      · obtain ⟨g, hg, rfl⟩ := List.mem_map.mp (List.mem_filter.mp hb).1
        exact locatedIn_of_styleOf hn hg he
  · obtain ⟨hn, rfl⟩ := parse_eq_ok hp
    obtain ⟨ds, nodes, hds, -, rfl⟩ := render_eq_ok hr
    obtain ⟨b, hb, ho, habout⟩ := isAbout_of_mem_warningsOf hds hw nodes
    obtain ⟨g, hg, rfl⟩ := List.mem_map.mp hb
    obtain ⟨c, hc, hcontent, hgo⟩ := Group.exists_command_cell hg
    exact ⟨g, hg, c, hc, hcontent, ho.trans hgo, habout⟩

/-- A sheet with a colour that is none. -/
def brokenSheet : List Row :=
  [⟨0, [.ofText "p"]⟩, ⟨1, [.ofText "Style", .empty, .ofText "name=Big", .ofText "color = red "]⟩]

/-- A sheet with a doubt of every kind. -/
def doubtfulSheet : List Row :=
  [⟨0, [.ofText "s", .ofText "name=Big", .ofText "parent=none"]⟩, ⟨1, [.empty, .ofText "body"]⟩,
    ⟨2, [.ofText "s", .ofText "name=big"]⟩,
    ⟨3, [.ofText "p", .ofText "style=x", .ofText "style=BIG"]⟩]

theorem diagnostics_located_sheets :
    (∃ e, FailsWith brokenSheet {} e ∧ e.fault = .invalidColor "red" ∧ e.LocatedIn brokenSheet) ∧
      ∃ blocks rendered, parse doubtfulSheet = .ok blocks ∧ render blocks {} = .ok rendered ∧
        rendered.warnings.length = 4 ∧
        ∀ w ∈ rendered.warnings, w.LocatedIn doubtfulSheet rendered.document := by
  have hb : (parse brokenSheet >>= fun blocks => render blocks {}) =
      .error ⟨.invalidColor "red", some ⟨⟨1, 3⟩, none⟩⟩ := by
    decide +kernel
  have hd : ((parse doubtfulSheet >>= fun blocks => render blocks {}).map fun r =>
      r.warnings.length) = .ok 4 := by
    decide +kernel
  have hf := bind_eq_error.mp hb
  obtain ⟨rendered, hr, hlength⟩ := map_eq_ok.mp hd
  obtain ⟨blocks, hp, hr⟩ := bind_eq_ok.mp hr
  refine ⟨⟨_, hf, rfl, (diagnostics_located brokenSheet {}).1 _ hf⟩, ?_⟩
  exact ⟨blocks, rendered, hp, hr, hlength,
    (diagnostics_located doubtfulSheet {}).2 blocks rendered hp hr⟩

end SheetMarkup
