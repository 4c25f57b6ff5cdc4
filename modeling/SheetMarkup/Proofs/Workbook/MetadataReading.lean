import SheetMarkup.Proofs.Workbook.TableReading

/-!
# Reading the metadata of values

What the reader of metadata makes of the part as it is written. Blocks of other metadata leave no trace,
and those of rich values and of values are listed in their order.

* `foldl_metadataTypes`, `foldl_otherMetadata`, `foldl_richMetadata`, `foldl_cells`: the sections of
  the part up to the metadata of values;
* `RichRead`, `richRead_middle`: what is read by then;
* `foldl_valueMetadata`: the metadata of values;
* **`metadataOf_seen`**: the rich values of the value metadata.
-/

namespace SheetMarkup.Workbook

open Xml (Tree tagOf)

variable {l : TableLayout}

/-! ## Sections -/

theorem foldl_metadataType (name : String) (r : MetadataReader) :
    (l.metadataType name).seen.foldl MetadataReader.step r =
      { r with types := r.types ++ [name] } := by
  have hname : (tagOf "metadataType" (escaped [("name", name),
      ("minSupportedVersion", "120000")])).attribute? "name" = some name :=
    attribute?_escaped (i := 0) "metadataType" "name" ["name", "minSupportedVersion"] rfl
      (by decide) (by decide)
  have hstep : r.element (tagOf "metadataType" (escaped [("name", name),
      ("minSupportedVersion", "120000")])) = { r with types := r.types ++ [name] } := by
    show { r with types := r.types ++ [Option.getD _ ""] } = _
    rw [hname, Option.getD_some]
  exact foldl_element l hstep fun _ _ => hstep

theorem foldl_metadataTypes (t : PictureTables) :
    (l.element "metadataTypes" [("count", Text.decimal t.types.length)]
      (t.types.map l.metadataType)).seen.foldl MetadataReader.step {} = { types := t.types } := by
  have htypes : ((t.types.map l.metadataType).flatMap Tree.seen).foldl MetadataReader.step {} =
      { types := t.types.map id } := by
    refine foldl_listed (fun types (r : MetadataReader) => r = { types := types }) rfl ?_
    rintro name - types r rfl
    exact foldl_metadataType name _
  rw [List.map_id] at htypes
  refine foldl_element l (congrArg (fun r => MetadataReader.step r _) htypes) fun hnone _ => ?_
  rw [List.map_eq_nil_iff.mp hnone]
  rfl

theorem foldl_futureBlock (children : List Tree) (r : MetadataReader) :
    (l.futureBlock children).seen.foldl MetadataReader.step r =
      (children.flatMap Tree.seen).foldl MetadataReader.step r.openBlock := by
  have hext : (l.element "ext" [("uri", TableLayout.richNamespace)] children).seen.foldl
      MetadataReader.step r.openBlock =
        (children.flatMap Tree.seen).foldl MetadataReader.step r.openBlock := by
    refine foldl_element l rfl fun hnone _ => ?_
    rw [hnone]
    rfl
  have hlist : (l.element "extLst" [] [l.element "ext" [("uri", TableLayout.richNamespace)]
      children]).seen.foldl MetadataReader.step r.openBlock =
        (children.flatMap Tree.seen).foldl MetadataReader.step r.openBlock :=
    foldl_single l hext
  exact foldl_single l hlist

theorem element_futureMetadata (name count : String) (r : MetadataReader) :
    r.element (tagOf "futureMetadata" (escaped [("name", name), ("count", count)])) =
      { r with inRich := name == richName } := by
  have hname : (tagOf "futureMetadata" (escaped [("name", name), ("count", count)])).attribute?
      "name" = some name :=
    attribute?_escaped (i := 0) "futureMetadata" "name" ["name", "count"] rfl (by decide)
      (by decide)
  show { r with inRich := Xml.Tag.attribute? _ "name" == some richName } = _
  rw [hname]
  rfl

theorem foldl_otherMetadata {s : String × Nat} (hs : s.1 ≠ richName) {r : MetadataReader}
    (hr : r.inValues = false) :
    (l.otherMetadata s).seen.foldl MetadataReader.step r = { r with inRich := false } := by
  have hname : (s.1 == richName) = false := beq_eq_false_iff_ne.mpr hs
  have hstart := element_futureMetadata s.1
    (Text.decimal (List.replicate s.2 (l.futureBlock [])).length) r
  rw [hname] at hstart
  have hblocks : ((List.replicate s.2 (l.futureBlock [])).flatMap Tree.seen).foldl
      MetadataReader.step { r with inRich := false } = { r with inRich := false } := by
    refine foldl_kept (fun r' => r' = { r with inRich := false }) rfl ?_
    rintro t ht r' rfl
    rw [List.eq_of_mem_replicate ht, foldl_futureBlock]
    simp [MetadataReader.openBlock, hr]
  refine foldl_element l ?_ fun _ _ => hstart
  rw [MetadataReader.step, hstart, hblocks]
  rfl

/-- Other metadata leave no trace, except that those of rich values are over. -/
theorem foldl_others {ss : List (String × Nat)} (hs : ∀ s ∈ ss, s.1 ≠ richName)
    {r : MetadataReader} (hr : r.inValues = false) :
    ∃ inRich, (inRich = true → r.inRich = true) ∧
      ((ss.map l.otherMetadata).flatMap Tree.seen).foldl MetadataReader.step r =
        { r with inRich := inRich } := by
  induction ss generalizing r with
  | nil => exact ⟨r.inRich, id, rfl⟩
  | cons s ss ih =>
    rw [List.forall_mem_cons] at hs
    obtain ⟨inRich, hrich, hrest⟩ := ih hs.2 (r := { r with inRich := false }) hr
    refine ⟨inRich, fun h => absurd (hrich h) (by simp), ?_⟩
    rw [List.map_cons, List.flatMap_cons, List.foldl_append, foldl_otherMetadata hs.1 hr, hrest]

theorem foldl_richBlock (value : Nat) (types : List String) (blocks : List (Option Nat)) :
    (l.richBlock value).seen.foldl MetadataReader.step ⟨types, blocks, [], true, false⟩ =
      ⟨types, index? (Text.decimal value) :: blocks, [], true, false⟩ := by
  have hvalue : (tagOf "xlrd:rvb" (escaped [("i", Text.decimal value)])).attribute? "i" =
      some (Text.decimal value) :=
    attribute?_escaped (i := 0) "xlrd:rvb" "i" ["i"] rfl (by decide) (by decide)
  have hstep : MetadataReader.element ⟨types, none :: blocks, [], true, false⟩
      (tagOf "xlrd:rvb" (escaped [("i", Text.decimal value)])) =
        ⟨types, index? (Text.decimal value) :: blocks, [], true, false⟩ := by
    show MetadataReader.mk types (Option.bind _ index? :: blocks) [] true false = _
    rw [hvalue, Option.bind_some]
  rw [TableLayout.richBlock, foldl_futureBlock, List.flatMap_singleton]
  exact foldl_element l hstep fun _ _ => hstep

/-- The blocks of rich values are listed. Where there are none and the metadata close themselves, the
reader stays among them. -/
theorem foldl_richMetadata (values : List Nat) (types : List String) :
    ∃ inRich, (inRich = true → values = []) ∧
      (l.futureMetadata richName (values.map l.richBlock)).seen.foldl MetadataReader.step
          { types := types } =
        { types := types, richBlocks := (values.map fun v => index? (Text.decimal v)).reverse,
          inRich := inRich } := by
  have hname : (richName == richName) = true := beq_self_eq_true _
  have hstart := element_futureMetadata richName
    (Text.decimal (values.map l.richBlock).length) { types := types }
  rw [hname] at hstart
  have hblocks : ((values.map l.richBlock).flatMap Tree.seen).foldl MetadataReader.step
      ⟨types, [], [], true, false⟩ =
        ⟨types, (values.map fun v => index? (Text.decimal v)).reverse, [], true, false⟩ := by
    refine foldl_listed (fun done (r : MetadataReader) =>
      r = ⟨types, done.reverse, [], true, false⟩) rfl ?_
    rintro value - done r rfl
    rw [foldl_richBlock, List.reverse_append]
    rfl
  rcases foldl_element_cases MetadataReader.step l "futureMetadata" _
    (values.map l.richBlock) { types := types } with h | ⟨hnone, -, h⟩
  · refine ⟨false, by simp, h.trans ?_⟩
    rw [MetadataReader.step, hstart, hblocks]
    rfl
  · rw [List.map_eq_nil_iff] at hnone
    refine ⟨true, fun _ => hnone, h.trans ?_⟩
    rw [MetadataReader.step, hstart, hnone]
    rfl

/-! ## Records -/

/-- What a record tells, as far as 64 bits can hold it. -/
def recordOf (record : Nat × Nat) : Option (Nat × Nat) := do
  let t ← index? (Text.decimal record.1)
  let v ← index? (Text.decimal record.2)
  some (t, v)

theorem recordOf_eq_some {record : Nat × Nat} {type block : Nat} :
    recordOf record = some (type, block) ↔
      record = (type, block) ∧ type < Text.bound64 ∧ block < Text.bound64 := by
  obtain ⟨t, v⟩ := record
  simp only [recordOf, Option.bind_eq_bind, Option.bind_eq_some_iff, index?_decimal_eq_some,
    Option.some.injEq, Prod.mk.injEq]
  constructor
  · rintro ⟨_, ⟨rfl, ht⟩, _, ⟨rfl, hv⟩, rfl, rfl⟩
    exact ⟨⟨rfl, rfl⟩, ht, hv⟩
  · rintro ⟨⟨rfl, rfl⟩, ht, hv⟩
    exact ⟨t, ⟨rfl, ht⟩, v, ⟨rfl, hv⟩, rfl, rfl⟩

theorem record?_written (record : Nat × Nat) :
    record? (tagOf "rc" (escaped (TableLayout.recordAttributes record))) = recordOf record := by
  have hkeys : Xml.areKeys ["t", "v"] = true := by decide
  have ht : (tagOf "rc" (escaped (TableLayout.recordAttributes record))).attribute? "t" =
      some (Text.decimal record.1) :=
    attribute?_escaped (i := 0) "rc" "t" ["t", "v"] rfl hkeys (by decide)
  have hv : (tagOf "rc" (escaped (TableLayout.recordAttributes record))).attribute? "v" =
      some (Text.decimal record.2) :=
    attribute?_escaped (i := 1) "rc" "v" ["t", "v"] rfl hkeys (by decide)
  simp only [record?, recordOf, ht, hv, Option.bind_some]

theorem foldl_recordBlock (record : Nat × Nat) (r : MetadataReader) :
    (l.recordBlock record).seen.foldl MetadataReader.step r =
      r.openBlock.setRecord (tagOf "rc" (escaped (TableLayout.recordAttributes record))) := by
  have hrecord : (l.element "rc" (TableLayout.recordAttributes record) []).seen.foldl
      MetadataReader.step r.openBlock =
        r.openBlock.setRecord (tagOf "rc" (escaped (TableLayout.recordAttributes record))) :=
    foldl_element l rfl fun _ _ => rfl
  exact foldl_single l hrecord

/-- The metadata of cells leave no trace, unless the reader stays among those of rich values. -/
theorem foldl_cells (rs : List (Nat × Nat)) {r : MetadataReader} (hr : r.inValues = false) :
    ∃ blocks, (r.inRich = false → blocks = r.richBlocks) ∧
      (l.records "cellMetadata" rs).seen.foldl MetadataReader.step r =
        { r with richBlocks := blocks } := by
  have hblocks : ∃ blocks, (r.inRich = false → blocks = r.richBlocks) ∧
      ((rs.map l.recordBlock).flatMap Tree.seen).foldl MetadataReader.step r =
        { r with richBlocks := blocks } := by
    refine foldl_kept (fun r' => ∃ blocks, (r.inRich = false → blocks = r.richBlocks) ∧
      r' = { r with richBlocks := blocks }) ⟨r.richBlocks, fun _ => rfl, rfl⟩ ?_
    rintro t ht r' ⟨blocks, hsame, rfl⟩
    obtain ⟨record, -, rfl⟩ := List.mem_map.mp ht
    rw [foldl_recordBlock]
    cases hrich : r.inRich with
    | false =>
      refine ⟨blocks, fun _ => hsame hrich, ?_⟩
      simp [MetadataReader.openBlock, MetadataReader.setRecord, hr]
    | true =>
      refine ⟨none :: blocks, by simp, ?_⟩
      simp [MetadataReader.openBlock, MetadataReader.setRecord, hr]
  obtain ⟨blocks, hsame, hblocks⟩ := hblocks
  rcases foldl_element_cases MetadataReader.step l "cellMetadata"
    [("count", Text.decimal rs.length)] (rs.map l.recordBlock) r with h | ⟨-, -, h⟩
  · exact ⟨blocks, hsame, h.trans hblocks⟩
  · exact ⟨r.richBlocks, fun _ => rfl, h⟩

theorem foldl_valueMetadata (rs : List (Nat × Nat)) (types : List String)
    (blocks : List (Option Nat)) : ∃ inValues,
      (l.records "valueMetadata" rs).seen.foldl MetadataReader.step ⟨types, blocks, [], false, false⟩ =
        ⟨types, blocks, (rs.map recordOf).reverse, false, inValues⟩ := by
  have hblocks : ((rs.map l.recordBlock).flatMap Tree.seen).foldl MetadataReader.step
      ⟨types, blocks, [], false, true⟩ =
        ⟨types, blocks, (rs.map recordOf).reverse, false, true⟩ := by
    refine foldl_listed (fun done (r : MetadataReader) =>
      r = ⟨types, blocks, done.reverse, false, true⟩) rfl ?_
    rintro record - done r rfl
    rw [foldl_recordBlock, List.reverse_append, ← record?_written]
    rfl
  rcases foldl_element_cases MetadataReader.step l "valueMetadata"
    [("count", Text.decimal rs.length)] (rs.map l.recordBlock) ⟨types, blocks, [], false, false⟩
    with h | ⟨hnone, -, h⟩
  · exact ⟨false, h.trans (congrArg (fun r => MetadataReader.step r _) hblocks)⟩
  · rw [List.map_eq_nil_iff] at hnone
    refine ⟨true, h.trans ?_⟩
    rw [hnone]
    rfl

theorem foldl_valueMetadata_inRich (rs : List (Nat × Nat)) {r : MetadataReader}
    (hrich : r.inRich = true) (hnone : r.valueBlocks = []) :
    ((l.records "valueMetadata" rs).seen.foldl MetadataReader.step r).valueBlocks = [] := by
  have hblocks : ∀ r : MetadataReader, r.inRich = true ∧ r.valueBlocks = [] →
      (((rs.map l.recordBlock).flatMap Tree.seen).foldl MetadataReader.step r).inRich = true ∧
        (((rs.map l.recordBlock).flatMap Tree.seen).foldl MetadataReader.step r).valueBlocks =
          [] := by
    intro r hr
    refine foldl_kept (fun (r : MetadataReader) => r.inRich = true ∧ r.valueBlocks = []) hr ?_
    rintro t ht r ⟨hrich, hnone⟩
    obtain ⟨record, -, rfl⟩ := List.mem_map.mp ht
    rw [foldl_recordBlock]
    simp [MetadataReader.openBlock, MetadataReader.setRecord, hrich, hnone]
  rcases foldl_element_cases MetadataReader.step l "valueMetadata"
    [("count", Text.decimal rs.length)] (rs.map l.recordBlock) r with h | ⟨-, -, h⟩
  · rw [TableLayout.records, h]
    exact (hblocks { r with inValues := true } ⟨hrich, hnone⟩).2
  · rw [TableLayout.records, h]
    exact hnone

/-! ## The whole part -/

/-- What is read where the metadata of values begin: the types and the blocks of rich values. If there
are no blocks, the reader may stay among them. -/
def RichRead (t : PictureTables) (r : MetadataReader) : Prop :=
  r = ⟨t.types, (t.rich.map fun v => index? (Text.decimal v)).reverse, [], false, false⟩ ∨
    t.rich = [] ∧ r.inRich = true ∧ r.valueBlocks = []

theorem richRead_middle (t : PictureTables) :
    RichRead t (((l.middle t).flatMap Tree.seen).foldl MetadataReader.step { types := t.types }) := by
  have hothers := List.forall_mem_append.mp l.others
  have hbefore : ((l.before.map l.otherMetadata).flatMap Tree.seen).foldl MetadataReader.step
      { types := t.types } = { types := t.types } := by
    obtain ⟨inRich, hnever, hbefore⟩ := foldl_others hothers.1 (r := { types := t.types }) rfl
    rw [hbefore, Bool.eq_false_iff.mpr fun h => absurd (hnever h) (by simp)]
  obtain ⟨inRich, hempty, hrich⟩ := foldl_richMetadata t.rich t.types (l := l)
  have hcells : ∀ r : MetadataReader, r.inValues = false → ∃ blocks,
      (r.inRich = false → blocks = r.richBlocks) ∧
        ((l.cells.map (l.records "cellMetadata")).toList.flatMap Tree.seen).foldl
          MetadataReader.step r = { r with richBlocks := blocks } := by
    intro r hr
    cases l.cells with
    | none => exact ⟨r.richBlocks, fun _ => rfl, rfl⟩
    | some rs =>
      rw [Option.map_some, Option.toList_some, List.flatMap_singleton]
      exact foldl_cells rs hr
  rw [TableLayout.middle, List.flatMap_append, List.flatMap_append, List.flatMap_cons,
    List.foldl_append, List.foldl_append, List.foldl_append, hbefore, hrich]
  obtain ⟨inRich', hkept, hafter⟩ := foldl_others hothers.2 (l := l) (r := ⟨t.types,
    (t.rich.map fun v => index? (Text.decimal v)).reverse, [], inRich, false⟩) rfl
  obtain ⟨blocks, hsame, hcells⟩ := hcells ⟨t.types,
    (t.rich.map fun v => index? (Text.decimal v)).reverse, [], inRich', false⟩ rfl
  rw [hafter, hcells]
  cases inRich' with
  | false =>
    rw [hsame rfl]
    exact .inl rfl
  | true => exact .inr ⟨hempty (hkept rfl), rfl, rfl⟩

theorem foldl_metadataTree (t : PictureTables) :
    ((l.metadataTree t).seen.foldl MetadataReader.step {}) =
      ((l.records "valueMetadata" t.records).seen.foldl MetadataReader.step
        (((l.middle t).flatMap Tree.seen).foldl MetadataReader.step { types := t.types })) := by
  refine foldl_element l ?_ fun hnone => absurd hnone (by simp)
  rw [List.flatMap_cons, List.flatMap_append, List.flatMap_singleton, List.foldl_append,
    List.foldl_append]
  exact congrArg (fun r => (l.records "valueMetadata" t.records).seen.foldl MetadataReader.step
    (((l.middle t).flatMap Tree.seen).foldl MetadataReader.step r)) (foldl_metadataTypes t)

theorem findIdx?_of_mem {keys : List String} {key : String} (h : key ∈ keys) :
    keys.findIdx? (· == key) = some (keys.idxOf key) := by
  rw [List.findIdx?_eq_some_iff_findIdx_eq]
  exact ⟨List.idxOf_lt_length_of_mem h, rfl⟩

theorem richValue?_eq_some {t : PictureTables} {r : MetadataReader} (htypes : r.types = t.types)
    (hblocks : r.richBlocks.reverse = t.rich.map fun v => index? (Text.decimal v))
    {record : Nat × Nat} {rich : Nat} :
    r.richValue? (recordOf record) = some rich ↔
      record.1 = t.types.idxOf richName + 1 ∧ t.rich[record.2]? = some rich ∧
        rich < Text.bound64 := by
  have hrich : ∀ block : Nat, (r.richBlocks.reverse[block]?).join = some rich ↔
      t.rich[block]? = some rich ∧ rich < Text.bound64 := by
    intro block
    rw [hblocks, List.getElem?_map, Option.join_eq_some_iff, Option.map_eq_some_iff]
    simp only [index?_decimal_eq_some]
    constructor
    · rintro ⟨v, hv, rfl, hlt⟩
      exact ⟨hv, hlt⟩
    · rintro ⟨hv, hlt⟩
      exact ⟨rich, hv, rfl, hlt⟩
  have hmatch : r.richValue? (recordOf record) = some rich ↔ ∃ type block,
      recordOf record = some (type, block) ∧ t.types.idxOf richName + 1 = type ∧
        (r.richBlocks.reverse[block]?).join = some rich := by
    rw [MetadataReader.richValue?, htypes, findIdx?_of_mem t.hasType, Option.bind_eq_bind,
      Option.bind_eq_some_iff, Prod.exists]
    simp
  rw [hmatch]
  simp only [recordOf_eq_some, hrich]
  constructor
  · rintro ⟨type, block, ⟨rfl, -, -⟩, rfl, hblock⟩
    exact ⟨rfl, hblock⟩
  · rintro ⟨htype, hblock⟩
    have htypes : t.types.length < Text.bound64 := t.fits _ (by simp)
    have hindex : t.types.idxOf richName < t.types.length := List.idxOf_lt_length_of_mem t.hasType
    have hlength : t.rich.length < Text.bound64 := t.fits _ (by simp)
    have hplace : record.2 < t.rich.length := (List.getElem?_eq_some_iff.mp hblock.1).1
    exact ⟨record.1, record.2, ⟨rfl, by omega, by omega⟩, htype.symm, hblock⟩

/-- **The rich values of the value metadata**, as far as 64 bits go. -/
theorem metadataOf_seen (t : PictureTables) {n rich : Nat} :
    ((metadataOf (l.metadataTree t).seen)[n]?).join = some rich ↔
      ∃ block, t.records[n]? = some (t.types.idxOf richName + 1, block) ∧
        t.rich[block]? = some rich ∧ rich < Text.bound64 := by
  rw [metadataOf, foldl_metadataTree]
  rcases richRead_middle (l := l) t with hread | ⟨hnone, hrich, hblocks⟩
  · obtain ⟨inValues, hvalues⟩ := foldl_valueMetadata (l := l) t.records t.types
      (t.rich.map fun v => index? (Text.decimal v)).reverse
    rw [hread, hvalues]
    simp only [List.reverse_reverse, List.map_map, List.getElem?_map, Option.join_eq_some_iff,
      Option.map_eq_some_iff, Function.comp_apply]
    constructor
    · rintro ⟨record, hrecord, hvalue⟩
      rw [richValue?_eq_some rfl (List.reverse_reverse _)] at hvalue
      obtain ⟨htype, hblock⟩ := hvalue
      exact ⟨record.2, hrecord.trans (by rw [← htype]), hblock⟩
    · rintro ⟨block, hrecord, hblock⟩
      refine ⟨_, hrecord, ?_⟩
      rw [richValue?_eq_some rfl (List.reverse_reverse _)]
      exact ⟨rfl, hblock⟩
  · have hvalues := foldl_valueMetadata_inRich (l := l) t.records hrich hblocks
    simp [hvalues, hnone]

end SheetMarkup.Workbook
