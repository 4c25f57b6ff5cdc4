import Mathlib.Data.List.Dedup
import SheetMarkup.Proofs.Document.UnknownParents
import SheetMarkup.Proofs.Docx.Pictures

/-!
# Styles that are declared again

A registry keeps its styles in the order in which their identifiers came up first, each as it was
declared last. Every declaration either adds an identifier or is warned about, so the warnings count
the declarations that add none.

* `declaredIds`, **`ids_ofDeclarations`**: the identifiers of a registry, in order;
* `mem_styles_iff`: the styles of a registry are those in force;
* `redeclaredWarnings`, **`filter_foldl_add`**: the warnings about identifiers that are declared
  again (the run), and `countP_isRedeclared_foldl_add`: how many there are;
* **`collect_registers`**: the registry of a script and its warnings.
-/

namespace SheetMarkup

open Outcome

/-! ## Identifiers -/

/-- The identifiers that the style blocks of a script give themselves. -/
def declaredIds (blocks : List Block) : List String :=
  (styleBlocks blocks).filterMap Block.identifier?

namespace Registry

variable {defaultStyle : String} {ds : List Declaration} {blocks : List Block}

theorem filterMap_identifier? (h : ∀ d ∈ ds, d.block.identifier? = some d.style.id) :
    (ds.map Declaration.block).filterMap Block.identifier? = ds.map fun d => d.style.id := by
  rw [List.filterMap_map, ← List.filterMap_eq_map]
  exact List.filterMap_congr h

theorem identifiers_of_mapM (h : (styleBlocks blocks).mapM declaration = .ok ds) :
    declaredIds blocks = ds.map fun d => d.style.id := by
  obtain ⟨hblocks, hdeclares⟩ := declares_of_mapM h
  rw [declaredIds, ← hblocks]
  exact filterMap_identifier? fun d hd => Block.identifier?_of_declares (hdeclares d hd)

/-- **The identifiers of a registry stand in the order in which they were declared first.** -/
theorem ids_ofDeclarations (defaultStyle : String) (ds : List Declaration) :
    (ofDeclarations defaultStyle ds).ids = Docx.firstOccurrences (ds.map fun d => d.style.id) := by
  induction ds using List.reverseRecOn with
  | nil => rfl
  | append_singleton ds d ih =>
    rw [ofDeclarations_append_singleton, ids_declare, ih, List.map_append, List.map_singleton,
      Docx.firstOccurrences_append_singleton]

theorem length_ids_ofDeclarations (defaultStyle : String) (ds : List Declaration) :
    (ofDeclarations defaultStyle ds).ids.length = (ds.map fun d => d.style.id).dedup.length := by
  rw [ids_ofDeclarations]
  refine List.Perm.length_eq ?_
  rw [List.perm_ext_iff_of_nodup (Docx.nodup_firstOccurrences _) (List.nodup_dedup _)]
  exact fun id => Docx.mem_firstOccurrences.trans List.mem_dedup.symm

/-- The styles of a registry are those in force for their identifiers. -/
theorem mem_styles_iff {r : Registry} (h : r.ids.Nodup) {s : Descriptor} :
    s ∈ r.styles ↔ r.get? s.id = some s := by
  constructor
  · intro hs
    cases hg : r.get? s.id with
    | none => exact absurd (List.mem_map_of_mem hs) (get?_eq_none_iff.mp hg)
    | some t =>
      rw [List.inj_on_of_nodup_map h (List.mem_of_find?_eq_some hg) hs (id_of_get? hg)]
  · exact List.mem_of_find?_eq_some

end Registry

/-! ## Warnings -/

/-- The warning says that an identifier is declared again. -/
def Warning.isRedeclared (w : Warning) : Bool :=
  match w.doubt with
  | .redeclared _ => true
  | _ => false

/-- The warning about a block whose identifier one of the blocks before it has. -/
def redeclared? (before : List Block) (b : Block) : Option Warning :=
  (b.identifier?.filter fun id => id ∈ before.filterMap Block.identifier?).map fun id =>
    ⟨.redeclared id, b.origin⟩

/-- The warnings about the blocks whose identifier some block before them has, in order. -/
def redeclaredWarnings (bs : List Block) : List Warning :=
  bs.zipIdx.filterMap fun x => redeclared? (bs.take x.2) x.1

theorem redeclaredWarnings_append_singleton (bs : List Block) (b : Block) :
    redeclaredWarnings (bs ++ [b]) = redeclaredWarnings bs ++ (redeclared? bs b).toList := by
  rw [redeclaredWarnings, List.zipIdx_append, List.filterMap_append]
  congr 1
  · refine List.filterMap_congr fun x hx => ?_
    have hlt : x.2 < bs.length + 0 := List.snd_lt_of_mem_zipIdx hx
    rw [List.take_append_of_le_length (Nat.le_of_lt hlt)]
  · rw [List.zipIdx_singleton, Nat.zero_add, List.filterMap_cons, List.take_left]
    cases redeclared? bs b <;> rfl

namespace Registry

variable {defaultStyle : String} {ds : List Declaration} {blocks : List Block}

theorem filter_warnings (r : Registry) (d : Declaration) :
    (d.warnings r).filter Warning.isRedeclared =
      if d.style.id ∈ r.ids then [⟨.redeclared d.style.id, d.block.origin⟩] else [] := by
  simp only [Declaration.warnings, ← declares_iff]
  cases d.block.body.isEmpty <;> cases r.declares d.style.id <;> rfl

/-- **The warnings of declarations that are taken up.** -/
theorem filter_foldl_add (h : ∀ d ∈ ds, d.block.identifier? = some d.style.id) :
    (ds.foldl Progress.add (.start defaultStyle)).warnings.filter Warning.isRedeclared =
      redeclaredWarnings (ds.map Declaration.block) := by
  induction ds using List.reverseRecOn with
  | nil => rfl
  | append_singleton ds d ih =>
    rw [List.forall_mem_append, List.forall_mem_singleton] at h
    rw [warnings_foldl_add_append_singleton, List.filter_append, ih h.1, filter_warnings,
      List.map_append, List.map_singleton, redeclaredWarnings_append_singleton, redeclared?, h.2,
      filterMap_identifier? h.1, Option.filter_some]
    have hmem : d.style.id ∈ (ofDeclarations defaultStyle ds).ids ↔
        d.style.id ∈ ds.map fun d => d.style.id := by
      rw [mem_ids_ofDeclarations, List.mem_map]
    by_cases hagain : d.style.id ∈ ds.map fun d => d.style.id
    · rw [if_pos (hmem.mpr hagain), if_pos (decide_eq_true hagain)]
      rfl
    · rw [if_neg (mt hmem.mp hagain), if_neg (by simpa only [decide_eq_true_eq] using hagain)]
      rfl

/-- Every declaration adds an identifier or is warned about. -/
theorem countP_isRedeclared_foldl_add (defaultStyle : String) (ds : List Declaration) :
    (ds.foldl Progress.add (.start defaultStyle)).warnings.countP Warning.isRedeclared +
      (ofDeclarations defaultStyle ds).ids.length = ds.length := by
  induction ds using List.reverseRecOn with
  | nil => rfl
  | append_singleton ds d ih =>
    have hlast := filter_warnings (ofDeclarations defaultStyle ds) d
    rw [warnings_foldl_add_append_singleton, ofDeclarations_append_singleton, ids_declare,
      List.countP_append, List.countP_eq_length_filter (l := d.warnings _), hlast,
      List.length_append, List.length_singleton, ← ih]
    split_ifs
    · rw [List.length_singleton]
      omega
    · rw [List.length_nil, List.length_append, List.length_singleton]
      omega

end Registry

/-! ## Registries -/

open Registry

/-- **The registry of a script:** identifiers in the order of their first declarations, each with
its last one, and a warning for every other. -/
theorem collect_registers {blocks : List Block} {defaultStyle : String} {r : Registry}
    {warnings : List Warning} (h : collect blocks defaultStyle = .ok (r, warnings)) :
    (r.styles.Pairwise fun s t =>
      (declaredIds blocks).idxOf s.id < (declaredIds blocks).idxOf t.id) ∧
    (∀ s, s ∈ r.styles ↔ LastDeclared blocks s) ∧
    (∀ id, (∃ s ∈ r.styles, s.id = id) ↔ id ∈ declaredIds blocks) ∧
    (∀ id, r.contains id = true ↔
      id ∈ declaredIds blocks ∨ id = toIdentifier defaultStyle) ∧
    warnings.countP Warning.isRedeclared + (declaredIds blocks).dedup.length =
      (styleBlocks blocks).length ∧
    warnings.filter Warning.isRedeclared = redeclaredWarnings (styleBlocks blocks) := by
  obtain ⟨ds, hds, rfl, rfl⟩ := collect_eq_ok h
  obtain ⟨hblocks, hdeclares⟩ := declares_of_mapM hds
  have hids := ids_ofDeclarations defaultStyle ds
  have hmem : ∀ id, id ∈ (ofDeclarations defaultStyle ds).ids ↔ id ∈ declaredIds blocks := by
    intro id
    rw [hids, Docx.mem_firstOccurrences, identifiers_of_mapM hds]
  -- parents that are unknown are another matter
  have hparents : ∀ w ∈ ds.filterMap (unknownParent? (ofDeclarations defaultStyle ds)),
      ¬ w.isRedeclared = true := by
    intro w hw
    obtain ⟨d, -, hd⟩ := List.mem_filterMap.mp hw
    obtain ⟨parent, -, -, rfl⟩ := unknownParent?_eq_some.mp hd
    exact Bool.false_ne_true
  refine ⟨?_, fun s => ?_, fun id => ?_, fun id => ?_, ?_, ?_⟩
  · have hordered := Docx.pairwise_firstOccurrences (ds.map fun d => d.style.id)
    rw [← hids, ← identifiers_of_mapM hds, ids, List.pairwise_map] at hordered
    exact hordered
  · rw [mem_styles_iff (nodup_ids_ofDeclarations defaultStyle ds), get?_ofDeclarations_eq_some hds,
      and_iff_right rfl]
  · rw [← hmem]
    exact List.mem_map.symm
  · rw [contains_iff, hmem, ofDeclarations_defaultId, or_comm]
  · rw [List.countP_append, List.countP_eq_zero.mpr hparents, identifiers_of_mapM hds,
      ← length_ids_ofDeclarations defaultStyle ds, ← hblocks, List.length_map]
    exact countP_isRedeclared_foldl_add defaultStyle ds
  · rw [List.filter_append, List.filter_eq_nil_iff.mpr hparents, List.append_nil, ← hblocks]
    exact filter_foldl_add fun d hd => Block.identifier?_of_declares (hdeclares d hd)

/-- Three spellings of one identifier, the last of them behind another style. -/
def respelledScript : List Block :=
  [{ command := .style, arguments := [⟨"name", "my title", none⟩], origin := some ⟨⟨0, 0⟩, none⟩ },
    { command := .style, arguments := [⟨"name", "My-Title", none⟩], origin := some ⟨⟨1, 0⟩, none⟩ },
    { command := .style, arguments := [⟨"name", "note", none⟩], origin := some ⟨⟨2, 0⟩, none⟩ },
    { command := .style, arguments := [⟨"name", "MY TITLE", none⟩], origin := some ⟨⟨3, 0⟩, none⟩ }]

theorem collect_registers_respelledScript : ∃ r warnings,
    collect respelledScript "Normal" = .ok (r, warnings) ∧
      r.styles.map Descriptor.name = ["MY TITLE", "note"] ∧
      LastDeclared respelledScript ⟨"MyTitle", "MY TITLE", none, "000000", "Aptos", 24⟩ ∧
      r.contains "Note" = true ∧ warnings.countP Warning.isRedeclared + 2 = 4 ∧
      warnings.filter Warning.isRedeclared =
        [⟨.redeclared "MyTitle", some ⟨⟨1, 0⟩, none⟩⟩,
          ⟨.redeclared "MyTitle", some ⟨⟨3, 0⟩, none⟩⟩] := by
  have hcollect : collect respelledScript "Normal" =
      .ok (⟨[⟨"MyTitle", "MY TITLE", none, "000000", "Aptos", 24⟩,
        ⟨"Note", "note", none, "000000", "Aptos", 24⟩], "Normal"⟩,
        [⟨.redeclared "MyTitle", some ⟨⟨1, 0⟩, none⟩⟩,
          ⟨.redeclared "MyTitle", some ⟨⟨3, 0⟩, none⟩⟩]) := by
    rfl
  obtain ⟨-, hlast, -, hknown, hcount, -⟩ := collect_registers hcollect
  refine ⟨_, _, hcollect, rfl, (hlast _).mp List.mem_cons_self, ?_, ?_, rfl⟩
  · exact (hknown _).mpr (.inl (by decide))
  · have hids : (declaredIds respelledScript).dedup.length = 2 := by decide
    rw [hids] at hcount
    exact hcount

end SheetMarkup
