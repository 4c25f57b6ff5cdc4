import SheetMarkup.Proofs.Document.Passes

/-!
# Warnings about unknown parents

A registry holds the last declaration of each identifier. Parents are checked when all styles are
declared, but for every declaration that was made on the way, also where a later one has taken its
place. So a warning about an unknown parent speaks of some declaration of its style, which need not
be the one in force.

* `get?_declare`, `LastDeclared`, **`get?_ofDeclarations_eq_some`**: the style in force for an
  identifier;
* `Inherited`, `Registry.Inherits`: a parent that some declaration names, and that of the style in
  force;
* `unknownParent?_eq_some`, `warnsOf_iff`: the declarations that are warned about;
* **`warnsOf_unknownParent_iff`**: which warnings there are, and when they are about the styles in
  force;
* `warnsOf_replaced_parent`: a warning about a declaration that was replaced.
-/

namespace SheetMarkup

open Outcome

namespace Registry

/-! ## The style in force -/

theorem get?_eq_none_iff {r : Registry} {id : String} : r.get? id = none ↔ id ∉ r.ids := by
  rw [get?, List.find?_eq_none, ids, List.mem_map, not_exists]
  simp only [beq_iff_eq, not_and]

theorem id_of_get? {r : Registry} {id : String} {s : Descriptor} (h : r.get? id = some s) :
    s.id = id := by
  have hs := List.find?_some h
  exact beq_iff_eq.mp hs

theorem id_replaced (s t : Descriptor) : (if t.id == s.id then s else t).id = t.id := by
  split_ifs with h
  · exact (beq_iff_eq.mp h).symm
  · rfl

theorem get?_declare (r : Registry) (s : Descriptor) (id : String) :
    (r.declare s).get? id = if s.id = id then some s else r.get? id := by
  by_cases hd : r.declares s.id = true
  · have hfind : (r.declare s).get? id =
        (r.get? id).map fun t => if t.id == s.id then s else t := by
      rw [declare, if_pos hd, get?, List.find?_map]
      simp only [Function.comp_def, id_replaced]
      rfl
    rw [hfind]
    cases hg : r.get? id with
    | none =>
      have hid : s.id ≠ id := fun he => get?_eq_none_iff.mp hg (he ▸ declares_iff.mp hd)
      rw [if_neg hid]
      rfl
    | some t =>
      simp only [Option.map_some, id_of_get? hg, beq_iff_eq, eq_comm (a := id)]
      split_ifs <;> rfl
  · rw [declare, if_neg hd, get?, List.find?_append, List.find?_singleton]
    by_cases hs : s.id = id
    · have hnone : r.get? id = none :=
        get?_eq_none_iff.mpr fun hi => hd (declares_iff.mpr (hs ▸ hi))
      rw [← get?, hnone, if_pos hs, if_pos (beq_iff_eq.mpr hs), Option.none_or]
    · rw [if_neg hs, if_neg fun he => hs (beq_iff_eq.mp he), Option.or_none, get?]

/-- An identifier has the style of the last of its declarations. -/
theorem get?_ofDeclarations (defaultStyle : String) (ds : List Declaration) (id : String) :
    (ofDeclarations defaultStyle ds).get? id =
      (ds.reverse.find? fun d => d.style.id == id).map Declaration.style := by
  induction ds using List.reverseRecOn with
  | nil => rfl
  | append_singleton ds d ih =>
    rw [ofDeclarations_append_singleton, get?_declare, ih, List.reverse_append,
      List.reverse_singleton, List.singleton_append, List.find?_cons]
    by_cases hd : d.style.id = id
    · rw [if_pos hd, beq_iff_eq.mpr hd]
      rfl
    · rw [if_neg hd, beq_eq_false_iff_ne.mpr hd]

end Registry

open Registry

/-- The style is the last one that the script declares for its identifier. -/
def LastDeclared (blocks : List Block) (s : Descriptor) : Prop :=
  ∃ before b after, styleBlocks blocks = before ++ b :: after ∧ b.Declares s ∧
    ∀ c ∈ after, ∀ t, c.Declares t → t.id ≠ s.id

theorem Block.Declares.unique {b : Block} {s t : Descriptor} (hs : b.Declares s)
    (ht : b.Declares t) : s = t :=
  Except.ok.inj (hs.2.symm.trans ht.2)

variable {blocks : List Block} {ds : List Declaration} {defaultStyle id parent : String}

/-- **The style in force is the one that was declared last.** -/
theorem get?_ofDeclarations_eq_some (h : (styleBlocks blocks).mapM declaration = .ok ds)
    {s : Descriptor} :
    (ofDeclarations defaultStyle ds).get? id = some s ↔ s.id = id ∧ LastDeclared blocks s := by
  obtain ⟨hblocks, hdeclares⟩ := declares_of_mapM h
  rw [get?_ofDeclarations, Option.map_eq_some_iff]
  constructor
  · rintro ⟨d, hd, rfl⟩
    obtain ⟨hid, after, before, hsplit, hafter⟩ := List.find?_eq_some_iff_append.mp hd
    have hds : ds = before.reverse ++ d :: after.reverse := by
      rw [← List.reverse_reverse ds, hsplit]
      simp
    refine ⟨beq_iff_eq.mp hid, before.reverse.map Declaration.block, d.block,
      after.reverse.map Declaration.block, ?_, hdeclares d (by simp [hds]), ?_⟩
    · rw [← hblocks, hds, List.map_append, List.map_cons]
    · intro c hc t ht he
      obtain ⟨e, hm, rfl⟩ := List.mem_map.mp hc
      have hm : e ∈ after := List.mem_reverse.mp hm
      rw [ht.unique (hdeclares e (by simp [hds, hm]))] at he
      simpa [he, beq_iff_eq.mp hid] using hafter e hm
  · rintro ⟨rfl, before, b, after, hsplit, hb, hafter⟩
    rw [← hblocks, List.map_eq_append_iff] at hsplit
    obtain ⟨front, back, rfl, -, hback⟩ := hsplit
    obtain ⟨d, rest, rfl, rfl, rfl⟩ := List.map_eq_cons_iff.mp hback
    refine ⟨d, List.find?_eq_some_iff_append.mpr ⟨?_, rest.reverse, front.reverse, by simp, ?_⟩,
      (hdeclares d (by simp)).unique hb⟩
    · rw [(hdeclares d (by simp)).unique hb]
      exact beq_self_eq_true _
    · intro e he
      have hm : e ∈ rest := List.mem_reverse.mp he
      have hne := hafter e.block (List.mem_map_of_mem hm) e.style (hdeclares e (by simp [hm]))
      rw [beq_eq_false_iff_ne.mpr hne]
      rfl

/-! ## Parents -/

/-- Some declaration of a script gives the identifier this parent, be it in force or not. -/
def Inherited (blocks : List Block) (id parent : String) : Prop :=
  ∃ b ∈ blocks, ∃ s, b.Declares s ∧ s.id = id ∧ s.parent = some parent

/-- The style in force for the identifier has this parent. -/
def Registry.Inherits (r : Registry) (id parent : String) : Prop :=
  ∃ s, r.get? id = some s ∧ s.parent = some parent

/-- There is a warning that the style inherits from this parent, which is unknown. -/
def WarnsOf (warnings : List Warning) (id parent : String) : Prop :=
  ∃ w ∈ warnings, w.doubt = .unknownParent id parent

theorem inherited_iff (h : (styleBlocks blocks).mapM declaration = .ok ds) :
    Inherited blocks id parent ↔ ∃ d ∈ ds, d.style.id = id ∧ d.style.parent = some parent := by
  obtain ⟨hblocks, hdeclares⟩ := declares_of_mapM h
  constructor
  · rintro ⟨b, hb, s, hs, hid, hparent⟩
    have hm : b ∈ ds.map Declaration.block :=
      hblocks ▸ List.mem_filter.mpr ⟨hb, decide_eq_true hs.1⟩
    obtain ⟨d, hd, rfl⟩ := List.mem_map.mp hm
    rw [hs.unique (hdeclares d hd)] at hid hparent
    exact ⟨d, hd, hid, hparent⟩
  · rintro ⟨d, hd, hid, hparent⟩
    have hm : d.block ∈ styleBlocks blocks := hblocks ▸ List.mem_map_of_mem hd
    exact ⟨d.block, (List.mem_filter.mp hm).1, d.style, hdeclares d hd, hid, hparent⟩

theorem Inherited.of_inherits (h : (styleBlocks blocks).mapM declaration = .ok ds)
    (hi : (ofDeclarations defaultStyle ds).Inherits id parent) : Inherited blocks id parent := by
  obtain ⟨s, hs, hparent⟩ := hi
  obtain ⟨hid, before, b, after, hsplit, hb, -⟩ := (get?_ofDeclarations_eq_some h).mp hs
  have hm : b ∈ styleBlocks blocks := by rw [hsplit]; simp
  exact ⟨b, (List.mem_filter.mp hm).1, s, hb, hid, hparent⟩

theorem unknownParent?_eq_some {r : Registry} {d : Declaration} {w : Warning} :
    unknownParent? r d = some w ↔ ∃ parent, d.style.parent = some parent ∧
      r.contains parent = false ∧ w = ⟨.unknownParent d.style.id parent, d.block.origin⟩ := by
  simp only [unknownParent?, Option.map_eq_some_iff, Option.filter_eq_some_iff, Bool.not_eq_true',
    and_assoc, eq_comm (a := w)]

theorem doubt_ne_unknownParent {w : Warning}
    (h : w ∈ (ds.foldl Progress.add (.start defaultStyle)).warnings) (id parent : String) :
    w.doubt ≠ .unknownParent id parent := by
  obtain ⟨before, d, after, -, hw⟩ := mem_warnings_foldl_add h
  rcases List.mem_append.mp hw with hw | hw
  · split_ifs at hw
    · cases hw
    · rw [List.mem_singleton.mp hw]
      exact nofun
  · split_ifs at hw
    · rw [List.mem_singleton.mp hw]
      exact nofun
    · cases hw

theorem warnsOf_iff :
    WarnsOf ((ds.foldl Progress.add (.start defaultStyle)).warnings ++
        ds.filterMap (unknownParent? (ofDeclarations defaultStyle ds))) id parent ↔
      (∃ d ∈ ds, d.style.id = id ∧ d.style.parent = some parent) ∧
        (ofDeclarations defaultStyle ds).contains parent = false := by
  constructor
  · rintro ⟨w, hw, hdoubt⟩
    rcases List.mem_append.mp hw with hw | hw
    · exact absurd hdoubt (doubt_ne_unknownParent hw id parent)
    · obtain ⟨d, hd, hw⟩ := List.mem_filterMap.mp hw
      obtain ⟨p, hp, hunknown, rfl⟩ := unknownParent?_eq_some.mp hw
      cases hdoubt
      exact ⟨⟨d, hd, rfl, hp⟩, hunknown⟩
  · rintro ⟨⟨d, hd, rfl, hp⟩, hunknown⟩
    exact ⟨_, List.mem_append_right _ (List.mem_filterMap.mpr
      ⟨d, hd, unknownParent?_eq_some.mpr ⟨parent, hp, hunknown, rfl⟩⟩), rfl⟩

theorem collect_eq_ok {r : Registry} {warnings : List Warning}
    (h : collect blocks defaultStyle = .ok (r, warnings)) : ∃ ds,
      (styleBlocks blocks).mapM declaration = .ok ds ∧ r = ofDeclarations defaultStyle ds ∧
      warnings = (ds.foldl Progress.add (.start defaultStyle)).warnings ++
        ds.filterMap (unknownParent? (ofDeclarations defaultStyle ds)) := by
  have hmap := mapError_collect blocks { defaultStyle := defaultStyle }
  rw [h] at hmap
  obtain ⟨ds, hds, hpair⟩ := map_eq_ok.mp hmap.symm
  obtain ⟨rfl, rfl⟩ := Prod.mk.inj hpair
  exact ⟨ds, hds, rfl, rfl⟩

/-- **Which warnings about unknown parents there are.** Every declaration of a style counts, also
one that was replaced. -/
theorem warnsOf_unknownParent_iff {r : Registry} {warnings : List Warning}
    (h : collect blocks defaultStyle = .ok (r, warnings)) :
    (∀ id s, r.get? id = some s ↔ s.id = id ∧ LastDeclared blocks s) ∧
    ∀ id parent,
      (WarnsOf warnings id parent ↔
        Inherited blocks id parent ∧ ¬ Known blocks { defaultStyle := defaultStyle } parent) ∧
      ((WarnsOf warnings id parent ↔
          r.Inherits id parent ∧ ¬ Known blocks { defaultStyle := defaultStyle } parent) ↔
        (Inherited blocks id parent → ¬ Known blocks { defaultStyle := defaultStyle } parent →
          r.Inherits id parent)) := by
  obtain ⟨ds, hds, rfl, rfl⟩ := collect_eq_ok h
  refine ⟨fun id s => get?_ofDeclarations_eq_some hds, fun id parent => ?_⟩
  have hknown : ∀ config : Config, (ofDeclarations config.defaultStyle ds).contains parent = true ↔
      Known blocks config parent := fun _ => contains_iff_known hds
  have hwarns : WarnsOf ((ds.foldl Progress.add (.start defaultStyle)).warnings ++
      ds.filterMap (unknownParent? (ofDeclarations defaultStyle ds))) id parent ↔
        Inherited blocks id parent ∧ ¬ Known blocks { defaultStyle := defaultStyle } parent := by
    rw [warnsOf_iff, inherited_iff hds, ← hknown, Bool.not_eq_true]
  refine ⟨hwarns, ?_⟩
  rw [hwarns]
  constructor
  · intro hforce hi hunknown
    exact (hforce.mp ⟨hi, hunknown⟩).1
  · intro hkept
    exact ⟨fun ⟨hi, hunknown⟩ => ⟨hkept hi hunknown, hunknown⟩,
      fun ⟨hi, hunknown⟩ => ⟨.of_inherits hds hi, hunknown⟩⟩

/-- Styles whose parents are declared later, the default style, unknown, and no longer unknown. -/
def familyScript : List Block :=
  [{ command := .style, arguments := [⟨"name", "child", none⟩, ⟨"parent", "late", none⟩] },
    { command := .style, arguments := [⟨"name", "quote", none⟩, ⟨"parent", "normal", none⟩] },
    { command := .style, arguments := [⟨"name", "lost", none⟩, ⟨"parent", "ghost", none⟩] },
    { command := .style, arguments := [⟨"name", "late", none⟩, ⟨"parent", "gone", none⟩] },
    { command := .style, arguments := [⟨"name", "LATE", none⟩, ⟨"parent", "quote", none⟩] }]

theorem warnsOf_unknownParent_iff_familyScript : ∃ r warnings,
    collect familyScript "Normal" = .ok (r, warnings) ∧
      warnings.map Warning.doubt = [.redeclared "Late", .unknownParent "Lost" "Ghost",
        .unknownParent "Late" "Gone"] ∧
      Inherited familyScript "Late" "Gone" ∧
      ¬ Known familyScript { defaultStyle := "Normal" } "Gone" ∧
      LastDeclared familyScript ⟨"Late", "LATE", some "Quote", "000000", "Aptos", 24⟩ := by
  have hdoubts : ((collect familyScript "Normal").map fun x => x.2.map Warning.doubt) =
      .ok [.redeclared "Late", .unknownParent "Lost" "Ghost", .unknownParent "Late" "Gone"] := by
    rfl
  have hlate : ((collect familyScript "Normal").map fun x => x.1.get? "Late") =
      .ok (some ⟨"Late", "LATE", some "Quote", "000000", "Aptos", 24⟩) := by
    rfl
  obtain ⟨⟨r, warnings⟩, hcollect, hdoubts⟩ := map_eq_ok.mp hdoubts
  rw [hcollect] at hlate
  obtain ⟨hlast, hwarns⟩ := warnsOf_unknownParent_iff hcollect
  have hgone : WarnsOf warnings "Late" "Gone" := by
    have hmem : Doubt.unknownParent "Late" "Gone" ∈ warnings.map Warning.doubt := by
      rw [hdoubts]
      simp
    exact List.mem_map.mp hmem
  obtain ⟨hinherited, hunknown⟩ := (hwarns "Late" "Gone").1.mp hgone
  exact ⟨r, warnings, hcollect, hdoubts, hinherited, hunknown,
    ((hlast _ _).mp (Except.ok.inj hlate)).2⟩

/-- A style with an unknown parent, and the same style without a parent. -/
def orphanScript : List Block :=
  [{ command := .style, arguments := [⟨"name", "a", none⟩, ⟨"parent", "ghost", none⟩] },
    { command := .style, arguments := [⟨"name", "a", none⟩] }]

/-- A declaration is replaced by one without a parent, and its parent is still warned about. -/
theorem warnsOf_replaced_parent : ∃ r warnings, collect orphanScript "Normal" = .ok (r, warnings) ∧
    WarnsOf warnings "A" "Ghost" ∧ r.get? "A" = some ⟨"A", "a", none, "000000", "Aptos", 24⟩ ∧
      ¬ r.Inherits "A" "Ghost" := by
  have hcollect : collect orphanScript "Normal" =
      .ok (⟨[⟨"A", "a", none, "000000", "Aptos", 24⟩], "Normal"⟩,
        [⟨.redeclared "A", none⟩, ⟨.unknownParent "A" "Ghost", none⟩]) := by
    rfl
  refine ⟨_, _, hcollect, ⟨⟨.unknownParent "A" "Ghost", none⟩, by simp, rfl⟩, rfl, ?_⟩
  rintro ⟨s, hs, hparent⟩
  cases hs
  cases hparent

end SheetMarkup
