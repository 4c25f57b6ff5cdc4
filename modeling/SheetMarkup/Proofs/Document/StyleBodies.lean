import SheetMarkup.Proofs.Document.Content
import SheetMarkup.Proofs.Document.Diagnostics

/-!
# Bodies of styles

A style has no use for the rows under it, and there is a warning where its block has a body. Trimming
takes all blank rows away unless there is exactly one, so the warnings are those of the styles with
content, and of the styles over a single blank row.

* `Group.hasContent`, `Group.isOverBlank`: the two sorts of bodies that are not trimmed away;
* **`isEmpty_kept`**: the body of a block, from the rows of its group;
* `countP_foldl_add`, `countP_warningsOf`: the warnings of some declarations (the run), of which each
  gives at most one;
* `countP_styleBlocks`: the style blocks of a sheet as its groups;
* **`countP_ignoredBody`**: the number of warnings, from the rows of the sheet;
* `ignoredBody_of_blank_row`: a style without any content that raises one.
-/

namespace SheetMarkup

open Outcome Registry

/-! ## Bodies -/

/-- The warning says that the body of a style is ignored. -/
def Warning.isIgnoredBody (w : Warning) : Bool :=
  match w.doubt with
  | .ignoredBody _ => true
  | _ => false

namespace Group

/-- The command row is that of a style. -/
def isStyle (g : Group) : Bool := decide (g.head.command? = some .style)

/-- Some row under the command row has content. -/
def hasContent (g : Group) : Bool := g.body.any Row.hasContent

/-- There is one row under the command row, and it is blank. -/
def isOverBlank (g : Group) : Bool := g.body.length == 1 && !g.hasContent

theorem kept_eq_nil_of_blank {g : Group} (hlength : ¬ g.body.length ≤ 1)
    (h : g.hasContent = false) : g.kept = [] := by
  have hdrop : (g.body.dropWhile fun r => !r.hasContent) = [] := by
    rw [List.dropWhile_eq_nil_iff]
    intro r hr
    rw [Bool.eq_false_iff.mpr (List.any_eq_false.mp h r hr)]
    rfl
  rw [kept, if_neg hlength, hdrop, List.rdropWhile_nil]

/-- **A body is trimmed away unless it has content or is a single row.** -/
theorem isEmpty_kept (g : Group) : g.kept.isEmpty = !(g.hasContent || g.isOverBlank) := by
  cases h : g.hasContent with
  | true =>
    -- a row with content is kept
    obtain ⟨r, hr, hcontent⟩ := List.any_eq_true.mp h
    have hmem : r ∈ g.kept.filter Row.hasContent := by
      rw [kept_filter_hasContent]
      exact List.mem_filter.mpr ⟨hr, hcontent⟩
    rw [Bool.true_or, Bool.not_true, List.isEmpty_eq_false_iff_exists_mem]
    exact ⟨r, (List.mem_filter.mp hmem).1⟩
  | false =>
    rw [isOverBlank, h, Bool.false_or, Bool.not_false, Bool.and_true]
    by_cases hlength : g.body.length ≤ 1
    · rw [kept, if_pos hlength]
      rcases hbody : g.body with _ | ⟨r, _ | ⟨s, rows⟩⟩
      · rfl
      · rfl
      · rw [hbody] at hlength
        simp at hlength
    · rw [kept_eq_nil_of_blank hlength h]
      simp only [List.isEmpty_nil, Bool.true_eq, Bool.not_eq_true', beq_eq_false_iff_ne]
      omega

end Group

/-! ## Warnings -/

/-- The block has a body. -/
def Block.hasBody (b : Block) : Bool := !b.body.isEmpty

theorem countP_warnings (r : Registry) (d : Declaration) :
    (d.warnings r).countP Warning.isIgnoredBody = if d.block.hasBody then 1 else 0 := by
  unfold Declaration.warnings Block.hasBody
  cases d.block.body.isEmpty <;> cases r.declares d.style.id <;> rfl

/-- The warnings of declarations that are taken up: one for each that has a body. -/
theorem countP_foldl_add (ds : List Declaration) (p : Progress) :
    (ds.foldl Progress.add p).warnings.countP Warning.isIgnoredBody =
      p.warnings.countP Warning.isIgnoredBody + ds.countP fun d => d.block.hasBody := by
  induction ds generalizing p with
  | nil => rfl
  | cons d ds ih =>
    rw [List.foldl_cons, ih, Progress.add, List.countP_append, countP_warnings, List.countP_cons]
    omega

theorem countP_warningsOf (blocks : List Block) (config : Config) (ds : List Declaration) :
    (warningsOf blocks config ds).countP Warning.isIgnoredBody =
      ds.countP fun d => d.block.hasBody := by
  have hparents : (ds.filterMap (unknownParent? (ofDeclarations config.defaultStyle ds))).countP
      Warning.isIgnoredBody = 0 := by
    rw [List.countP_eq_zero]
    intro w hw
    obtain ⟨d, -, hd⟩ := List.mem_filterMap.mp hw
    obtain ⟨parent, -, rfl⟩ := Option.map_eq_some_iff.mp hd
    exact Bool.false_ne_true
  have hrepeated : ((paragraphBlocks blocks).flatMap repeated).countP Warning.isIgnoredBody = 0 := by
    rw [List.countP_eq_zero]
    intro w hw
    obtain ⟨b, -, hb⟩ := List.mem_flatMap.mp hw
    simp only [repeated] at hb
    split_ifs at hb
    · rw [List.mem_singleton.mp hb]
      exact Bool.false_ne_true
    · cases hb
  rw [warningsOf, List.countP_append, List.countP_append, hparents, hrepeated, countP_foldl_add]
  exact Nat.zero_add _

/-! ## Sheets -/

theorem countP_styleBlocks {rows : List Row} (h : firstError? rows = none) :
    (styleBlocks ((groupsOf rows).map Group.block)).countP Block.hasBody =
      (groupsOf rows).countP fun g => g.isStyle && (g.hasContent || g.isOverBlank) := by
  rw [styleBlocks, List.countP_filter, List.countP_map]
  refine List.countP_congr fun g hg => ?_
  have hbody : g.block.hasBody = (g.hasContent || g.isOverBlank) := by
    change (!(g.kept.map Row.entry).isEmpty) = _
    rw [List.isEmpty_map, Group.isEmpty_kept, Bool.not_not]
  have hstyle : g.isStyle = decide (g.block.command = .style) := by
    rw [Group.isStyle, command?_of_firstError? h hg]
    simp
  rw [Function.comp_apply, hbody, hstyle, Bool.and_comm]

/-- **The number of warnings about bodies of styles.** There is one for every style with content under
it, and one for every style over exactly one blank row. -/
theorem countP_ignoredBody {rows : List Row} {config : Config} {rendered : Rendered}
    (h : (parse rows >>= (render · config)) = .ok rendered) :
    rendered.warnings.countP Warning.isIgnoredBody =
      ((groupsOf rows).countP fun g => g.isStyle && g.hasContent) +
        (groupsOf rows).countP fun g => g.isStyle && g.isOverBlank := by
  obtain ⟨blocks, hparse, hrender⟩ := bind_eq_ok.mp h
  obtain ⟨haccepted, rfl⟩ := parse_eq_ok hparse
  obtain ⟨ds, nodes, hds, -, rfl⟩ := render_eq_ok hrender
  have hcount : (warningsOf ((groupsOf rows).map Group.block) config ds).countP
      Warning.isIgnoredBody =
        (groupsOf rows).countP fun g => g.isStyle && (g.hasContent || g.isOverBlank) := by
    rw [countP_warningsOf, ← countP_styleBlocks haccepted, ← (declares_of_mapM hds).1,
      List.countP_map]
    rfl
  -- no body is of both sorts
  rw [hcount, List.countP_eq_countP_filter_add _ _ Group.hasContent, List.countP_filter,
    List.countP_filter]
  congr 1 <;> refine List.countP_congr fun g _ => ?_
  · cases g.hasContent <;> simp
  · rw [Group.isOverBlank]
    cases g.hasContent <;> simp

/-- Styles over content, over several blank rows, over a single one and over nothing. -/
def bodiesSheet : List Row :=
  [⟨0, [.ofText "s", .ofText "name=a"]⟩, ⟨1, [.empty, .ofText "// note"]⟩, ⟨2, [.empty, .ofText "x"]⟩,
    ⟨3, [.ofText "s", .ofText "name=b"]⟩, ⟨4, []⟩, ⟨5, [.ofText "// note"]⟩,
    ⟨6, [.ofText "s", .ofText "name=c"]⟩, ⟨7, [.empty]⟩,
    ⟨8, [.ofText "s", .ofText "name=d"]⟩, ⟨9, [.ofText "p"]⟩, ⟨10, [.empty, .ofText "y"]⟩]

theorem countP_ignoredBody_bodiesSheet : ∃ rendered,
    (parse bodiesSheet >>= (render · {})) = .ok rendered ∧
      rendered.warnings.countP Warning.isIgnoredBody = 1 + 1 := by
  have h : (parse bodiesSheet >>= (render · {})).isOk = true := by decide +kernel
  obtain ⟨rendered, hr⟩ := exists_of_isOk h
  exact ⟨rendered, hr, (countP_ignoredBody hr).trans (by decide)⟩

/-- A style over one blank row, and a paragraph. -/
def blankRowSheet : List Row :=
  [⟨0, [.ofText "s", .ofText "name=a"]⟩, ⟨1, [.empty]⟩, ⟨2, [.ofText "p"]⟩,
    ⟨3, [.empty, .ofText "x"]⟩]

/-- No style of the sheet has any content under it, and yet there is a warning. -/
theorem ignoredBody_of_blank_row :
    ((parse blankRowSheet >>= (render · {})).map fun r =>
      r.warnings.countP Warning.isIgnoredBody) = .ok 1 ∧
        ((groupsOf blankRowSheet).countP fun g => g.isStyle && g.hasContent) = 0 := by
  decide +kernel

end SheetMarkup
