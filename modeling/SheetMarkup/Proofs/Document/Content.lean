import SheetMarkup.Proofs.Document.Rendering
import SheetMarkup.Proofs.Script.Acceptance

/-!
# From the rows of a sheet to the nodes of its document

Every row that counts under a paragraph row becomes one node, in order, and no other row becomes
one.

* `Row.node`, `Row.styleId`, `Group.nodes`: the nodes of a group, read off its rows;
* `groupsOf_rows`, `Group.kept_filter_hasContent`: groups take up all rows from the first command
  row on, and drop no row with content;
* `layout_eq_ok`: the nodes of a paragraph block;
* **`render_parse_nodes`**: the nodes of a sheet that is read and rendered.
-/

namespace SheetMarkup

open Outcome Registry

/-! ## Nodes of rows -/

/-- The node of a row in a style: its first content, or an empty text. -/
def Row.node (style : String) (r : Row) : Node :=
  match r.cells.find? Cell.hasContent with
  | none => .paragraph style ""
  | some c => if c.kind = .image then .image style c.value else .paragraph style c.value

/-- The style that a command row asks for: that of its last cell with the key `style`, else the
default style. -/
def Row.styleId (config : Config) (r : Row) : String :=
  match (r.argumentCells.filter fun x => x.1.key == "style").getLast? with
  | none => toIdentifier config.defaultStyle
  | some x => toIdentifier x.1.setting

/-- The nodes of a group: one for every row that counts under a paragraph row. -/
def Group.nodes (config : Config) (g : Group) : List Node :=
  if g.head.command? = some .paragraph then g.kept.map (Row.node (g.head.styleId config)) else []

/-- The rows of a group. -/
def Group.rows (g : Group) : List Row := g.head :: g.body

theorem Row.node_entry (style : String) (r : Row) : r.entry.node style = r.node style := by
  unfold entry node
  cases r.cells.find? Cell.hasContent with
  | none => rfl
  | some c =>
    simp only
    split_ifs <;> rfl

/-! ## Groups -/

theorem groupsOf_rows (rows : List Row) :
    (groupsOf rows).flatMap Group.rows = rows.dropWhile fun r => !r.isCommand := by
  induction rows with
  | nil => rfl
  | cons r rows ih =>
    rw [groupsOf, List.dropWhile_cons]
    cases hr : r.isCommand with
    | false => exact ih
    | true =>
      simp only [if_true, List.flatMap_cons, ih, Group.rows, Bool.not_true, Bool.false_eq_true,
        if_false, List.cons_append, List.takeWhile_append_dropWhile]

theorem filter_dropWhile_not {α : Type} (p : α → Bool) (xs : List α) :
    (xs.dropWhile fun x => !p x).filter p = xs.filter p := by
  induction xs with
  | nil => rfl
  | cons x xs ih =>
    rw [List.dropWhile_cons]
    cases hx : p x with
    | false => simpa [hx] using ih
    | true => simp [hx]

theorem Group.kept_filter_hasContent (g : Group) :
    g.kept.filter Row.hasContent = g.body.filter Row.hasContent := by
  unfold kept
  split_ifs
  · rfl
  · rw [List.rdropWhile, List.filter_reverse, filter_dropWhile_not, ← List.filter_reverse,
      List.reverse_reverse, filter_dropWhile_not]

/-! ## Blocks -/

def Block.styleId (config : Config) (b : Block) : String :=
  match b.argument? "style" with
  | none => toIdentifier config.defaultStyle
  | some a => toIdentifier a.value

theorem Group.styleId_block (config : Config) (g : Group) :
    g.block.styleId config = g.head.styleId config := by
  have h : g.block.argument? "style" =
      (g.head.argumentCells.filter fun x => x.1.key == "style").getLast?.map g.head.argument := by
    change ((g.head.argumentCells.map g.head.argument).filter (·.name == "style")).getLast? = _
    rw [List.filter_map, List.getLast?_map]
    rfl
  unfold Block.styleId Row.styleId
  rw [h]
  cases (g.head.argumentCells.filter fun x => x.1.key == "style").getLast? <;> rfl

theorem styleOf_eq_ok {config : Config} {ds : List Declaration} {b : Block} {style : String}
    (h : (ofDeclarations config.defaultStyle ds).styleOf b = .ok style) :
    style = b.styleId config ∧ (ofDeclarations config.defaultStyle ds).contains style = true := by
  unfold styleOf at h
  unfold Block.styleId
  cases ha : b.argument? "style" with
  | none =>
    simp only [ha, Except.ok.injEq] at h
    subst h
    exact ⟨ofDeclarations_defaultId _ _, by simp [contains]⟩
  | some a =>
    simp only [ha, resolve?, Option.filter_some] at h
    split_ifs at h with hc
    · cases h
      exact ⟨rfl, hc⟩

theorem layout_eq_ok {config : Config} {ds : List Declaration} {b : Block} {nodes : List Node}
    (h : (ofDeclarations config.defaultStyle ds).layout b = .ok nodes) :
    nodes = b.body.map (BodyEntry.node (b.styleId config)) := by
  obtain ⟨style, hs, rfl⟩ := map_eq_ok.mp h
  rw [(styleOf_eq_ok hs).1]

theorem Group.body_block_map_node (config : Config) (g : Group) :
    g.block.body.map (BodyEntry.node (g.block.styleId config)) =
      g.kept.map (Row.node (g.head.styleId config)) := by
  rw [styleId_block]
  change (g.kept.map Row.entry).map _ = _
  rw [List.map_map]
  exact List.map_congr_left fun r _ => r.node_entry _

/-! ## The sheet -/

theorem paragraphBlocks_flatMap {rows : List Row} (he : firstError? rows = none) (config : Config) :
    (paragraphBlocks ((groupsOf rows).map Group.block)).flatMap
      (fun b => b.body.map (BodyEntry.node (b.styleId config))) =
        (groupsOf rows).flatMap (Group.nodes config) := by
  have h : ∀ g ∈ groupsOf rows, Group.nodes config g =
      if g.block.command = .paragraph then
        g.block.body.map (BodyEntry.node (g.block.styleId config)) else [] := by
    intro g hg
    rw [Group.nodes, command?_of_firstError? he hg, Group.body_block_map_node]
    simp only [Option.some.injEq]
  rw [List.flatMap_congr h, paragraphBlocks]
  generalize groupsOf rows = gs
  induction gs with
  | nil => rfl
  | cons g gs ih =>
    rw [List.map_cons, List.filter_cons, List.flatMap_cons, ← ih]
    by_cases hc : g.block.command = .paragraph
    · simp [hc]
    · simp [hc]

/-- **The nodes of a sheet that is read and rendered** are those of its paragraph groups in order,
one for every row that counts. -/
theorem render_parse_nodes {rows : List Row} {config : Config} {blocks : List Block}
    {rendered : Rendered} (hp : parse rows = .ok blocks)
    (hr : render blocks config = .ok rendered) :
    rendered.document.nodes = (groupsOf rows).flatMap (Group.nodes config) ∧
      (groupsOf rows).flatMap Group.rows = (rows.dropWhile fun r => !r.isCommand) ∧
      ∀ g ∈ groupsOf rows, g.kept.filter Row.hasContent = g.body.filter Row.hasContent := by
  refine ⟨?_, groupsOf_rows rows, fun g _ => g.kept_filter_hasContent⟩
  obtain ⟨he, rfl⟩ := parse_eq_ok hp
  obtain ⟨ds, nodes, -, hn, rfl⟩ := render_eq_ok hr
  have hnodes := eq_map_of_mapM (fun b => b.body.map (BodyEntry.node (b.styleId config)))
    (fun b _ ns h => layout_eq_ok h) hn
  change nodes.flatten = _
  rw [hnodes, ← List.flatMap_def, paragraphBlocks_flatMap he]

/-- A sheet with a lost row, a style with a body, and two paragraphs between blank rows. -/
def mixedSheet : List Row :=
  [⟨0, [.empty, .ofText "lost"]⟩, ⟨1, [.ofText "Style", .ofText "name=Big"]⟩,
    ⟨2, [.empty, .ofText "ignored"]⟩, ⟨3, [.ofText " P ", .empty, .ofText "style = big"]⟩, ⟨4, []⟩,
    ⟨5, [.ofText "// note", .ofText "first "]⟩, ⟨6, [.empty]⟩, ⟨7, [.empty, .image "pic.png"]⟩,
    ⟨8, [.ofText "// end"]⟩, ⟨9, [.ofText "p"]⟩, ⟨10, []⟩]

theorem render_parse_nodes_mixedSheet : ∃ blocks rendered, parse mixedSheet = .ok blocks ∧
    render blocks {} = .ok rendered ∧ rendered.document.nodes =
      [.paragraph "Big" "first ", .paragraph "Big" "", .image "Big" "pic.png",
        .paragraph "Normal" ""] := by
  have h : (parse mixedSheet >>= fun blocks => render blocks {}).isOk = true := by
    decide +kernel
  obtain ⟨rendered, hr⟩ := exists_of_isOk h
  obtain ⟨blocks, hp, hr⟩ := bind_eq_ok.mp hr
  exact ⟨blocks, rendered, hp, hr, (render_parse_nodes hp hr).1.trans (by decide)⟩

end SheetMarkup
