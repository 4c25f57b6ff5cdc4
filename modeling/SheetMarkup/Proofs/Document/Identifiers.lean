import SheetMarkup.Proofs.Document.WellFormed

/-!
# Empty identifiers

A name has an identifier that is not empty exactly when it has a letter or a digit. Names of styles
without one are refused where they are declared. The name of the default style comes from the
settings and is not checked, so a document has an empty identifier where that name has none of them.

* `HasWord`, `toIdentifier_ne_empty_iff`: the names with an identifier that is not empty;
* `nodes_of_render`, `styleId_ne_empty_iff`: the styles of the nodes, block by block;
* `Document.Usable`, **`usable_iff_of_render`**: when no identifier of a document is empty;
* `empty_identifiers_of_render`: a document whose identifiers are all empty.
-/

namespace SheetMarkup

open Outcome Registry

/-! ## Names -/

/-- Some character is an ASCII letter or digit. -/
def HasWord (text : String) : Prop := ∃ c ∈ text.toList, c.isAlphanum = true

instance (text : String) : Decidable (HasWord text) :=
  decidable_of_iff (text.toList.any Char.isAlphanum = true) List.any_eq_true

theorem identifierFrom_eq_nil_iff {inWord : Bool} {cs : List Char} :
    identifierFrom inWord cs = [] ↔ ∀ c ∈ cs, ¬ Text.isAsciiAlphanumeric c = true := by
  induction cs generalizing inWord with
  | nil => simp [identifierFrom]
  | cons c cs ih =>
    rw [identifierFrom, List.forall_mem_cons]
    split_ifs with hc
    · simp [hc]
    · simp [hc, ih]

/-- **A name has an identifier that is not empty when it has a letter or a digit.** -/
theorem toIdentifier_ne_empty_iff {name : String} : toIdentifier name ≠ "" ↔ HasWord name := by
  have hempty : toIdentifier name = "" ↔ identifierFrom false name.toList = [] := by
    rw [toIdentifier, ← String.toList_inj, String.toList_ofList]
    rfl
  rw [ne_eq, hempty, identifierFrom_eq_nil_iff, HasWord]
  push Not
  exact exists_congr fun c => and_congr_right fun _ => Text.isAsciiAlphanumeric_iff

/-! ## Documents -/

/-- No identifier that the content of a document refers to is empty. -/
structure Document.Usable (d : Document) : Prop where
  defaultStyle : d.defaultStyle ≠ ""
  nodes : ∀ n ∈ d.nodes, n.style ≠ ""

/-- The last style that a block names has a letter or a digit. -/
def Block.NamesWord (b : Block) : Prop := ∃ a, b.argument? "style" = some a ∧ HasWord a.value

variable {blocks : List Block} {config : Config} {rendered : Rendered}

theorem nodes_of_render (h : render blocks config = .ok rendered) :
    rendered.document.nodes = (paragraphBlocks blocks).flatMap
      fun b => b.body.map (BodyEntry.node (b.styleId config)) := by
  obtain ⟨ds, nodes, -, hn, rfl⟩ := render_eq_ok h
  have hnodes := eq_map_of_mapM (fun b => b.body.map (BodyEntry.node (b.styleId config)))
    (fun b _ ns h => layout_eq_ok h) hn
  change nodes.flatten = _
  rw [hnodes, List.flatMap_def]

theorem styleId_ne_empty_iff (b : Block) : b.styleId config ≠ "" ↔
    b.argument? "style" = none ∧ HasWord config.defaultStyle ∨ b.NamesWord := by
  unfold Block.styleId Block.NamesWord
  cases b.argument? "style" with
  | none => simp [toIdentifier_ne_empty_iff]
  | some a => simp [toIdentifier_ne_empty_iff]

theorem defaultStyle_of_render (h : render blocks config = .ok rendered) :
    rendered.document.defaultStyle = toIdentifier config.defaultStyle := by
  obtain ⟨ds, nodes, -, -, rfl⟩ := render_eq_ok h
  rfl

/-- Only nodes in the default style can have an empty identifier. -/
theorem style_ne_empty_of_render (h : render blocks config = .ok rendered)
    (hd : rendered.document.defaultStyle ≠ "") :
    ∀ n ∈ rendered.document.nodes, n.style ≠ "" := by
  have hclosed := closed_of_render h
  exact hclosed.forall_node (p := (· ≠ "")) hd fun s hs => (hclosed.sound s hs).id_ne

theorem nodes_ne_empty_iff (h : render blocks config = .ok rendered)
    (hw : ¬ HasWord config.defaultStyle) : (∀ n ∈ rendered.document.nodes, n.style ≠ "") ↔
      ∀ b ∈ paragraphBlocks blocks, b.body ≠ [] → b.NamesWord := by
  have hstyle : ∀ b : Block, b.styleId config ≠ "" ↔ b.NamesWord := fun b => by
    rw [styleId_ne_empty_iff, or_iff_right fun hdefault => hw hdefault.2]
  rw [nodes_of_render h]
  constructor
  · intro hnodes b hb hbody
    obtain ⟨entry, hentry⟩ := List.exists_mem_of_ne_nil _ hbody
    have hne := hnodes (entry.node (b.styleId config))
      (List.mem_flatMap.mpr ⟨b, hb, List.mem_map_of_mem hentry⟩)
    rw [BodyEntry.style_node] at hne
    exact (hstyle b).mp hne
  · intro hblocks n hn
    obtain ⟨b, hb, hn⟩ := List.mem_flatMap.mp hn
    obtain ⟨entry, hentry, rfl⟩ := List.mem_map.mp hn
    rw [BodyEntry.style_node]
    exact (hstyle b).mpr (hblocks b hb (List.ne_nil_of_mem hentry))

/-- **When no identifier of a rendered document is empty.** Only that of the default style can be,
and with it those of the nodes. -/
theorem usable_iff_of_render (h : render blocks config = .ok rendered) :
    (∀ s ∈ rendered.document.styles, s.id ≠ "") ∧
      (rendered.document.Usable ↔ HasWord config.defaultStyle) ∧
      (¬ HasWord config.defaultStyle → ((∀ n ∈ rendered.document.nodes, n.style ≠ "") ↔
        ∀ b ∈ blocks, b.command = .paragraph → b.body ≠ [] → b.NamesWord)) := by
  refine ⟨fun s hs => ((closed_of_render h).sound s hs).id_ne, ⟨fun hu => ?_, fun hw => ?_⟩,
    fun hw => ?_⟩
  · exact toIdentifier_ne_empty_iff.mp (defaultStyle_of_render h ▸ hu.defaultStyle)
  · have hd : rendered.document.defaultStyle ≠ "" :=
      defaultStyle_of_render h ▸ toIdentifier_ne_empty_iff.mpr hw
    exact ⟨hd, style_ne_empty_of_render h hd⟩
  · rw [nodes_ne_empty_iff h hw]
    simp only [paragraphBlocks, List.mem_filter, decide_eq_true_eq, and_imp]

/-- Settings whose default style has no letter or digit. -/
def namelessConfig : Config := { defaultStyle := "--" }

/-- A paragraph that names a style, and one with an empty name and no body. -/
def namedScript : List Block :=
  [{ command := .style, arguments := [⟨"name", "Big", none⟩] },
    { command := .paragraph, arguments := [⟨"style", "big", none⟩], body := [.text "first"] },
    { command := .paragraph, arguments := [⟨"style", "!", none⟩] }]

theorem usable_iff_of_render_namedScript : ∃ rendered,
    render namedScript namelessConfig = .ok rendered ∧ ¬ rendered.document.Usable ∧
      rendered.document.nodes = [.paragraph "Big" "first"] ∧
      ∀ b ∈ namedScript, b.command = .paragraph → b.body ≠ [] → b.NamesWord := by
  have hrender : render namedScript namelessConfig = .ok {
      document := {
        pageMargin := 1134, defaultStyle := "", nodes := [.paragraph "Big" "first"]
        styles := [⟨"Big", "Big", none, "000000", "Aptos", 24⟩] }
      warnings := [] } := by
    decide +kernel
  have hw : ¬ HasWord namelessConfig.defaultStyle := by decide
  obtain ⟨-, husable, hnodes⟩ := usable_iff_of_render hrender
  refine ⟨_, hrender, fun hu => hw (husable.mp hu), rfl, (hnodes hw).mp ?_⟩
  decide

/-- A document of a single line, whose identifiers are all empty. -/
theorem empty_identifiers_of_render : ∃ rendered,
    render [{ command := .paragraph, body := [.text "x"] }] namelessConfig = .ok rendered ∧
      rendered.document.defaultStyle = "" ∧ (∀ n ∈ rendered.document.nodes, n.style = "") ∧
      ¬ rendered.document.Usable := by
  have hrender : render [{ command := .paragraph, body := [.text "x"] }] namelessConfig = .ok {
      document := {
        pageMargin := 1134, defaultStyle := "", nodes := [.paragraph "" "x"], styles := [] }
      warnings := [] } := by
    decide +kernel
  exact ⟨_, hrender, rfl, by decide, fun hu => hu.defaultStyle rfl⟩

end SheetMarkup
