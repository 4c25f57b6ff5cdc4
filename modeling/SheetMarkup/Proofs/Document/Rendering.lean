import SheetMarkup.Document.Render
import SheetMarkup.Proofs.Outcome

/-!
# Rendering without a state

The declarations of a script are read one block at a time, and everything else of the registry
follows from their list. So a script is rendered in two independent steps: its style blocks give
declarations, and its paragraph blocks give nodes.

* `declaration`, `Progress.add`: one style block, read and taken up;
* `foldlM_step`: taking up style blocks is reading all of them and then adding them in order;
* `foldlM_layBlock`: going over all blocks is laying out the paragraph blocks;
* **`render_eq_ok`**, `render_eq_error`: what a successful and a failed rendering consist of.
-/

namespace SheetMarkup

open Outcome

namespace Registry

/-- Reads a style block. -/
def declaration (b : Block) : Except Error Declaration :=
  (Descriptor.ofBlock b).map fun style => ⟨style, b⟩

/-- The warnings that a declaration gives when it is taken up. -/
def Declaration.warnings (r : Registry) (d : Declaration) : List Warning :=
  (if d.block.body.isEmpty then [] else [⟨.ignoredBody d.style.name, d.block.origin⟩]) ++
    if r.declares d.style.id then [⟨.redeclared d.style.id, d.block.origin⟩] else []

/-- Takes up a declaration. -/
def Progress.add (p : Progress) (d : Declaration) : Progress where
  registry := p.registry.declare d.style
  warnings := p.warnings ++ d.warnings p.registry
  declarations := p.declarations ++ [d]

def Progress.start (defaultStyle : String) : Progress := ⟨new defaultStyle, [], []⟩

/-- The registry of some declarations. -/
def ofDeclarations (defaultStyle : String) (ds : List Declaration) : Registry :=
  ds.foldl (fun r d => r.declare d.style) (new defaultStyle)

/-- **Taking up style blocks is reading all of them and then adding them in order.** -/
theorem foldlM_step (blocks : List Block) (p : Progress) :
    (blocks.foldlM step p).mapError Prod.fst =
      (blocks.mapM declaration).map fun ds => ds.foldl Progress.add p := by
  induction blocks generalizing p with
  | nil => rfl
  | cons b blocks ih =>
    rw [List.foldlM_cons, List.mapM_cons]
    cases hb : Descriptor.ofBlock b with
    | error e =>
      have h1 : step p b = .error (e, p.warnings) := by rw [step, hb]
      have h2 : declaration b = .error e := by rw [declaration, hb]; rfl
      rw [h1, h2]
      rfl
    | ok style =>
      have h1 : step p b = .ok (p.add ⟨style, b⟩) := by
        rw [step, hb]
        simp only [Progress.add, Declaration.warnings, List.append_assoc]
      have h2 : declaration b = .ok ⟨style, b⟩ := by rw [declaration, hb]; rfl
      rw [h1, h2]
      change (blocks.foldlM step (p.add ⟨style, b⟩)).mapError Prod.fst = _
      rw [ih]
      change _ = ((blocks.mapM declaration) >>= fun ds =>
        pure ((⟨style, b⟩ : Declaration) :: ds)).map _
      cases blocks.mapM declaration <;> rfl

theorem foldl_add_registry (ds : List Declaration) (p : Progress) :
    (ds.foldl Progress.add p).registry =
      ds.foldl (fun r d => r.declare d.style) p.registry := by
  induction ds generalizing p with
  | nil => rfl
  | cons d ds ih => exact ih (p.add d)

theorem foldl_add_declarations (ds : List Declaration) (p : Progress) :
    (ds.foldl Progress.add p).declarations = p.declarations ++ ds := by
  induction ds generalizing p with
  | nil => simp
  | cons d ds ih =>
    rw [List.foldl_cons, ih, Progress.add]
    simp

theorem declare_defaultId (r : Registry) (style : Descriptor) :
    (r.declare style).defaultId = r.defaultId := by
  unfold declare
  split_ifs <;> rfl

theorem ofDeclarations_defaultId (defaultStyle : String) (ds : List Declaration) :
    (ofDeclarations defaultStyle ds).defaultId = toIdentifier defaultStyle := by
  have h : ∀ r : Registry, (ds.foldl (fun r d => r.declare d.style) r).defaultId = r.defaultId := by
    induction ds with
    | nil => exact fun r => rfl
    | cons d ds ih => exact fun r => (ih (r.declare d.style)).trans (declare_defaultId r d.style)
  exact h (new defaultStyle)

theorem declaration_eq_ok {b : Block} {d : Declaration} :
    declaration b = .ok d ↔ Descriptor.ofBlock b = .ok d.style ∧ d.block = b := by
  rw [declaration, map_eq_ok]
  constructor
  · rintro ⟨style, h, rfl⟩
    exact ⟨h, rfl⟩
  · rintro ⟨h, rfl⟩
    exact ⟨d.style, h, rfl⟩

end Registry

/-! ## Scripts -/

open Registry

def styleBlocks (blocks : List Block) : List Block := blocks.filter (·.command = .style)

def paragraphBlocks (blocks : List Block) : List Block := blocks.filter (·.command = .paragraph)

/-- The warnings of a script with these declarations, in order. -/
def warningsOf (blocks : List Block) (config : Config) (ds : List Declaration) : List Warning :=
  (ds.foldl Progress.add (.start config.defaultStyle)).warnings ++
    ds.filterMap (unknownParent? (ofDeclarations config.defaultStyle ds)) ++
    (paragraphBlocks blocks).flatMap repeated

/-- The document of a script with these declarations and nodes. -/
def documentOf (config : Config) (ds : List Declaration) (nodes : List (List Node)) : Document where
  pageMargin := config.pageMargin
  defaultStyle := toIdentifier config.defaultStyle
  styles := (ofDeclarations config.defaultStyle ds).styles
  nodes := nodes.flatten

theorem mapError_collect (blocks : List Block) (config : Config) :
    (collect blocks config.defaultStyle).mapError Prod.fst =
      ((styleBlocks blocks).mapM declaration).map fun ds =>
        (ofDeclarations config.defaultStyle ds,
          (ds.foldl Progress.add (.start config.defaultStyle)).warnings ++
            ds.filterMap (unknownParent? (ofDeclarations config.defaultStyle ds))) := by
  rw [collect, map_mapError]
  change (((styleBlocks blocks).foldlM step (.start config.defaultStyle)).mapError
    Prod.fst).map _ = _
  rw [foldlM_step]
  cases (styleBlocks blocks).mapM declaration with
  | error e => rfl
  | ok ds =>
    simp only [Except.map, foldl_add_registry, foldl_add_declarations]
    rfl

/-- **Going over all blocks is laying out the paragraph blocks.** -/
theorem foldlM_layBlock (r : Registry) (blocks : List Block) (laid : Laid) :
    blocks.foldlM r.layBlock laid = ((paragraphBlocks blocks).mapM r.layout).map fun nodes =>
      ⟨laid.nodes ++ nodes.flatten,
        laid.warnings ++ (paragraphBlocks blocks).flatMap repeated⟩ := by
  induction blocks generalizing laid with
  | nil => simp [paragraphBlocks, pure, Except.pure, Except.map]
  | cons b blocks ih =>
    rw [List.foldlM_cons]
    cases hb : b.command with
    | style =>
      have hskip : r.layBlock laid b = .ok laid := by rw [layBlock, hb]
      have hfilter : paragraphBlocks (b :: blocks) = paragraphBlocks blocks :=
        List.filter_cons_of_neg (by simp [hb])
      rw [hskip, hfilter]
      exact ih laid
    | paragraph =>
      have hlay : r.layBlock laid b = (r.layout b).map fun nodes =>
          ⟨laid.nodes ++ nodes, laid.warnings ++ repeated b⟩ := by rw [layBlock, hb]
      have hfilter : paragraphBlocks (b :: blocks) = b :: paragraphBlocks blocks :=
        List.filter_cons_of_pos (by simp [hb])
      rw [hlay, hfilter, List.mapM_cons]
      cases r.layout b with
      | error e => rfl
      | ok nodes =>
        change blocks.foldlM r.layBlock _ = _
        rw [ih]
        cases (paragraphBlocks blocks).mapM r.layout with
        | error e => simp [bind, Except.bind, Except.map]
        | ok rest => simp [bind, Except.bind, pure, Except.pure, Except.map]

/-- **Rendering reads the style blocks, and then lays out the paragraph blocks.** -/
theorem render_eq (blocks : List Block) (config : Config) :
    render blocks config = ((styleBlocks blocks).mapM declaration >>= fun ds =>
      ((paragraphBlocks blocks).mapM (ofDeclarations config.defaultStyle ds).layout).map
        fun nodes => ⟨documentOf config ds nodes, warningsOf blocks config ds⟩) := by
  rw [render, mapError_collect]
  cases (styleBlocks blocks).mapM declaration with
  | error e => rfl
  | ok ds =>
    change (blocks.foldlM (ofDeclarations config.defaultStyle ds).layBlock _ >>= _) =
      ((paragraphBlocks blocks).mapM (ofDeclarations config.defaultStyle ds).layout).map _
    rw [foldlM_layBlock]
    cases (paragraphBlocks blocks).mapM (ofDeclarations config.defaultStyle ds).layout with
    | error e => rfl
    | ok nodes =>
      simp only [Except.map, documentOf, ← ofDeclarations_defaultId config.defaultStyle ds]
      rfl

theorem render_eq_ok {blocks : List Block} {config : Config} {rendered : Rendered}
    (h : render blocks config = .ok rendered) : ∃ ds nodes,
      (styleBlocks blocks).mapM declaration = .ok ds ∧
      (paragraphBlocks blocks).mapM (ofDeclarations config.defaultStyle ds).layout = .ok nodes ∧
      rendered = ⟨documentOf config ds nodes, warningsOf blocks config ds⟩ := by
  rw [render_eq] at h
  obtain ⟨ds, hds, h⟩ := bind_eq_ok.mp h
  obtain ⟨nodes, hn, h⟩ := map_eq_ok.mp h
  exact ⟨ds, nodes, hds, hn, h.symm⟩

theorem render_eq_error {blocks : List Block} {config : Config} {e : Error}
    (h : render blocks config = .error e) :
    (∃ b ∈ styleBlocks blocks, Descriptor.ofBlock b = .error e) ∨
      ∃ ds, ∃ b ∈ paragraphBlocks blocks,
        (ofDeclarations config.defaultStyle ds).styleOf b = .error e := by
  rw [render_eq] at h
  rcases bind_eq_error.mp h with h | ⟨ds, -, h⟩
  · obtain ⟨b, hb, he⟩ := mapM_eq_error h
    exact Or.inl ⟨b, hb, map_eq_error.mp he⟩
  · obtain ⟨b, hb, he⟩ := mapM_eq_error (map_eq_error.mp h)
    exact Or.inr ⟨ds, b, hb, map_eq_error.mp he⟩

end SheetMarkup
