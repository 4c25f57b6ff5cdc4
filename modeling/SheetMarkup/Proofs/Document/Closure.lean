import SheetMarkup.Proofs.Document.Content
import SheetMarkup.Proofs.Document.Registry

/-!
# Rendered documents are closed

All styles that a rendered document refers to are known: those of its nodes are declared or the
default style, and a parent that is not has given a warning.

* `Document.Knows`: the identifiers that a document knows;
* `exists_block_of_mem_styles`: the blocks that the styles of a document are read from;
* `Document.Closed`, **`closed_of_render`**: what every rendered document is like;
* **`knows_parent_or_warning`**: a parent is known, or there is a warning about it.
-/

namespace SheetMarkup

open Outcome Registry

/-- The identifier is that of the default style or of a declared one. -/
def Document.Knows (d : Document) (id : String) : Prop :=
  id = d.defaultStyle ∨ id ∈ d.styles.map Descriptor.id

/-- What every rendered document is like. -/
structure Document.Closed (d : Document) : Prop where
  sound : ∀ s ∈ d.styles, s.Sound
  nodup : (d.styles.map Descriptor.id).Nodup
  nodes : ∀ n ∈ d.nodes, d.Knows n.style

theorem BodyEntry.style_node (style : String) (entry : BodyEntry) :
    (entry.node style).style = style := by
  cases entry <;> rfl

theorem knows_documentOf {config : Config} {ds : List Declaration} {nodes : List (List Node)}
    {id : String} : (documentOf config ds nodes).Knows id ↔
      (ofDeclarations config.defaultStyle ds).contains id = true := by
  rw [contains_iff, ofDeclarations_defaultId]
  rfl

theorem contains_of_layout {config : Config} {ds : List Declaration} {b : Block}
    {nodes : List Node} (h : (ofDeclarations config.defaultStyle ds).layout b = .ok nodes)
    {n : Node} (hn : n ∈ nodes) :
    (ofDeclarations config.defaultStyle ds).contains n.style = true := by
  obtain ⟨style, hs, rfl⟩ := map_eq_ok.mp h
  obtain ⟨entry, -, rfl⟩ := List.mem_map.mp hn
  rw [BodyEntry.style_node]
  exact (styleOf_eq_ok hs).2

variable {blocks : List Block} {config : Config} {rendered : Rendered}

/-- Every style of a rendered document is read from one of its blocks. -/
theorem exists_block_of_mem_styles (h : render blocks config = .ok rendered) {s : Descriptor}
    (hs : s ∈ rendered.document.styles) : ∃ b ∈ blocks, Descriptor.ofBlock b = .ok s := by
  obtain ⟨ds, nodes, hds, -, rfl⟩ := render_eq_ok h
  obtain ⟨d, hd, rfl⟩ := exists_mem_of_mem_styles hs
  obtain ⟨b, hb, hbd⟩ := exists_of_mem_of_mapM hds hd
  exact ⟨b, (List.mem_filter.mp hb).1, (declaration_eq_ok.mp hbd).1⟩

/-- **A rendered document is closed.** -/
theorem closed_of_render (h : render blocks config = .ok rendered) : rendered.document.Closed := by
  have hblock := fun s => exists_block_of_mem_styles h (s := s)
  obtain ⟨ds, nodes, -, hn, rfl⟩ := render_eq_ok h
  refine ⟨fun s hs => ?_, nodup_ids_ofDeclarations config.defaultStyle ds, fun n hm => ?_⟩
  · obtain ⟨b, -, hb⟩ := hblock s hs
    exact Descriptor.ofBlock_sound hb
  · obtain ⟨ns, hns, hm⟩ := List.mem_flatten.mp hm
    obtain ⟨b, -, hb⟩ := exists_of_mem_of_mapM hn hns
    exact knows_documentOf.mpr (contains_of_layout hb hm)

theorem Document.Closed.forall_node {d : Document} (h : d.Closed) {p : String → Prop}
    (hdefault : p d.defaultStyle) (hstyles : ∀ s ∈ d.styles, p s.id) :
    ∀ n ∈ d.nodes, p n.style := by
  intro n hn
  rcases h.nodes n hn with he | hdeclared
  · exact he ▸ hdefault
  · obtain ⟨s, hs, he⟩ := List.mem_map.mp hdeclared
    exact he ▸ hstyles s hs

/-- **The parent of a style is known, or there is a warning about it.** -/
theorem knows_parent_or_warning (h : render blocks config = .ok rendered) {s : Descriptor}
    (hs : s ∈ rendered.document.styles) {parent : String} (hp : s.parent = some parent) :
    rendered.document.Knows parent ∨
      ∃ w ∈ rendered.warnings, w.doubt = .unknownParent s.id parent := by
  obtain ⟨ds, nodes, hds, hn, rfl⟩ := render_eq_ok h
  by_cases hc : (ofDeclarations config.defaultStyle ds).contains parent = true
  · exact Or.inl (knows_documentOf.mpr hc)
  · obtain ⟨d, hd, rfl⟩ := exists_mem_of_mem_styles hs
    have hw : unknownParent? (ofDeclarations config.defaultStyle ds) d =
        some ⟨.unknownParent d.style.id parent, d.block.origin⟩ := by
      simp [unknownParent?, hp, hc]
    refine Or.inr ⟨⟨.unknownParent d.style.id parent, d.block.origin⟩, ?_, rfl⟩
    change _ ∈ _ ++ ds.filterMap _ ++ _
    exact List.mem_append_left _ (List.mem_append_right _ (List.mem_filterMap.mpr ⟨d, hd, hw⟩))

end SheetMarkup
