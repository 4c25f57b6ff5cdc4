import Mathlib.Logic.Relation
import SheetMarkup.Proofs.Docx.RoundTrip

/-!
# Inheritance in a package

A style without a parent of its own is based on the default style. Such links close a circle where
the default style itself inherits, over declared parents, from a style without one, and nowhere
else.

* `Inherits`, `IsRoot`: the declared parents, and the styles without one;
* `BasedOn`, **`basedOn_iff`**: the links that are written, as a reader finds them;
* `declared_or_root`: a way along written links, up to its first link to the default style;
* **`acyclic_basedOn_iff`**: when there are no circles in what is written.
-/

namespace SheetMarkup.Docx

open Xml Relation

/-! ## Links -/

/-- No way along the links leads back to where it starts. -/
def Acyclic (link : String → String → Prop) : Prop := ∀ a, ¬ TransGen link a a

theorem acyclic_of_rank {link : String → String → Prop} (rank : String → Nat)
    (h : ∀ a b, link a b → rank a < rank b) : Acyclic link := by
  intro a ha
  have hlt : ∀ b, TransGen link a b → rank a < rank b := by
    intro b hb
    induction hb with
    | single hl => exact h _ _ hl
    | tail _ hl ih => exact ih.trans (h _ _ hl)
  exact (hlt a ha).false

/-- A style has another one as its parent. -/
def Inherits (d : Document) (a b : String) : Prop :=
  ∃ s ∈ d.styles, s.id = a ∧ s.parent = some b ∧ b ≠ a

/-- A style, other than the default style, without a parent other than itself. -/
def IsRoot (d : Document) (a : String) : Prop :=
  ∃ s ∈ d.styles, s.id = a ∧ a ≠ d.defaultStyle ∧ ∀ b, s.parent = some b → b = a

theorem inherits_iff {d : Document} {a b : String} :
    Inherits d a b ↔ (a, some b) ∈ d.styles.map (fun s => (s.id, s.parent)) ∧ b ≠ a := by
  constructor
  · rintro ⟨s, hs, rfl, hp, hne⟩
    exact ⟨List.mem_map.mpr ⟨s, hs, by rw [hp]⟩, hne⟩
  · rintro ⟨hm, hne⟩
    obtain ⟨s, hs, he⟩ := List.mem_map.mp hm
    obtain ⟨rfl, hp⟩ := Prod.mk.inj he
    exact ⟨s, hs, rfl, hp, hne⟩

theorem isRoot_iff {d : Document} {a : String} : IsRoot d a ↔
    ∃ parent, (a, parent) ∈ d.styles.map (fun s => (s.id, s.parent)) ∧ a ≠ d.defaultStyle ∧
      ∀ b, parent = some b → b = a := by
  constructor
  · rintro ⟨s, hs, rfl, hne, hself⟩
    exact ⟨s.parent, List.mem_map_of_mem hs, hne, hself⟩
  · rintro ⟨parent, hm, hne, hself⟩
    obtain ⟨s, hs, he⟩ := List.mem_map.mp hm
    obtain ⟨rfl, rfl⟩ := Prod.mk.inj he
    exact ⟨s, hs, rfl, hne, hself⟩

/-- A style of a part is based on another one. -/
def BasedOn (r : Reading) (a b : String) : Prop :=
  ∃ i ∈ r.named "w:style", i.value? "w:styleId" = some a ∧ some b ∈ i.values "w:basedOn" "w:val"

/-! ## The links that are written -/

theorem basedOn?_eq_some_iff {defaultId b : String} {s : Descriptor} :
    basedOn? defaultId s = some b ↔ (s.parent = some b ∧ b ≠ s.id) ∨
      (s.id ≠ defaultId ∧ (∀ p, s.parent = some p → p = s.id) ∧ b = defaultId) := by
  unfold basedOn?
  split
  · next parent hp =>
    obtain ⟨hparent, hne⟩ := Option.filter_eq_some_iff.mp hp
    rw [bne_iff_ne] at hne
    constructor
    · rintro ⟨⟩
      exact Or.inl ⟨hparent, hne⟩
    · rintro (⟨hb, -⟩ | ⟨-, hself, -⟩)
      · rw [← hparent, hb]
      · exact absurd (hself parent hparent) hne
  · next hp =>
    have hself : ∀ p, s.parent = some p → p = s.id := by
      intro p hs
      simpa using Option.filter_eq_none_iff.mp hp p hs
    by_cases hd : s.id = defaultId
    · rw [if_pos (beq_iff_eq.mpr hd)]
      constructor
      · rintro ⟨⟩
      · rintro (⟨hb, hne⟩ | ⟨hne, -⟩)
        · exact absurd (hself b hb) hne
        · exact absurd hd hne
    · rw [if_neg (mt beq_iff_eq.mp hd)]
      constructor
      · rintro ⟨⟩
        exact Or.inr ⟨hd, hself, rfl⟩
      · rintro (⟨hb, hne⟩ | ⟨-, -, rfl⟩)
        · exact absurd (hself b hb) hne
        · rfl

theorem exists_mem_iff_of_forall₂ {α β : Type} {R : α → β → Prop} {P : α → Prop} {Q : β → Prop}
    {xs : List α} {ys : List β} (h : List.Forall₂ R xs ys) (hpq : ∀ x y, R x y → (P x ↔ Q y)) :
    (∃ x ∈ xs, P x) ↔ ∃ y ∈ ys, Q y := by
  induction h with
  | nil => simp
  | cons hxy _ ih => rw [List.exists_mem_cons_iff, List.exists_mem_cons_iff, ih, hpq _ _ hxy]

/-- **The links that a reader finds** are the declared ones, and one from every root to the default
style. -/
theorem basedOn_iff {d : Document} {r : Reading} (h : StylesRead d r) {a b : String} :
    BasedOn r a b ↔ Inherits d a b ∨ (IsRoot d a ∧ b = d.defaultStyle) := by
  have hread : BasedOn r a b ↔ ∃ s ∈ packageStyles d, s.id = a ∧
      basedOn? d.defaultStyle s = some b := by
    rw [packageStyles_eq]
    refine exists_mem_iff_of_forall₂ h.styles fun i s hi => ?_
    rw [hi.id, hi.basedOn, Option.some_inj, List.mem_map_of_injective (Option.some_injective _),
      Option.mem_toList]
  have hstyles : ∀ s ∈ d.styles, s ∈ packageStyles d := by
    intro s hs
    rw [packageStyles_eq]
    exact List.mem_append_right _ hs
  rw [hread]
  constructor
  · rintro ⟨s, hs, rfl, hb⟩
    rcases basedOn?_eq_some_iff.mp hb with ⟨hp, hne⟩ | ⟨hd, hself, rfl⟩
    · exact Or.inl ⟨s, mem_styles_of_mem_packageStyles hs hp, rfl, hp, hne⟩
    · refine Or.inr ⟨⟨s, ?_, rfl, hd, hself⟩, rfl⟩
      rw [packageStyles_eq, List.mem_append] at hs
      refine hs.resolve_left fun hm => hd ?_
      split_ifs at hm
      · cases hm
      · rw [List.mem_singleton.mp hm]
        rfl
  · rintro (⟨s, hs, rfl, hp, hne⟩ | ⟨⟨s, hs, rfl, hd, hself⟩, rfl⟩)
    · exact ⟨s, hstyles s hs, rfl, basedOn?_eq_some_iff.mpr (Or.inl ⟨hp, hne⟩)⟩
    · exact ⟨s, hstyles s hs, rfl, basedOn?_eq_some_iff.mpr (Or.inr ⟨hd, hself, rfl⟩)⟩

/-! ## Circles -/

section Circles

variable {declared written : String → String → Prop} {root : String → Prop} {top : String}
  (h : ∀ a b, written a b ↔ declared a b ∨ (root a ∧ b = top))

include h

/-- A way along written links is one along declared links, or it takes these up to a root, and then
goes on from the top. -/
theorem declared_or_root {a b : String} (hab : TransGen written a b) : TransGen declared a b ∨
    ∃ c, root c ∧ ReflTransGen declared a c ∧ ReflTransGen written top b := by
  induction hab using TransGen.head_induction_on with
  | single hl =>
    rcases (h _ _).mp hl with hd | ⟨hr, rfl⟩
    · exact Or.inl (.single hd)
    · exact Or.inr ⟨_, hr, .refl, .refl⟩
  | head hl hrest ih =>
    rcases (h _ _).mp hl with hd | ⟨hr, rfl⟩
    · rcases ih with ih | ⟨c, hr, hc, hb⟩
      · exact Or.inl (.head hd ih)
      · exact Or.inr ⟨c, hr, .head hd hc, hb⟩
    · exact Or.inr ⟨_, hr, .refl, hrest.to_reflTransGen⟩

/-- **There are no circles** just when no declared way leads from the top to a root. -/
theorem acyclic_iff (hd : Acyclic declared) (htop : ¬ root top) :
    Acyclic written ↔ ∀ c, root c → ¬ TransGen declared top c := by
  have hmono : ∀ a b, declared a b → written a b := fun a b hab => (h a b).mpr (Or.inl hab)
  constructor
  · intro hw c hr hc
    exact hw top ((TransGen.mono hmono top c hc).tail ((h c top).mpr (Or.inr ⟨hr, rfl⟩)))
  · intro hroots a ha
    -- a root that is reached from the top is not the top itself
    have hreach : ∀ c, root c → ¬ ReflTransGen declared top c := by
      intro c hr hc
      rcases reflTransGen_iff_eq_or_transGen.mp hc with rfl | hc
      · exact htop hr
      · exact hroots c hr hc
    rcases declared_or_root h ha with ha | ⟨c, hr, hac, hta⟩
    · exact hd a ha
    · rcases reflTransGen_iff_eq_or_transGen.mp hta with rfl | hta
      · exact hreach c hr hac
      · rcases declared_or_root h hta with hta | ⟨c', hr', hc', -⟩
        · exact hreach c hr (hta.to_reflTransGen.trans hac)
        · exact hreach c' hr' hc'

end Circles

theorem acyclic_of_stylesRead {d : Document} {r : Reading} (h : StylesRead d r)
    (hd : Acyclic (Inherits d)) : Acyclic (BasedOn r) ↔
      ∀ a, IsRoot d a → ¬ TransGen (Inherits d) d.defaultStyle a := by
  refine acyclic_iff (fun a b => basedOn_iff h) hd ?_
  rintro ⟨s, -, -, hne, -⟩
  exact hne rfl

/-- **When the styles of a package are without circles:** unless declared parents lead from the
default style to a style without a parent. -/
theorem acyclic_basedOn_iff {blocks : List Block} {config : Config} {rendered : Rendered}
    {media : Media} {parts : List Part} (hr : render blocks config = .ok rendered)
    (hw : package rendered.document media = .ok parts)
    (hd : Acyclic (Inherits rendered.document)) : ∃ styles,
      markup? parts "word/styles.xml" = some styles ∧ (events styles).complete = true ∧
      (Acyclic (BasedOn (events styles)) ↔ ∀ a, IsRoot rendered.document a →
        ¬ TransGen (Inherits rendered.document) rendered.document.defaultStyle a) := by
  obtain ⟨styles, hstyles, hread⟩ := stylesRead_of_package hr hw
  exact ⟨styles, hstyles, hread.complete, acyclic_of_stylesRead hread hd⟩

/-- A default style with a parent that has an unknown parent, and a style without one. -/
def heirOfUnknownScript : List Block :=
  [⟨.style, [⟨"name", "Normal", none⟩, ⟨"parent", "base", none⟩], [], none⟩,
    ⟨.style, [⟨"name", "Base", none⟩, ⟨"parent", "ghost", none⟩], [], none⟩,
    ⟨.style, [⟨"name", "Note", none⟩], [], none⟩]

theorem acyclic_basedOn_iff_heirOfUnknownScript : ∃ rendered parts,
    render heirOfUnknownScript {} = .ok rendered ∧ package rendered.document {} = .ok parts ∧
    Acyclic (Inherits rendered.document) ∧ ∃ styles,
      markup? parts "word/styles.xml" = some styles ∧ (events styles).complete = true ∧
      (Acyclic (BasedOn (events styles)) ↔ ∀ a, IsRoot rendered.document a →
        ¬ TransGen (Inherits rendered.document) rendered.document.defaultStyle a) := by
  have h : ((render heirOfUnknownScript {}).map fun r => (r.document.styles.map fun s =>
      (s.id, s.parent), (package r.document {}).isOk)) =
        .ok ([("Normal", some "Base"), ("Base", some "Ghost"), ("Note", none)], true) := by
    decide +kernel
  obtain ⟨rendered, hr, hs⟩ := Outcome.map_eq_ok.mp h
  obtain ⟨hstyles, hp⟩ := Prod.mk.inj hs
  obtain ⟨parts, hw⟩ := Outcome.exists_of_isOk hp
  have hd : Acyclic (Inherits rendered.document) := by
    refine acyclic_of_rank (fun id => ["Normal", "Base"].idxOf id) fun a b hab => ?_
    rw [inherits_iff, hstyles] at hab
    simp only [List.mem_cons, Prod.mk.injEq, Option.some.injEq, reduceCtorEq, and_false,
      List.not_mem_nil, or_false] at hab
    rcases hab with ⟨⟨rfl, rfl⟩ | ⟨rfl, rfl⟩, -⟩ <;> decide
  exact ⟨rendered, parts, hr, hw, hd, acyclic_basedOn_iff hr hw hd⟩

/-- A default style with a parent that has none. -/
def circleScript : List Block :=
  [⟨.style, [⟨"name", "Normal", none⟩, ⟨"parent", "base", none⟩], [], none⟩,
    ⟨.style, [⟨"name", "Base", none⟩], [], none⟩,
    ⟨.paragraph, [], [.text "x"], none⟩]

/-- The declared parents of a sheet are without circles, and the styles that are written are not. -/
theorem cyclic_basedOn_circleScript : ∃ rendered parts styles,
    render circleScript {} = .ok rendered ∧ package rendered.document {} = .ok parts ∧
    markup? parts "word/styles.xml" = some styles ∧ Acyclic (Inherits rendered.document) ∧
    BasedOn (events styles) "Normal" "Base" ∧ BasedOn (events styles) "Base" "Normal" ∧
    ¬ Acyclic (BasedOn (events styles)) := by
  have h : ((render circleScript {}).map fun r => ((r.document.defaultStyle,
      r.document.styles.map fun s => (s.id, s.parent)), (package r.document {}).isOk)) =
        .ok (("Normal", [("Normal", some "Base"), ("Base", none)]), true) := by
    decide +kernel
  obtain ⟨rendered, hr, hs⟩ := Outcome.map_eq_ok.mp h
  obtain ⟨hs, hp⟩ := Prod.mk.inj hs
  obtain ⟨hdefault, hstyles⟩ := Prod.mk.inj hs
  obtain ⟨parts, hw⟩ := Outcome.exists_of_isOk hp
  obtain ⟨styles, hpart, hread⟩ := stylesRead_of_package hr hw
  have hd : Acyclic (Inherits rendered.document) := by
    refine acyclic_of_rank (fun id => ["Normal"].idxOf id) fun a b hab => ?_
    rw [inherits_iff, hstyles] at hab
    simp only [List.mem_cons, Prod.mk.injEq, Option.some.injEq, reduceCtorEq, and_false,
      List.not_mem_nil, or_false] at hab
    obtain ⟨⟨rfl, rfl⟩, -⟩ := hab
    decide
  have hdown : BasedOn (events styles) "Normal" "Base" := by
    rw [basedOn_iff hread, inherits_iff, hstyles]
    exact Or.inl (by decide)
  have hup : BasedOn (events styles) "Base" "Normal" := by
    rw [basedOn_iff hread, isRoot_iff, hstyles, hdefault]
    exact Or.inr ⟨⟨none, by simp⟩, rfl⟩
  exact ⟨rendered, parts, styles, hr, hw, hpart, hd, hdown, hup,
    fun hacyclic => hacyclic "Normal" (.tail (.single hdown) hup)⟩

end SheetMarkup.Docx
