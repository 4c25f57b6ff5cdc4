import Mathlib.Data.List.Nodup
import SheetMarkup.Proofs.Document.Closure
import SheetMarkup.Proofs.Docx.Markup
import SheetMarkup.Proofs.Docx.Pictures

/-!
# Style references in a package

The two parts of a package that name styles agree: what the document and the styles refer to is
declared in the styles, once.

* `markup?`, `markup?_of_package`: the parts of a package by name;
* `mem_ids_packageStyles`, `nodup_ids_packageStyles`: the identifiers of the styles that are
  written;
* `basedOn?_cases`: what a style is based on;
* `StylesClosed`, **`style_closure`**: the references, as a reader of the parts finds them.
-/

namespace SheetMarkup.Docx

open Xml

/-! ## Parts -/

/-- The markup of the part of a name. -/
def markup? (parts : List Part) (name : String) : Option String :=
  (parts.find? (·.name == name)).bind fun p =>
    match p.content with
    | .markup text => some text
    | .data _ => none

variable {d : Document} {media : Media} {parts : List Part}

theorem markup?_of_package (h : package d media = .ok parts) : ∃ pictures,
    markup? parts "word/document.xml" = some (documentText (documentPart d pictures)) ∧
      markup? parts "word/styles.xml" = some (documentText (stylesPart d)) := by
  obtain ⟨pictures, -, -, rfl⟩ := package_eq_ok.mp h
  exact ⟨pictures, by simp [markup?, partsOf], by simp [markup?, partsOf]⟩

/-! ## The styles that are written -/

/-- The identifiers that are written are those that the document knows. -/
theorem mem_ids_packageStyles {id : String} :
    id ∈ (packageStyles d).map Descriptor.id ↔ d.Knows id := by
  unfold packageStyles Document.Knows
  by_cases h : (d.styles.any (·.id == d.defaultStyle)) = true
  · have hm : d.defaultStyle ∈ d.styles.map Descriptor.id := by simpa using h
    rw [if_pos h, or_iff_right_of_imp fun e => e ▸ hm]
  · rw [if_neg h, List.map_cons, List.mem_cons]
    rfl

theorem nodup_ids_packageStyles (h : (d.styles.map Descriptor.id).Nodup) :
    ((packageStyles d).map Descriptor.id).Nodup := by
  unfold packageStyles
  split_ifs with hd
  · exact h
  · refine List.nodup_cons.mpr ⟨fun hm => hd ?_, h⟩
    simpa [builtinStyle] using hm

theorem mem_styles_of_mem_packageStyles {s : Descriptor} (h : s ∈ packageStyles d) {parent : String}
    (hp : s.parent = some parent) : s ∈ d.styles := by
  unfold packageStyles at h
  split_ifs at h
  · exact h
  · rcases List.mem_cons.mp h with rfl | h
    · cases hp
    · exact h

theorem basedOn?_cases {s : Descriptor} {id : String} (h : basedOn? d.defaultStyle s = some id) :
    d.Knows id ∨ s.parent = some id := by
  unfold basedOn? at h
  split at h
  · next parent hp =>
    cases h
    exact Or.inr (Option.filter_eq_some_iff.mp hp).1
  · split_ifs at h
    cases h
    exact Or.inl (Or.inl rfl)

theorem filter_default_packageStyles (h : (d.styles.map Descriptor.id).Nodup) :
    ((packageStyles d).filter fun s => s.id = d.defaultStyle).map Descriptor.id =
      [d.defaultStyle] := by
  have hm : d.defaultStyle ∈ (packageStyles d).map Descriptor.id :=
    mem_ids_packageStyles.mpr (Or.inl rfl)
  have hf : ((packageStyles d).filter fun s => s.id = d.defaultStyle).map Descriptor.id =
      ((packageStyles d).map Descriptor.id).filter fun id => id = d.defaultStyle := by
    rw [List.filter_map]
    rfl
  rw [hf, List.filter_eq, List.count_eq_one_of_mem (nodup_ids_packageStyles h) hm]
  rfl

/-! ## References -/

/-- The references to styles in the two parts of a package, as a reader finds them. -/
structure StylesClosed (rendered : Rendered) (document styles : Reading) : Prop where
  /-- Every paragraph refers to exactly one style. -/
  paragraph : ∀ v ∈ document.values "w:pStyle" "w:val",
    v.isSome = true ∧ (styles.values "w:style" "w:styleId").count v = 1
  /-- So does what follows a style. -/
  next : ∀ v ∈ styles.values "w:next" "w:val",
    v.isSome = true ∧ (styles.values "w:style" "w:styleId").count v = 1
  /-- Every style has an identifier of its own. -/
  distinct : (∀ v ∈ styles.values "w:style" "w:styleId", v.isSome = true) ∧
    (styles.values "w:style" "w:styleId").Nodup
  /-- Exactly one style is marked as the default style, and it is that of the document. -/
  default : ((styles.elements "w:style").filter fun t => t.value? "w:default" = some "1").map
    (fun t => t.value? "w:styleId") = [some rendered.document.defaultStyle]
  /-- A style is based on a style that is there, or on a parent that there is a warning about. -/
  basedOn : ∀ v ∈ styles.values "w:basedOn" "w:val", ∃ id, v = some id ∧
    (v ∈ styles.values "w:style" "w:styleId" ∨ ∃ s ∈ rendered.document.styles,
      s.parent = some id ∧ ∃ w ∈ rendered.warnings, w.doubt = .unknownParent s.id id)

section References

variable (d)

theorem values_pStyle (pictures : List Picture) :
    (events (documentText (documentPart d pictures))).values "w:pStyle" "w:val" =
      d.nodes.map fun n => some n.style := by
  rw [Reading.values, elements_documentText (sound_documentPart d pictures),
    named_pStyle_documentPart, List.map_map]
  exact List.map_congr_left fun n _ => value?_valuedTag "w:pStyle" n.style

variable {d} (h : (stylesPart d).Sound)

include h

theorem values_styleId :
    (events (documentText (stylesPart d))).values "w:style" "w:styleId" =
      ((packageStyles d).map Descriptor.id).map some := by
  rw [Reading.values, elements_documentText h, named_style_stylesPart, List.map_map, List.map_map]
  exact List.map_congr_left fun s _ => value?_styleId d.defaultStyle s

theorem values_next : ∀ v ∈ (events (documentText (stylesPart d))).values "w:next" "w:val",
    v = some d.defaultStyle := by
  rw [Reading.values, elements_documentText h, named_next_stylesPart, List.map_map]
  intro v hv
  obtain ⟨s, -, rfl⟩ := List.mem_map.mp hv
  exact value?_valuedTag "w:next" d.defaultStyle

theorem values_basedOn {v : Option String}
    (hv : v ∈ (events (documentText (stylesPart d))).values "w:basedOn" "w:val") :
    ∃ s ∈ packageStyles d, ∃ id, basedOn? d.defaultStyle s = some id ∧ v = some id := by
  rw [Reading.values, elements_documentText h, named_basedOn_stylesPart] at hv
  obtain ⟨t, ht, rfl⟩ := List.mem_map.mp hv
  obtain ⟨s, hs, ht⟩ := List.mem_flatMap.mp ht
  obtain ⟨id, hid, rfl⟩ := List.mem_map.mp ht
  exact ⟨s, hs, id, Option.mem_toList.mp hid, value?_valuedTag "w:basedOn" id⟩

theorem elements_default :
    (((events (documentText (stylesPart d))).elements "w:style").filter fun t =>
      t.value? "w:default" = some "1").map (fun t => t.value? "w:styleId") =
        (((packageStyles d).filter fun s => s.id = d.defaultStyle).map Descriptor.id).map some := by
  rw [elements_documentText h, named_style_stylesPart, List.filter_map, List.map_map, List.map_map]
  have hp : ((fun t : Tag => decide (t.value? "w:default" = some "1")) ∘ styleTag d.defaultStyle) =
      fun s => decide (s.id = d.defaultStyle) := by
    funext s
    rw [Function.comp_apply, value?_default]
    by_cases hs : s.id = d.defaultStyle <;> simp [hs]
  rw [hp]
  exact List.map_congr_left fun s _ => value?_styleId d.defaultStyle s

theorem count_styleId (hn : (d.styles.map Descriptor.id).Nodup) {id : String} (hk : d.Knows id) :
    ((events (documentText (stylesPart d))).values "w:style" "w:styleId").count (some id) = 1 := by
  rw [values_styleId h]
  refine List.count_eq_one_of_mem ?_ (List.mem_map_of_mem (mem_ids_packageStyles.mpr hk))
  exact (nodup_ids_packageStyles hn).map (Option.some_injective String)

end References

/-- **The style references of a package are closed.** All of them lead to styles, except to parents
that there is a warning about. -/
theorem style_closure {blocks : List Block} {config : Config} {rendered : Rendered}
    {media : Media} {parts : List Part} (hr : render blocks config = .ok rendered)
    (hw : package rendered.document media = .ok parts) : ∃ document styles,
      markup? parts "word/document.xml" = some document ∧
      markup? parts "word/styles.xml" = some styles ∧
      (events document).complete = true ∧ (events styles).complete = true ∧
      StylesClosed rendered (events document) (events styles) := by
  have hclosed := closed_of_render hr
  have hsound : (stylesPart rendered.document).Sound :=
    sound_stylesPart fun s hs => (hclosed.sound s hs).color
  obtain ⟨pictures, hdocument, hstyles⟩ := markup?_of_package hw
  refine ⟨_, _, hdocument, hstyles, ?_, ?_, ?_⟩
  · rw [events_documentText (sound_documentPart rendered.document pictures)]
  · rw [events_documentText hsound]
  have hcount {id : String} (hk : rendered.document.Knows id) :=
    count_styleId hsound hclosed.nodup hk
  refine ⟨fun v hv => ?_, fun v hv => ?_, ⟨fun v hv => ?_, ?_⟩, ?_, fun v hv => ?_⟩
  · rw [values_pStyle] at hv
    obtain ⟨n, hn, rfl⟩ := List.mem_map.mp hv
    exact ⟨rfl, hcount (hclosed.nodes n hn)⟩
  · rw [values_next hsound v hv]
    exact ⟨rfl, hcount (Or.inl rfl)⟩
  · rw [values_styleId hsound] at hv
    obtain ⟨id, -, rfl⟩ := List.mem_map.mp hv
    rfl
  · rw [values_styleId hsound]
    exact (nodup_ids_packageStyles hclosed.nodup).map (Option.some_injective String)
  · rw [elements_default hsound, filter_default_packageStyles hclosed.nodup]
    rfl
  · obtain ⟨s, hs, id, hb, rfl⟩ := values_basedOn hsound hv
    refine ⟨id, rfl, ?_⟩
    have hknown : rendered.document.Knows id ∨ ∃ s ∈ rendered.document.styles,
        s.parent = some id ∧ ∃ w ∈ rendered.warnings, w.doubt = .unknownParent s.id id := by
      -- the default style is known, and an own parent is known or warned about
      rcases basedOn?_cases hb with hk | hp
      · exact Or.inl hk
      · have hm := mem_styles_of_mem_packageStyles hs hp
        exact (knows_parent_or_warning hr hm hp).imp_right fun hw => ⟨s, hm, hp, hw⟩
    refine hknown.imp_left fun hk => ?_
    rw [values_styleId hsound]
    exact List.mem_map_of_mem (mem_ids_packageStyles.mpr hk)

/-- A script with a style that inherits from an unknown one, and a name that must be escaped. -/
def heirScript : List Block :=
  [⟨.style, [⟨"name", "Big", none⟩, ⟨"parent", "gone", none⟩], [], none⟩,
    ⟨.paragraph, [⟨"style", "B & <i>", none⟩], [.text "1 < 2", .text ""], none⟩,
    ⟨.style, [⟨"name", "B & <I>", none⟩, ⟨"parent", "big", none⟩], [], none⟩,
    ⟨.paragraph, [], [.text "plain"], none⟩]

theorem style_closure_heirScript : ∃ rendered parts, render heirScript {} = .ok rendered ∧
    package rendered.document {} = .ok parts ∧
    rendered.document.nodes.map Node.style = ["BI", "BI", "Normal"] ∧
    ∃ document styles, markup? parts "word/document.xml" = some document ∧
      markup? parts "word/styles.xml" = some styles ∧
      (events document).complete = true ∧ (events styles).complete = true ∧
      StylesClosed rendered (events document) (events styles) := by
  have h : ((render heirScript {}).map fun r => (r.document.nodes.map Node.style,
      (package r.document {}).isOk)) = .ok (["BI", "BI", "Normal"], true) := by
    decide +kernel
  obtain ⟨rendered, hr, hd⟩ := Outcome.map_eq_ok.mp h
  obtain ⟨hnodes, hp⟩ := Prod.mk.inj hd
  obtain ⟨parts, hw⟩ := Outcome.exists_of_isOk hp
  exact ⟨rendered, parts, hr, hw, hnodes, style_closure hr hw⟩

end SheetMarkup.Docx
