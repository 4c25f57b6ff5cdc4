import SheetMarkup.Proofs.Docx.Paragraphs
import SheetMarkup.Proofs.Docx.StyleClosure
import SheetMarkup.Proofs.Docx.StyleEntries

/-!
# Packages read back

A reader of a package finds the document in it again: its nodes in the one part, its styles in the
other. Whatever stands in texts, names, fonts and sources, no element comes or goes with it.

* `DocumentRead`, `documentRead_documentPart`: the nodes of a document, as they are read;
* `StylesRead`, `stylesRead_stylesPart`, `stylesRead_of_package`: its styles;
* **`package_read_back`**: both, for every package of a rendered document.
-/

namespace SheetMarkup.Docx

open Xml

/-! ## The two parts -/

/-- The content of a document, as a reader of the part finds it. -/
structure DocumentRead (d : Document) (r : Reading) : Prop where
  complete : r.complete = true
  /-- One paragraph for every node, in order. -/
  paragraphs : List.Forall₂ Shows (r.named "w:p") d.nodes
  /-- All elements there are. -/
  shapes : r.shapes = [documentShape (d.nodes.map lineCount?)]

/-- The styles of a document, as a reader of the part finds them. -/
structure StylesRead (d : Document) (r : Reading) : Prop where
  complete : r.complete = true
  /-- The default style, if the document does not declare it, and one style for every declared
  one, in order. -/
  styles : List.Forall₂ (Describes d.defaultStyle) (r.named "w:style")
    ((if d.defaultStyle ∈ d.styles.map Descriptor.id then [] else [builtinStyle d.defaultStyle]) ++
      d.styles)
  /-- All elements there are. -/
  shapes : r.shapes = [stylesShape ((packageStyles d).map fun s =>
    (s.id == d.defaultStyle, (basedOn? d.defaultStyle s).isSome))]

variable {d : Document} {media : Media} {pictures : List Picture}

theorem documentRead_documentPart (h : collect d media = .ok pictures) :
    DocumentRead d (events (documentText (documentPart d pictures))) := by
  have hsound := sound_documentPart d pictures
  have hitems := items_documentText hsound
  refine ⟨?_, ?_, ?_⟩
  · rw [events_documentText hsound]
  · rw [Reading.named, hitems, named_p_documentPart]
    exact forall₂_shows pictures 1 d.nodes
  · rw [Reading.shapes, hitems, items_shapes hsound]
    exact shapes_documentPart fun style source hn => isSome_find?_of_collect h hn

theorem packageStyles_eq (d : Document) : packageStyles d =
    (if d.defaultStyle ∈ d.styles.map Descriptor.id then [] else [builtinStyle d.defaultStyle]) ++
      d.styles := by
  unfold packageStyles
  by_cases h : d.defaultStyle ∈ d.styles.map Descriptor.id
  · rw [if_pos h, if_pos (by simpa using h), List.nil_append]
  · rw [if_neg h, if_neg (by simpa using h), List.singleton_append]

theorem stylesRead_stylesPart (h : ∀ s ∈ d.styles, isHexColor s.color.toList = true) :
    StylesRead d (events (documentText (stylesPart d))) := by
  have hsound := sound_stylesPart h
  have hitems := items_documentText hsound
  refine ⟨?_, ?_, ?_⟩
  · rw [events_documentText hsound]
  · rw [Reading.named, hitems, ← packageStyles_eq]
    exact forall₂_describes h
  · rw [Reading.shapes, hitems, items_shapes hsound, shapes_stylesPart]

theorem stylesRead_of_package {blocks : List Block} {config : Config} {rendered : Rendered}
    {media : Media} {parts : List Part} (hr : render blocks config = .ok rendered)
    (hw : package rendered.document media = .ok parts) : ∃ styles,
      markup? parts "word/styles.xml" = some styles ∧
      StylesRead rendered.document (events styles) := by
  have hclosed := closed_of_render hr
  obtain ⟨pictures, -, hstyles⟩ := markup?_of_package hw
  refine ⟨_, hstyles, stylesRead_stylesPart fun s hs => ?_⟩
  exact (hclosed.sound s hs).color

/-- **A package is read back as its document**, and the shapes of its elements depend on none of its
texts. -/
theorem package_read_back {blocks : List Block} {config : Config} {rendered : Rendered}
    {media : Media} {parts : List Part} (hr : render blocks config = .ok rendered)
    (hw : package rendered.document media = .ok parts) : ∃ document styles,
      markup? parts "word/document.xml" = some document ∧
      markup? parts "word/styles.xml" = some styles ∧
      DocumentRead rendered.document (events document) ∧
      StylesRead rendered.document (events styles) := by
  obtain ⟨styles, hstyles, hread⟩ := stylesRead_of_package hr hw
  obtain ⟨pictures, hc, -, rfl⟩ := package_eq_ok.mp hw
  exact ⟨_, styles, by simp [markup?, partsOf], hstyles, documentRead_documentPart hc, hread⟩

/-- A script whose texts, names, fonts and sources look like markup. -/
def trickyScript : List Block :=
  [⟨.style, [⟨"name", "A\" w:default=\"1", none⟩, ⟨"font", "\"/><w:b/>", none⟩], [], none⟩,
    ⟨.paragraph, [⟨"style", "a\" w:default=\"1", none⟩],
      [.text "</w:t><w:br/>\r\r\n\r&lt;\r", .text "", .image "a/<&>.gif", .text "\n"], none⟩]

/-- A store with one image. -/
def trickyMedia : Media :=
  { embedded := [("a/<&>.gif", ⟨#[0x47, 0x49, 0x46, 0x38]⟩)] }

theorem package_read_back_trickyScript : ∃ rendered parts,
    render trickyScript {} = .ok rendered ∧ package rendered.document trickyMedia = .ok parts ∧
    rendered.document.nodes.map lineCount? = [some 2, some 0, none, some 2] ∧
    ∃ document styles, markup? parts "word/document.xml" = some document ∧
      markup? parts "word/styles.xml" = some styles ∧
      DocumentRead rendered.document (events document) ∧
      StylesRead rendered.document (events styles) := by
  have h : ((render trickyScript {}).map fun r => (r.document.nodes.map lineCount?,
      (package r.document trickyMedia).isOk)) = .ok ([some 2, some 0, none, some 2], true) := by
    decide +kernel
  obtain ⟨rendered, hr, hd⟩ := Outcome.map_eq_ok.mp h
  obtain ⟨hcounts, hp⟩ := Prod.mk.inj hd
  obtain ⟨parts, hw⟩ := Outcome.exists_of_isOk hp
  exact ⟨rendered, parts, hr, hw, hcounts, package_read_back hr hw⟩

end SheetMarkup.Docx
