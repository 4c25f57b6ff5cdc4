import SheetMarkup.Docx.Package
import SheetMarkup.Proofs.Style.Descriptor
import SheetMarkup.Proofs.Xml.Reading

/-!
# The markup of the parts

The document and the styles of a package are written as trees that can be read back, whatever the
texts, names and sources in them are. Texts of the user are escaped; numbers and colours need not
be.

* `written_decimal`, `written_color`: what is written without escapes;
* **`sound_documentPart`**, **`sound_stylesPart`**: the trees can be read back;
* `named_pStyle_documentPart`: the style references of the document;
* `named_style_stylesPart`, `named_next_stylesPart`, `named_basedOn_stylesPart`: the elements of
  the styles that hold identifiers.
-/

namespace SheetMarkup.Docx

open Xml

/-! ## Values that are written as they are -/

theorem written_decimal (n : Nat) : Written (Text.decimal n) :=
  written_of_plain (all_isPlain_decimal n)

theorem all_isPlain_color {color : String} (h : isHexColor color.toList = true) :
    color.toList.all isPlain = true := by
  have hall := List.all_eq_true.mp (Bool.and_eq_true_iff.mp h).2
  refine List.all_eq_true.mpr fun c hc => ?_
  exact isPlain_of_class (p := fun c => (Text.hexValue? c).isSome) (by decide) (hall c hc)

theorem written_color {color : String} (h : isHexColor color.toList = true) : Written color :=
  written_of_plain (all_isPlain_color h)

theorem all_isPlain_relationId (p : Picture) : p.relationId.toList.all isPlain = true := by
  rw [Picture.relationId, String.toList_append, List.all_append, all_isPlain_decimal,
    Bool.and_true]
  decide

theorem written_relationId (p : Picture) : Written p.relationId :=
  written_of_plain (all_isPlain_relationId p)

/-! ## Small trees -/

theorem soundAttributes_of_keys {attributes : List (String × String)} (keys : List String)
    (h : attributes.map Prod.fst = keys) (hk : areKeys keys = true)
    (hv : ∀ a ∈ attributes, Written a.2) : SoundAttributes attributes :=
  ⟨h ▸ hk, hv⟩

theorem sound_leaf {name : String} {attributes : List (String × String)} (hn : isName name = true)
    (ha : SoundAttributes attributes) : (leaf name attributes).Sound :=
  .element hn ha (by simp)

theorem sound_group {name : String} {children : List Tree} (hn : isName name = true)
    (hc : ∀ t ∈ children, t.Sound) : (group name children).Sound :=
  .element hn (soundAttributes_of_plain (by decide) (by decide)) hc

theorem sound_valued {name value : String} (hn : isName name = true) (hv : Written value) :
    (valued name value).Sound :=
  sound_leaf hn (soundAttributes_of_keys ["w:val"] rfl (by decide) (by simpa using hv))

/-! ## The document -/

theorem mem_intersperse {α : Type} {sep x : α} {xs : List α} (h : x ∈ xs.intersperse sep) :
    x = sep ∨ x ∈ xs := by
  induction xs with
  | nil => cases h
  | cons y ys ih =>
    cases ys with
    | nil => exact Or.inr h
    | cons z zs =>
      rw [List.intersperse_cons_cons, List.mem_cons, List.mem_cons] at h
      rcases h with rfl | rfl | h
      · exact Or.inr (by simp)
      · exact Or.inl rfl
      · exact (ih h).imp_right (List.mem_cons_of_mem y)

theorem sound_textRun (text : String) : ∀ t ∈ textRun text, t.Sound := by
  intro t ht
  unfold textRun at ht
  split_ifs at ht
  · cases ht
  · rw [List.mem_singleton.mp ht]
    refine sound_group (by decide) fun u hu => ?_
    rcases mem_intersperse hu with rfl | hu
    · exact sound_leaf (by decide) (soundAttributes_of_plain (by decide) (by decide))
    · obtain ⟨line, -, rfl⟩ := List.mem_map.mp hu
      exact .data (by decide) (soundAttributes_of_plain (by decide) (by decide)) _

theorem soundAttributes_label (id : Nat) (source : String) :
    SoundAttributes [("id", Text.decimal id), ("name", escape (sourceName source))] :=
  soundAttributes_of_keys ["id", "name"] rfl (by decide) (by simp [written_decimal, written_escape])

theorem soundAttributes_embed (p : Picture) : SoundAttributes [("r:embed", p.relationId)] :=
  soundAttributes_of_keys ["r:embed"] rfl (by decide) (by simp [written_relationId])

theorem sound_drawing (p : Picture) (source : String) (id : Nat) :
    (drawing p source id).Sound := by
  have hsize : SoundAttributes [("cx", Text.decimal p.width), ("cy", Text.decimal p.height)] :=
    soundAttributes_of_keys ["cx", "cy"] rfl (by decide) (by simp [written_decimal])
  unfold drawing
  simp only
  repeat' first
    | exact sound_leaf (by decide) hsize
    | exact sound_leaf (by decide) (soundAttributes_label id source)
    | exact sound_leaf (by decide) (soundAttributes_embed p)
    | exact sound_leaf (by decide) (soundAttributes_of_plain (by decide) (by decide))
    | refine sound_group (by decide) ?_
    | refine Tree.Sound.element (by decide)
        (soundAttributes_of_plain (by decide) (by decide +kernel)) ?_
    | refine List.forall_mem_cons.mpr ⟨?_, ?_⟩
    | exact List.forall_mem_nil _

theorem sound_paragraph {style : String} {content : List Tree} (h : ∀ t ∈ content, t.Sound) :
    (paragraph style content).Sound := by
  refine sound_group (by decide) (List.forall_mem_cons.mpr ⟨?_, h⟩)
  refine sound_group (by decide) (List.forall_mem_singleton.mpr ?_)
  exact sound_valued (by decide) (written_escape style)

theorem sound_paragraphs (pictures : List Picture) (id : Nat) (nodes : List Node) :
    ∀ t ∈ paragraphs pictures id nodes, t.Sound := by
  fun_induction paragraphs pictures id nodes with
  | case1 => simp
  | case2 id style text nodes ih =>
    exact List.forall_mem_cons.mpr ⟨sound_paragraph (sound_textRun text), ih⟩
  | case3 id style source nodes p _ ih =>
    refine List.forall_mem_cons.mpr ⟨sound_paragraph ?_, ih⟩
    exact List.forall_mem_singleton.mpr (sound_drawing p source id)
  | case4 id style source nodes _ ih =>
    exact List.forall_mem_cons.mpr ⟨sound_paragraph (by simp), ih⟩

theorem sound_pageSetup (margin : Nat) : (pageSetup margin).Sound := by
  have hm := written_decimal margin
  have hsize :
      SoundAttributes [("w:w", Text.decimal pageWidth), ("w:h", Text.decimal pageHeight)] :=
    soundAttributes_of_keys ["w:w", "w:h"] rfl (by decide) (by simp [written_decimal])
  have hplain : ∀ s ∈ ["708", "0"], Written s := fun s hs =>
    written_of_plain (List.all_eq_true.mp (by decide : (["708", "0"].all fun s =>
      s.toList.all isPlain) = true) s hs)
  unfold pageSetup
  simp only
  refine sound_group (by decide) ?_
  refine List.forall_mem_cons.mpr ⟨sound_valued (by decide) (written_of_plain (by decide)), ?_⟩
  refine List.forall_mem_cons.mpr ⟨sound_leaf (by decide) hsize, ?_⟩
  refine List.forall_mem_singleton.mpr (sound_leaf (by decide) ?_)
  refine soundAttributes_of_keys ["w:top", "w:right", "w:bottom", "w:left", "w:header", "w:footer",
    "w:gutter"] rfl (by decide) ?_
  simp [hm, hplain]

theorem sound_documentPart (d : Document) (pictures : List Picture) :
    (documentPart d pictures).Sound := by
  refine .element (by decide) (soundAttributes_of_plain (by decide) (by decide +kernel)) ?_
  refine List.forall_mem_singleton.mpr (sound_group (by decide) fun t ht => ?_)
  rcases List.mem_append.mp ht with ht | ht
  · exact sound_paragraphs pictures 1 d.nodes t ht
  · rw [List.mem_singleton.mp ht]
    exact sound_pageSetup d.pageMargin

/-! ## The styles -/

theorem sound_spacing : spacing.Sound := by
  refine sound_group (by decide) (List.forall_mem_singleton.mpr (sound_leaf (by decide) ?_))
  exact soundAttributes_of_plain (by decide) (by decide)

theorem sound_fonts {font : String} (h : Written font) : (fonts font).Sound :=
  sound_leaf (by decide)
    (soundAttributes_of_keys ["w:ascii", "w:hAnsi", "w:cs"] rfl (by decide) (by simp [h]))

theorem sound_sizes (size : Nat) : ∀ t ∈ sizes size, t.Sound := by
  have h := written_decimal size
  exact List.forall_mem_cons.mpr ⟨sound_valued (by decide) h,
    List.forall_mem_singleton.mpr (sound_valued (by decide) h)⟩

theorem sound_documentDefaults : documentDefaults.Sound := by
  refine sound_group (by decide) (List.forall_mem_cons.mpr ⟨?_, List.forall_mem_singleton.mpr ?_⟩)
  · refine sound_group (by decide) (List.forall_mem_singleton.mpr (sound_group (by decide) ?_))
    exact List.forall_mem_cons.mpr ⟨sound_fonts (written_of_plain (by decide)), sound_sizes _⟩
  · exact sound_group (by decide) (List.forall_mem_singleton.mpr sound_spacing)

def styleAttributes (defaultId : String) (s : Descriptor) : List (String × String) :=
  [("w:type", "paragraph"), (if s.id == defaultId then "w:default" else "w:customStyle", "1"),
    ("w:styleId", escape s.id)]

theorem sound_styleAttributes (defaultId : String) (s : Descriptor) :
    SoundAttributes (styleAttributes defaultId s) := by
  have hvalues : ∀ a ∈ styleAttributes defaultId s, Written a.2 := by
    have hone : Written "1" := written_of_plain (by decide)
    refine List.forall_mem_cons.mpr ⟨written_of_plain (by decide), ?_⟩
    exact List.forall_mem_cons.mpr ⟨hone, List.forall_mem_singleton.mpr (written_escape s.id)⟩
  by_cases h : (s.id == defaultId) = true
  · refine soundAttributes_of_keys ["w:type", "w:default", "w:styleId"] ?_ (by decide) hvalues
    simp [styleAttributes, h]
  · refine soundAttributes_of_keys ["w:type", "w:customStyle", "w:styleId"] ?_ (by decide) hvalues
    simp [styleAttributes, h]

theorem sound_styleElement (defaultId : String) {s : Descriptor}
    (h : isHexColor s.color.toList = true) : (styleElement defaultId s).Sound := by
  have hlooks : (group "w:rPr" (fonts (escape s.font) :: valued "w:color" s.color ::
      sizes s.size)).Sound := by
    refine sound_group (by decide) ?_
    refine List.forall_mem_cons.mpr ⟨sound_fonts (written_escape s.font), ?_⟩
    exact List.forall_mem_cons.mpr ⟨sound_valued (by decide) (written_color h), sound_sizes _⟩
  have hrest : ∀ t ∈ [valued "w:next" (escape defaultId), valued "w:uiPriority" "1",
      leaf "w:qFormat", spacing, group "w:rPr" (fonts (escape s.font) ::
        valued "w:color" s.color :: sizes s.size)], t.Sound := by
    refine List.forall_mem_cons.mpr ⟨sound_valued (by decide) (written_escape defaultId), ?_⟩
    refine List.forall_mem_cons.mpr ⟨sound_valued (by decide) (written_of_plain (by decide)), ?_⟩
    refine List.forall_mem_cons.mpr
      ⟨sound_leaf (by decide) (soundAttributes_of_plain (by decide) (by decide)), ?_⟩
    exact List.forall_mem_cons.mpr ⟨sound_spacing, List.forall_mem_singleton.mpr hlooks⟩
  refine .element (by decide) (sound_styleAttributes defaultId s) fun t ht => ?_
  rcases List.mem_append.mp ht with ht | ht
  · rcases List.mem_append.mp ht with ht | ht
    · rw [List.mem_singleton.mp ht]
      exact sound_valued (by decide) (written_escape s.name)
    · obtain ⟨id, -, rfl⟩ := List.mem_map.mp ht
      exact sound_valued (by decide) (written_escape id)
  · exact hrest t ht

theorem isHexColor_of_mem {d : Document} (h : ∀ s ∈ d.styles, isHexColor s.color.toList = true) :
    ∀ s ∈ packageStyles d, isHexColor s.color.toList = true := by
  unfold packageStyles
  split_ifs
  · exact h
  · have hd : isHexColor defaultColor.toList = true := by decide
    exact List.forall_mem_cons.mpr ⟨hd, h⟩

theorem sound_stylesPart {d : Document} (h : ∀ s ∈ d.styles, isHexColor s.color.toList = true) :
    (stylesPart d).Sound := by
  refine .element (by decide) (soundAttributes_of_plain (by decide) (by decide +kernel)) ?_
  refine List.forall_mem_cons.mpr ⟨sound_documentDefaults, fun t ht => ?_⟩
  obtain ⟨s, hs, rfl⟩ := List.mem_map.mp ht
  exact sound_styleElement d.defaultStyle (isHexColor_of_mem h s hs)

/-! ## Elements of the document -/

/-- The tag of an element with a single value. -/
def valuedTag (name value : String) : Tag := tagOf name [("w:val", escape value)]

theorem value?_valuedTag (name value : String) :
    (valuedTag name value).value? "w:val" = some value := by
  have hs : SoundAttributes [("w:val", escape value)] :=
    soundAttributes_of_keys ["w:val"] rfl (by decide) (by simp [written_escape])
  rw [valuedTag, Tag.value?_tagOf hs]
  simp

theorem named_textRun {name : String} (h : name ∉ ["w:r", "w:t", "w:br"]) (text : String) :
    (textRun text).flatMap (Tree.named name) = [] := by
  simp only [List.mem_cons, List.not_mem_nil, or_false, not_or] at h
  obtain ⟨hr, ht, hb⟩ := h
  unfold textRun
  split_ifs
  · rfl
  · have hlines : (((lines text.toList).map lineText).intersperse (leaf "w:br")).flatMap
        (Tree.named name) = [] := by
      rw [List.flatMap_eq_nil_iff]
      intro t ht'
      rcases mem_intersperse ht' with rfl | ht'
      · simp [leaf, Ne.symm hb]
      · obtain ⟨line, -, rfl⟩ := List.mem_map.mp ht'
        simp [lineText, Ne.symm ht]
    simp [group, hlines, Ne.symm hr]

theorem named_drawing_eq_nil {name : String} (h : name ∈ ["w:pStyle", "w:p"]) (p : Picture)
    (source : String) (id : Nat) : (drawing p source id).named name = [] := by
  simp only [List.mem_cons, List.not_mem_nil, or_false] at h
  rcases h with rfl | rfl <;> simp [drawing, group, leaf]

theorem named_pStyle_paragraph (style : String) {content : List Tree}
    (h : content.flatMap (Tree.named "w:pStyle") = []) :
    (paragraph style content).named "w:pStyle" = [valuedTag "w:pStyle" style] := by
  simp [paragraph, group, valued, leaf, valuedTag, h]

theorem named_pStyle_paragraphs (pictures : List Picture) (id : Nat) (nodes : List Node) :
    (paragraphs pictures id nodes).flatMap (Tree.named "w:pStyle") =
      nodes.map fun n => valuedTag "w:pStyle" n.style := by
  fun_induction paragraphs pictures id nodes with
  | case1 => rfl
  | case2 id style text nodes ih =>
    rw [List.flatMap_cons, named_pStyle_paragraph style (named_textRun (by decide) text), ih]
    rfl
  | case3 id style source nodes p _ ih =>
    rw [List.flatMap_cons, named_pStyle_paragraph style (by simp [named_drawing_eq_nil]), ih]
    rfl
  | case4 id style source nodes _ ih =>
    rw [List.flatMap_cons, named_pStyle_paragraph style rfl, ih]
    rfl

/-- **The document refers to the style of every node, in order, and to no other.** -/
theorem named_pStyle_documentPart (d : Document) (pictures : List Picture) :
    (documentPart d pictures).named "w:pStyle" =
      d.nodes.map fun n => valuedTag "w:pStyle" n.style := by
  have hp : (pageSetup d.pageMargin).named "w:pStyle" = [] := by
    simp [pageSetup, group, leaf, valued]
  simp [documentPart, group, List.flatMap_append, named_pStyle_paragraphs, hp]

/-! ## Elements of the styles -/

def styleTag (defaultId : String) (s : Descriptor) : Tag :=
  tagOf "w:style" (styleAttributes defaultId s)

theorem value?_styleId (defaultId : String) (s : Descriptor) :
    (styleTag defaultId s).value? "w:styleId" = some s.id := by
  rw [styleTag, Tag.value?_tagOf (sound_styleAttributes defaultId s)]
  by_cases h : (s.id == defaultId) = true
  · simp [styleAttributes, h, List.lookup_cons]
  · simp [styleAttributes, h, List.lookup_cons]

theorem value?_default (defaultId : String) (s : Descriptor) :
    (styleTag defaultId s).value? "w:default" = if s.id = defaultId then some "1" else none := by
  have hone : meaning "1" = "1" := meaning_of_plain (by decide)
  rw [styleTag, Tag.value?_tagOf (sound_styleAttributes defaultId s)]
  by_cases h : s.id = defaultId
  · simp [styleAttributes, h, List.lookup_cons, hone]
  · simp [styleAttributes, h, List.lookup_cons]

theorem named_spacing {name : String} (h : name ∉ ["w:pPr", "w:spacing"]) :
    spacing.named name = [] := by
  simp only [List.mem_cons, List.not_mem_nil, or_false, not_or] at h
  simp [spacing, group, leaf, Ne.symm h.1, Ne.symm h.2]

theorem named_stylesPart (d : Document) {name : String}
    (h : name ∈ ["w:style", "w:next", "w:basedOn"]) :
    (stylesPart d).named name =
      (packageStyles d).flatMap fun s => (styleElement d.defaultStyle s).named name := by
  have hs : spacing.named name = [] := by
    apply named_spacing
    rintro hm
    simp only [List.mem_cons, List.not_mem_nil, or_false] at h hm
    rcases h with rfl | rfl | rfl <;> simp at hm
  simp only [List.mem_cons, List.not_mem_nil, or_false] at h
  rcases h with rfl | rfl | rfl <;>
    simp [stylesPart, documentDefaults, group, leaf, fonts, sizes, valued, hs, List.flatMap_map]

/-- **There is one element for every style of the package, in order.** -/
theorem named_style_stylesPart (d : Document) :
    (stylesPart d).named "w:style" = (packageStyles d).map (styleTag d.defaultStyle) := by
  have hs : spacing.named "w:style" = [] := named_spacing (by simp)
  rw [named_stylesPart d (by simp), List.map_eq_flatMap]
  refine List.flatMap_congr fun s _ => ?_
  simp [styleElement, group, leaf, fonts, sizes, valued, hs, List.flatMap_map, styleTag,
    styleAttributes]

theorem named_next_stylesPart (d : Document) : (stylesPart d).named "w:next" =
    (packageStyles d).map fun _ => valuedTag "w:next" d.defaultStyle := by
  have hs : spacing.named "w:next" = [] := named_spacing (by simp)
  rw [named_stylesPart d (by simp), List.map_eq_flatMap]
  refine List.flatMap_congr fun s _ => ?_
  simp [styleElement, group, leaf, fonts, sizes, valued, hs, List.flatMap_map, valuedTag]

theorem named_basedOn_styleElement (defaultId : String) (s : Descriptor) :
    (styleElement defaultId s).named "w:basedOn" =
      (basedOn? defaultId s).toList.map (valuedTag "w:basedOn") := by
  have hs : spacing.named "w:basedOn" = [] := named_spacing (by simp)
  cases hb : basedOn? defaultId s with
  | none => simp [styleElement, group, leaf, fonts, sizes, valued, hs, hb]
  | some id => simp [styleElement, group, leaf, fonts, sizes, valued, hs, hb, valuedTag]

theorem named_basedOn_stylesPart (d : Document) : (stylesPart d).named "w:basedOn" =
    (packageStyles d).flatMap fun s =>
      (basedOn? d.defaultStyle s).toList.map (valuedTag "w:basedOn") := by
  rw [named_stylesPart d (by simp)]
  exact List.flatMap_congr fun s _ => named_basedOn_styleElement d.defaultStyle s

end SheetMarkup.Docx
