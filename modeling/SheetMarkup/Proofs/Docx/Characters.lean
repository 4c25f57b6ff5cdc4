import SheetMarkup.Proofs.Document.Diagnostics
import SheetMarkup.Proofs.Document.Identifiers
import SheetMarkup.Proofs.Docx.Paragraphs
import SheetMarkup.Proofs.Docx.StyleClosure
import SheetMarkup.Proofs.Xml.Characters

/-!
# The characters of a package

What a package says in its own words has a place in markup, and so have identifiers, numbers and
colours. The texts of the user are written as they are: those of nodes in the document, and the
names and fonts of styles. A control character in one of them stands in the part as well.

* `legal_textRun`, `legal_drawing`, **`legal_documentPart`**: the document;
* `LegalRest`, `legal_styleElement`, **`legal_stylesPart`**: the styles;
* `LegalCells`, `legal_styles_of_cells`, `legal_nodes_of_cells`: texts come from cells with content;
* **`legal_iff_of_package`**: both parts of every package;
* `illegal_of_package`: a package with a control character.
-/

namespace SheetMarkup.Docx

open Xml Outcome Registry

/-! ## The document -/

theorem legal_valued {name value : String} (hn : Legal name) :
    (valued name value).Legal ↔ Legal value := by
  have hkey : Legal "w:val" := by decide
  simp [valued, hn, hkey]

theorem all_isXmlChar_dropEndWhile (line : List Char) :
    (Text.dropEndWhile (· == '\r') line).all isXmlChar = line.all isXmlChar := by
  -- what is dropped has a place itself, so dropping it makes no line better
  have hreturns : (line.rtakeWhile (· == '\r')).all isXmlChar = true := by
    refine List.all_eq_true.mpr fun c hc => ?_
    have he := List.mem_rtakeWhile_imp (p := (· == '\r')) hc
    rw [beq_iff_eq.mp he]
    decide
  have hsplit := List.rdropWhile_append_rtakeWhile (p := (· == '\r')) (l := line)
  conv_rhs => rw [← hsplit, List.all_append, hreturns, Bool.and_true]
  rfl

theorem legal_lineText (line : List Char) :
    (lineText line).Legal ↔ line.all isXmlChar = true := by
  have hname : Legal "w:t" ∧ Legal "xml:space" ∧ Legal "preserve" := by decide
  simp only [lineText, legal_element, legal_text, legal_escape, legal_ofList, hname,
    List.forall_mem_singleton, all_isXmlChar_dropEndWhile, and_self, true_and]

theorem all_isXmlChar_lines (cs : List Char) :
    (∀ line ∈ lines cs, line.all isXmlChar = true) ↔ cs.all isXmlChar = true := by
  have hfeed : isXmlChar '\n' = true := by decide
  induction cs using induction_on_lines with
  | last line h => rw [lines, List.splitOn_eq_singleton h, List.forall_mem_singleton]
  | step line rest h ih =>
    rw [lines] at ih ⊢
    rw [List.splitOn_append_cons_self_of_not_mem h, List.forall_mem_cons, List.all_append,
      List.all_cons, hfeed, Bool.true_and, Bool.and_eq_true]
    exact and_congr_right fun _ => ih

theorem forall_mem_intersperse {α : Type} {p : α → Prop} {sep : α} (hsep : p sep) {xs : List α} :
    (∀ x ∈ xs.intersperse sep, p x) ↔ ∀ x ∈ xs, p x := by
  induction xs with
  | nil => rfl
  | cons x xs ih =>
    cases xs with
    | nil => rfl
    | cons y ys =>
      rw [List.intersperse_cons_cons, List.forall_mem_cons, List.forall_mem_cons, ih,
        List.forall_mem_cons (l := y :: ys), and_iff_right hsep]

theorem legal_textRun (text : String) : (∀ t ∈ textRun text, t.Legal) ↔ Legal text := by
  have hrun : Legal "w:r" := by decide
  have hbreak : (leaf "w:br").Legal := by decide
  unfold textRun
  by_cases h : text.isEmpty = true
  · rw [if_pos h, String.isEmpty_iff.mp h]
    exact iff_of_true (List.forall_mem_nil _) (by decide)
  · rw [if_neg h, List.forall_mem_singleton, legal_group, and_iff_right hrun,
      forall_mem_intersperse hbreak, List.forall_mem_map]
    simp only [legal_lineText]
    exact all_isXmlChar_lines text.toList

theorem legal_relationId (p : Picture) : Legal p.relationId := by
  have hletters : Legal "rId" := by decide
  rw [Picture.relationId, legal_append]
  exact ⟨hletters, legal_decimal _⟩

theorem legal_drawing (p : Picture) (source : String) (id : Nat) :
    (drawing p source id).Legal ↔ Legal (sourceName source) := by
  simp +decide [drawing, legal_relationId]

/-- What the document shows of the content of a node. -/
def shownPart : Node → String
  | .paragraph _ text => text
  | .image _ source => sourceName source

theorem legal_paragraph {style : String} (hs : Legal style) (content : List Tree) :
    (paragraph style content).Legal ↔ ∀ t ∈ content, t.Legal := by
  have hnames : Legal "w:p" ∧ Legal "w:pPr" ∧ Legal "w:pStyle" := by decide
  have hstyle : (valued "w:pStyle" (escape style)).Legal :=
    (legal_valued hnames.2.2).mpr ((legal_escape style).mpr hs)
  simp only [paragraph, legal_group, List.forall_mem_cons, List.not_mem_nil, false_implies,
    implies_true, hnames, hstyle, true_and, and_true]

theorem legal_paragraphs {pictures : List Picture} {nodes : List Node}
    (hfound : ∀ style source, Node.image style source ∈ nodes →
      (pictures.find? (·.source == source)).isSome = true)
    (hstyles : ∀ n ∈ nodes, Legal n.style) (id : Nat) :
    (∀ t ∈ paragraphs pictures id nodes, t.Legal) ↔ ∀ n ∈ nodes, Legal (shownPart n) := by
  fun_induction paragraphs pictures id nodes with
  | case1 => simp
  | case2 id style text nodes ih =>
    obtain ⟨hstyle, hstyles⟩ := List.forall_mem_cons.mp hstyles
    change Legal style at hstyle
    rw [List.forall_mem_cons, List.forall_mem_cons, legal_paragraph hstyle, legal_textRun,
      ih (fun s u hm => hfound s u (List.mem_cons_of_mem _ hm)) hstyles]
    rfl
  | case3 id style source nodes p _ ih =>
    obtain ⟨hstyle, hstyles⟩ := List.forall_mem_cons.mp hstyles
    change Legal style at hstyle
    rw [List.forall_mem_cons, List.forall_mem_cons, legal_paragraph hstyle,
      List.forall_mem_singleton, legal_drawing,
      ih (fun s u hm => hfound s u (List.mem_cons_of_mem _ hm)) hstyles]
    rfl
  | case4 id style source nodes hn ih =>
    -- a source that is shown has its picture
    have hs := hfound style source List.mem_cons_self
    rw [hn] at hs
    cases hs

theorem legal_pageSetup (margin : Nat) : (pageSetup margin).Legal := by
  simp +decide [pageSetup, valued]

/-- **The document is legal exactly where what it shows of its nodes is.** -/
theorem legal_documentPart {d : Document} {media : Media} {pictures : List Picture}
    (h : collect d media = .ok pictures) (hstyles : ∀ n ∈ d.nodes, Legal n.style) :
    (documentPart d pictures).Legal ↔ ∀ n ∈ d.nodes, Legal (shownPart n) := by
  have hfound := fun style source (hn : Node.image style source ∈ d.nodes) =>
    isSome_find?_of_collect h hn
  have hbody : Legal "w:body" := by decide
  have hspaces : Legal "w:document" ∧ ∀ a ∈ [("xmlns:w", wordSpace), ("xmlns:r", relationSpace),
      ("xmlns:wp", placementSpace), ("xmlns:a", drawingSpace), ("xmlns:pic", pictureSpace)],
      Legal a.1 ∧ Legal a.2 := by
    decide +kernel
  rw [documentPart, legal_element, and_iff_right hspaces.1, and_iff_right hspaces.2,
    List.forall_mem_singleton, legal_group, and_iff_right hbody, List.forall_mem_append,
    List.forall_mem_singleton, and_iff_left (legal_pageSetup d.pageMargin)]
  exact legal_paragraphs hfound hstyles 1

/-! ## The styles -/

theorem legal_sizes (size : Nat) : ∀ t ∈ sizes size, t.Legal := by
  simp +decide [sizes, legal_valued]

theorem legal_fonts (font : String) : (fonts font).Legal ↔ Legal font := by
  simp +decide [fonts]

/-- All of a style but its name and its font has a place in markup. -/
structure LegalRest (s : Descriptor) : Prop where
  id : Legal s.id
  parent : ∀ p ∈ s.parent, Legal p
  color : Legal s.color

theorem legal_basedOn? {defaultId : String} {s : Descriptor} (hd : Legal defaultId)
    (hs : LegalRest s) : ∀ id ∈ basedOn? defaultId s, Legal id := by
  intro id hid
  unfold basedOn? at hid
  split at hid
  · next parent hp =>
    cases hid
    exact hs.parent id (Option.filter_eq_some_iff.mp hp).1
  · split_ifs at hid
    · cases hid
    · exact Option.mem_some_iff.mp hid ▸ hd

theorem legal_styleElement {defaultId : String} {s : Descriptor} (hd : Legal defaultId)
    (hs : LegalRest s) : (styleElement defaultId s).Legal ↔ Legal s.name ∧ Legal s.font := by
  have hname : Legal "w:style" := by decide
  have hattributes : ∀ a ∈ styleAttributes defaultId s, Legal a.1 ∧ Legal a.2 := by
    have hone : Legal "1" := by decide
    have hkey : Legal "w:styleId" := by decide
    have hmark : Legal (if s.id == defaultId then "w:default" else "w:customStyle") := by
      split_ifs <;> decide
    refine List.forall_mem_cons.mpr ⟨by decide, List.forall_mem_cons.mpr ⟨⟨hmark, hone⟩, ?_⟩⟩
    exact List.forall_mem_singleton.mpr ⟨hkey, (legal_escape s.id).mpr hs.id⟩
  have hbased : ∀ id ∈ (basedOn? defaultId s).toList, (valued "w:basedOn" (escape id)).Legal := by
    intro id hid
    rw [legal_valued (by decide), legal_escape]
    exact legal_basedOn? hd hs id (Option.mem_toList.mp hid)
  have hnext : (valued "w:next" (escape defaultId)).Legal :=
    (legal_valued (by decide)).mpr ((legal_escape defaultId).mpr hd)
  have hplain : (valued "w:uiPriority" "1").Legal ∧ (leaf "w:qFormat").Legal ∧ spacing.Legal := by
    decide
  have hlooks : (group "w:rPr" (fonts (escape s.font) :: valued "w:color" s.color ::
      sizes s.size)).Legal ↔ Legal s.font := by
    have hgroup : Legal "w:rPr" := by decide
    have hcolor : (valued "w:color" s.color).Legal := (legal_valued (by decide)).mpr hs.color
    rw [legal_group, and_iff_right hgroup, List.forall_mem_cons, List.forall_mem_cons,
      and_iff_right hcolor, and_iff_left (legal_sizes s.size), legal_fonts, legal_escape]
  change (Tree.element "w:style" (styleAttributes defaultId s) _).Legal ↔ _
  rw [legal_element, and_iff_right hname, and_iff_right hattributes, List.forall_mem_append,
    List.forall_mem_append, List.forall_mem_map, and_iff_left hbased, List.forall_mem_singleton,
    legal_valued (by decide), legal_escape]
  simp only [List.forall_mem_cons, hnext, hplain, hlooks, true_and, List.not_mem_nil,
    false_implies, implies_true, and_true]

theorem legal_packageStyles {d : Document} (hd : Legal d.defaultStyle) :
    (∀ s ∈ packageStyles d, Legal s.name ∧ Legal s.font) ↔
      ∀ s ∈ d.styles, Legal s.name ∧ Legal s.font := by
  have hfont : Legal fallbackFont := by decide
  unfold packageStyles
  split_ifs
  · rfl
  · rw [List.forall_mem_cons]
    exact and_iff_right ⟨hd, hfont⟩

theorem legalRest_of_mem_packageStyles {d : Document} (hd : Legal d.defaultStyle)
    (hs : ∀ s ∈ d.styles, LegalRest s) : ∀ s ∈ packageStyles d, LegalRest s := by
  have hcolor : Legal defaultColor := by decide
  unfold packageStyles
  split_ifs
  · exact hs
  · exact List.forall_mem_cons.mpr ⟨⟨hd, by rintro p ⟨⟩, hcolor⟩, hs⟩

/-- **The styles are legal exactly where their names and fonts are.** -/
theorem legal_stylesPart {d : Document} (hd : Legal d.defaultStyle)
    (hs : ∀ s ∈ d.styles, LegalRest s) :
    (stylesPart d).Legal ↔ ∀ s ∈ d.styles, Legal s.name ∧ Legal s.font := by
  have hroot : Legal "w:styles" := by decide
  have hspaces : ∀ a ∈ [("xmlns:w", wordSpace)], Legal a.1 ∧ Legal a.2 := by decide
  have hdefaults : documentDefaults.Legal := by decide +kernel
  have hplain := legalRest_of_mem_packageStyles hd hs
  rw [stylesPart, legal_element, and_iff_right hroot, and_iff_right hspaces, List.forall_mem_cons,
    and_iff_right hdefaults, List.forall_mem_map, ← legal_packageStyles hd]
  exact forall₂_congr fun s hm => legal_styleElement hd (hplain s hm)

/-! ## Sheets -/

theorem legal_toIdentifier (name : String) : Legal (toIdentifier name) :=
  legal_iff.mpr fun _ hc =>
    isXmlChar_of_isAsciiAlphanumeric (isAsciiAlphanumeric_of_mem_toIdentifier hc)

theorem isXmlChar_of_hexValue? {c : Char} (h : (Text.hexValue? c).isSome = true) :
    isXmlChar c = true := by
  have hrange : 48 ≤ c.toNat ∧ c.toNat ≤ 102 := by
    simp only [Text.hexValue?, Bool.and_eq_true, decide_eq_true_eq] at h
    split_ifs at h
    · omega
    · omega
    · omega
    · cases h
  exact isXmlChar_of_ascii (by omega) (by omega)

theorem legal_color {color : String} (h : isHexColor color.toList = true) : Legal color :=
  legal_iff.mpr fun c hc =>
    isXmlChar_of_hexValue? (List.all_eq_true.mp (Bool.and_eq_true_iff.mp h).2 c hc)

theorem legalRest_of_sound {s : Descriptor} (h : s.Sound) : LegalRest s where
  id := h.id_eq ▸ legal_toIdentifier s.name
  parent p hp := legal_iff.mpr fun c hc =>
    isXmlChar_of_isAsciiAlphanumeric ((h.parent p hp).2 c hc)
  color := legal_color h.color

theorem legal_of_assigns {c : Cell} {name value : String} (ha : c.Assigns name value)
    (hc : Legal c.value) : Legal value := by
  obtain ⟨a, hp, -, rfl⟩ := ha
  unfold Argument.parse at hp
  split at hp
  · cases hp
  · next e rest hrest =>
    rw [← Except.ok.inj hp]
    refine hc.of_subset fun x hx => ?_
    rw [Text.trim_toList, String.toList_ofList] at hx
    have hx := (Text.trimWhile_sublist rest).subset hx
    exact (List.dropWhile_sublist _).subset (hrest ▸ List.mem_cons_of_mem e hx)

theorem texts_of_ofArguments {arguments : List Argument} {s : Descriptor}
    (h : Descriptor.ofArguments arguments = .ok s) : (∃ a ∈ arguments, s.name = a.value) ∧
      (s.font = fallbackFont ∨ ∃ a ∈ arguments, s.font = a.value) := by
  obtain ⟨name, hn, color, size, -, -, -, rfl⟩ := Descriptor.ofArguments_eq_ok h
  refine ⟨⟨name, (mem_of_lastNamed? hn).1, rfl⟩, ?_⟩
  change Option.getD _ fallbackFont = _ ∨ ∃ a ∈ _, Option.getD _ fallbackFont = _
  cases hf : ((lastNamed? arguments "font").map Argument.value).filter fun f => !f.isEmpty with
  | none => exact Or.inl rfl
  | some font =>
    obtain ⟨a, ha, rfl⟩ := Option.map_eq_some_iff.mp (Option.filter_eq_some_iff.mp hf).1
    exact Or.inr ⟨a, (mem_of_lastNamed? ha).1, rfl⟩

theorem mem_rows_of_mem_kept {rows : List Row} {g : Group} (hg : g ∈ groupsOf rows) {r : Row}
    (hr : r ∈ g.kept) : r ∈ rows := by
  have hbody : r ∈ g.body := by
    unfold Group.kept at hr
    split_ifs at hr
    · exact hr
    · exact (Text.trimWhile_sublist g.body).subset hr
  have hm : r ∈ (groupsOf rows).flatMap Group.rows :=
    List.mem_flatMap.mpr ⟨g, hg, List.mem_cons_of_mem _ hbody⟩
  rw [groupsOf_rows] at hm
  exact (List.dropWhile_sublist _).subset hm

/-- All cells of a sheet but blank ones and comments hold only characters that have a place. -/
def LegalCells (rows : List Row) : Prop :=
  ∀ r ∈ rows, ∀ c ∈ r.cells, c.hasContent = true → Legal c.value

variable {rows : List Row} {blocks : List Block} {config : Config} {rendered : Rendered}

theorem legal_value_of_mem_arguments (hcells : LegalCells rows) (hn : firstError? rows = none)
    {g : Group} (hg : g ∈ groupsOf rows) {a : Argument} (ha : a ∈ g.block.arguments) :
    Legal a.value := by
  obtain ⟨column, c, hc, hcontent, -, hassigns, -⟩ := Group.exists_cell_of_mem_arguments hn hg ha
  have hrow := (head_mem_of_mem_groupsOf hg).1
  exact legal_of_assigns hassigns (hcells g.head hrow c (List.mem_of_getElem? hc) hcontent)

theorem legal_styles_of_cells (hcells : LegalCells rows) (hp : parse rows = .ok blocks)
    (hr : render blocks config = .ok rendered) :
    ∀ s ∈ rendered.document.styles, Legal s.name ∧ Legal s.font := by
  obtain ⟨hn, rfl⟩ := parse_eq_ok hp
  intro s hs
  obtain ⟨b, hb, hbs⟩ := exists_block_of_mem_styles hr hs
  obtain ⟨g, hg, rfl⟩ := List.mem_map.mp hb
  have hvalues : ∀ a ∈ g.block.arguments, Legal a.value := fun a ha =>
    legal_value_of_mem_arguments hcells hn hg ha
  obtain ⟨⟨name, hname, hen⟩, hfont⟩ := texts_of_ofArguments (mapError_eq_ok.mp hbs)
  refine ⟨hen ▸ hvalues name hname, ?_⟩
  rcases hfont with he | ⟨font, hfont, he⟩
  · rw [he]
    decide
  · exact he ▸ hvalues font hfont

theorem legal_sourceName {source : String} (h : Legal source) : Legal (sourceName source) := by
  refine h.of_subset fun c hc => ?_
  rw [sourceName, String.toList_ofList, List.mem_reverse] at hc
  exact List.mem_reverse.mp ((List.takeWhile_sublist _).subset hc)

theorem legal_shownPart_row {r : Row} (style : String)
    (h : ∀ c ∈ r.cells, c.hasContent = true → Legal c.value) :
    Legal (shownPart (r.node style)) := by
  unfold Row.node
  cases hf : r.cells.find? Cell.hasContent with
  | none => exact (by decide : Legal "")
  | some c =>
    have hc := h c (List.mem_of_find?_eq_some hf) (List.find?_some hf)
    simp only
    split_ifs
    · exact legal_sourceName hc
    · exact hc

theorem legal_nodes_of_cells (hcells : LegalCells rows) (hp : parse rows = .ok blocks)
    (hr : render blocks config = .ok rendered) :
    ∀ n ∈ rendered.document.nodes, Legal (shownPart n) := by
  obtain ⟨hn, rfl⟩ := parse_eq_ok hp
  rw [nodes_of_render hr, paragraphBlocks_flatMap hn]
  intro n hm
  obtain ⟨g, hg, hm⟩ := List.mem_flatMap.mp hm
  unfold Group.nodes at hm
  split_ifs at hm
  · obtain ⟨r, hkept, rfl⟩ := List.mem_map.mp hm
    exact legal_shownPart_row _ (hcells r (mem_rows_of_mem_kept hg hkept))
  · cases hm

theorem legal_style_of_render (hr : render blocks config = .ok rendered) :
    ∀ n ∈ rendered.document.nodes, Legal n.style := by
  have hclosed := closed_of_render hr
  have hd : Legal rendered.document.defaultStyle :=
    defaultStyle_of_render hr ▸ legal_toIdentifier _
  exact hclosed.forall_node hd fun s hs => (legalRest_of_sound (hclosed.sound s hs)).id

variable {media : Media} {parts : List Part}

/-- The two parts of a package, by the texts of the user that they hold. -/
theorem legal_markup_iff (hr : render blocks config = .ok rendered)
    (hw : package rendered.document media = .ok parts) : ∃ document styles,
      markup? parts "word/document.xml" = some document ∧
      markup? parts "word/styles.xml" = some styles ∧
      (Legal document ↔ ∀ n ∈ rendered.document.nodes, Legal (shownPart n)) ∧
      (Legal styles ↔ ∀ s ∈ rendered.document.styles, Legal s.name ∧ Legal s.font) := by
  obtain ⟨pictures, hc, -, rfl⟩ := package_eq_ok.mp hw
  have hd : Legal rendered.document.defaultStyle :=
    defaultStyle_of_render hr ▸ legal_toIdentifier _
  have hs : ∀ s ∈ rendered.document.styles, LegalRest s := fun s hs =>
    legalRest_of_sound ((closed_of_render hr).sound s hs)
  exact ⟨_, _, by simp [markup?, partsOf], by simp [markup?, partsOf],
    legal_documentText.trans (legal_documentPart hc (legal_style_of_render hr)),
    legal_documentText.trans (legal_stylesPart hd hs)⟩

/-- **When the parts of a package hold only characters that have a place in markup:** exactly where
the texts do that they show. -/
theorem legal_iff_of_package (hp : parse rows = .ok blocks)
    (hr : render blocks config = .ok rendered)
    (hw : package rendered.document media = .ok parts) : ∃ document styles,
      markup? parts "word/document.xml" = some document ∧
      markup? parts "word/styles.xml" = some styles ∧
      (Legal document ↔ ∀ n ∈ rendered.document.nodes, Legal (shownPart n)) ∧
      (Legal styles ↔ ∀ s ∈ rendered.document.styles, Legal s.name ∧ Legal s.font) ∧
      (LegalCells rows → Legal document ∧ Legal styles) := by
  obtain ⟨document, styles, hdocument, hstyles, hl, hls⟩ := legal_markup_iff hr hw
  refine ⟨document, styles, hdocument, hstyles, hl, hls, fun hcells => ?_⟩
  exact ⟨hl.mpr (legal_nodes_of_cells hcells hp hr), hls.mpr (legal_styles_of_cells hcells hp hr)⟩

/-- A style with a control character in its name, and a comment with another one. -/
def bellSheet : List Row :=
  [⟨0, [.ofText "s", .ofText "name=Bell\x07"]⟩, ⟨1, [.ofText "p", .ofText "style=bell"]⟩,
    ⟨2, [.empty, .ofText "one\ttwo", .ofText "// \x01"]⟩]

theorem legal_iff_of_package_bellSheet : ∃ blocks rendered parts document styles,
    parse bellSheet = .ok blocks ∧ render blocks {} = .ok rendered ∧
    package rendered.document {} = .ok parts ∧ markup? parts "word/document.xml" = some document ∧
    markup? parts "word/styles.xml" = some styles ∧ Legal document ∧ ¬ Legal styles := by
  have h : ((parse bellSheet >>= fun blocks => render blocks {}).map fun r =>
      (r.document.nodes, r.document.styles.map Descriptor.name,
        (package r.document {}).isOk)) =
      .ok ([.paragraph "Bell" "one\ttwo"], ["Bell\x07"], true) := by
    decide +kernel
  obtain ⟨rendered, hr, hd⟩ := map_eq_ok.mp h
  obtain ⟨blocks, hp, hr⟩ := bind_eq_ok.mp hr
  obtain ⟨hnodes, hd⟩ := Prod.mk.inj hd
  obtain ⟨hnames, hw⟩ := Prod.mk.inj hd
  obtain ⟨parts, hw⟩ := exists_of_isOk hw
  obtain ⟨document, styles, hdocument, hstyles, hl, hls, -⟩ := legal_iff_of_package hp hr hw
  refine ⟨blocks, rendered, parts, document, styles, hp, hr, hw, hdocument, hstyles, ?_, ?_⟩
  · rw [hl, hnodes]
    decide
  · rw [hls]
    intro hlegal
    have hname : ∀ name ∈ rendered.document.styles.map Descriptor.name, Legal name :=
      List.forall_mem_map.mpr fun s hs => (hlegal s hs).1
    rw [hnames] at hname
    revert hname
    decide

/-- A paragraph of one control character. -/
def controlSheet : List Row := [⟨0, [.ofText "p"]⟩, ⟨1, [.empty, .ofText "\x01"]⟩]

/-- A document with a character that has no place in markup. -/
theorem illegal_of_package : ∃ blocks rendered parts document,
    parse controlSheet = .ok blocks ∧ render blocks {} = .ok rendered ∧
    package rendered.document {} = .ok parts ∧ markup? parts "word/document.xml" = some document ∧
    ¬ ∀ c ∈ document.toList, isXmlChar c = true := by
  have h : ((parse controlSheet >>= fun blocks => render blocks {}).map fun r =>
      (r.document.nodes, (package r.document {}).isOk)) =
      .ok ([.paragraph "Normal" "\x01"], true) := by
    decide +kernel
  obtain ⟨rendered, hr, hd⟩ := map_eq_ok.mp h
  obtain ⟨blocks, hp, hr⟩ := bind_eq_ok.mp hr
  obtain ⟨hnodes, hw⟩ := Prod.mk.inj hd
  obtain ⟨parts, hw⟩ := exists_of_isOk hw
  obtain ⟨document, styles, hdocument, -, hl, -⟩ := legal_markup_iff hr hw
  refine ⟨blocks, rendered, parts, document, hp, hr, hw, hdocument, ?_⟩
  rw [← legal_iff, hl, hnodes]
  decide

end SheetMarkup.Docx
