import SheetMarkup.Proofs.Docx.Markup
import SheetMarkup.Proofs.Docx.Pictures
import SheetMarkup.Proofs.Text.Trim
import SheetMarkup.Proofs.Xml.Items

/-!
# Paragraphs read back

The document of a package holds one paragraph for every node. A reader finds the style of the node
in it and, for a text, the text, except for carriage returns at the ends of lines.

* `withoutReturns`, **`intercalate_lines`**: what is left of a text;
* `shownText`, `shownText_paragraph`: the text of a paragraph as it is read;
* `Shows`, **`forall₂_shows`**: the paragraphs of some nodes;
* `lineCount?`, `documentShape`, **`shapes_documentPart`**: the elements of the document depend
  on nothing but the kinds of its nodes and the numbers of their lines.
-/

namespace SheetMarkup.Docx

open Xml

/-! ## Lines -/

/-- Nothing but carriage returns stands between here and the end of the line. -/
def endsLine (cs : List Char) : Bool :=
  match cs.dropWhile (· == '\r') with
  | [] => true
  | c :: _ => c == '\n'

/-- A text without the carriage returns that stand right before a line feed or at its end. -/
def withoutReturns : List Char → List Char
  | [] => []
  | c :: cs => if c == '\r' && endsLine cs then withoutReturns cs else c :: withoutReturns cs

theorem induction_on_lines {motive : List Char → Prop}
    (last : ∀ line, '\n' ∉ line → motive line)
    (step : ∀ line rest, '\n' ∉ line → motive rest → motive (line ++ '\n' :: rest))
    (cs : List Char) : motive cs := by
  by_cases h : '\n' ∈ cs
  · obtain ⟨line, rest, rfl, hl⟩ := List.eq_append_cons_of_mem h
    exact step line rest hl (induction_on_lines last step rest)
  · exact last cs h
termination_by cs.length
decreasing_by
  subst_vars
  simp only [List.length_append, List.length_cons]
  omega

theorem length_lines (cs : List Char) : (lines cs).length = cs.count '\n' + 1 := by
  induction cs using induction_on_lines with
  | last line h => rw [lines, List.splitOn_eq_singleton h, List.count_eq_zero_of_not_mem h]; rfl
  | step line rest h ih =>
    rw [lines] at ih ⊢
    rw [List.splitOn_append_cons_self_of_not_mem h, List.length_cons, ih, List.count_append,
      List.count_eq_zero_of_not_mem h, List.count_cons_self]
    omega

theorem endsLine_append {line tail : List Char} (h : ∀ c ∈ line, (c == '\r') = true)
    (ht : tail.head? = none ∨ tail.head? = some '\n') : endsLine (line ++ tail) = true := by
  have hd : (line ++ tail).dropWhile (· == '\r') = tail := by
    rw [List.dropWhile_append_of_pos h]
    cases tail with
    | nil => rfl
    | cons c tail =>
      obtain rfl : c = '\n' := by simpa using ht
      rfl
  rw [endsLine, hd]
  cases tail with
  | nil => rfl
  | cons c tail => simpa using ht

theorem endsLine_append_cons {x : Char} (hx : (x == '\r') = false) {line : List Char}
    (hl : '\n' ∉ line) (hn : x ≠ '\n') (tail : List Char) :
    endsLine (line ++ x :: tail) = false := by
  rw [endsLine, Text.dropWhile_append_cons (p := (· == '\r')) hx]
  cases hd : line.dropWhile (· == '\r') with
  | nil => simpa using hn
  | cons c cs =>
    have hc : c ∈ line := (List.dropWhile_sublist _).subset (hd ▸ List.mem_cons_self)
    have hcn : c ≠ '\n' := fun e => hl (e ▸ hc)
    simpa using hcn

theorem withoutReturns_line {line : List Char} (h : '\n' ∉ line) {tail : List Char}
    (ht : tail.head? = none ∨ tail.head? = some '\n') :
    withoutReturns (line ++ tail) =
      Text.dropEndWhile (· == '\r') line ++ withoutReturns tail := by
  induction line with
  | nil => rfl
  | cons c line ih =>
    rw [List.mem_cons, not_or] at h
    rw [List.cons_append, withoutReturns, ih h.2]
    rcases Text.forall_or_exists_split (· == '\r') line with hall | ⟨ys, x, zs, rfl, hx⟩
    · have hline : Text.dropEndWhile (· == '\r') line = [] := List.rdropWhile_eq_nil_iff.mpr hall
      rw [endsLine_append hall ht, Bool.and_true, hline]
      by_cases hc : (c == '\r') = true
      · have hcons : Text.dropEndWhile (· == '\r') (c :: line) = [] :=
          List.rdropWhile_eq_nil_iff.mpr (List.forall_mem_cons.mpr ⟨hc, hall⟩)
        rw [if_pos hc, hcons]
      · have hcons := Text.dropEndWhile_append_cons (p := (· == '\r'))
          (Bool.eq_false_iff.mpr hc) [] line
        rw [List.nil_append, List.nil_append, hline] at hcons
        rw [if_neg hc, hcons]
        rfl
    · -- a character that stays stands behind, so nothing is dropped here
      have hx' : x ≠ '\n' := fun e => h.2 (by simp [e])
      have hys : '\n' ∉ ys := fun hm => h.2 (by simp [hm])
      have hends : endsLine (ys ++ x :: zs ++ tail) = false := by
        rw [List.append_assoc]
        exact endsLine_append_cons hx hys hx' _
      have hcons := Text.dropEndWhile_append_cons (p := (· == '\r')) hx (c :: ys) zs
      rw [List.cons_append] at hcons
      rw [hends, Bool.and_false, if_neg Bool.false_ne_true, hcons,
        Text.dropEndWhile_append_cons (p := (· == '\r')) hx ys zs]
      rfl

/-- **The lines of a text, put together, are the text without those returns.** -/
theorem intercalate_lines (cs : List Char) :
    ['\n'].intercalate ((lines cs).map (Text.dropEndWhile (· == '\r'))) = withoutReturns cs := by
  induction cs using induction_on_lines with
  | last line h =>
    have hl := withoutReturns_line h (Or.inl (List.head?_nil (α := Char)))
    rw [List.append_nil, withoutReturns, List.append_nil] at hl
    rw [lines, List.splitOn_eq_singleton h, hl]
    simp
  | step line rest h ih =>
    have hl := withoutReturns_line h (Or.inr (List.head?_cons (a := '\n') (l := rest)))
    have hrest : withoutReturns ('\n' :: rest) = '\n' :: withoutReturns rest := rfl
    have hne : (lines rest).map (Text.dropEndWhile (· == '\r')) ≠ [] := by
      simp [lines]
    rw [lines] at ih hne ⊢
    rw [hl, hrest, ← ih, List.splitOn_append_cons_self_of_not_mem h, List.map_cons,
      List.intercalate_cons_of_ne_nil hne]
    simp

/-! ## The text of a paragraph -/

/-- What an element adds to the text of its paragraph. -/
def lineMark? (i : Item) : Option String :=
  if i.hasName "w:t" then some i.content
  else if i.hasName "w:br" then some "\n"
  else none

/-- The text of a paragraph as it is read: its texts, with a line feed for every break. -/
def shownText (p : Item) : String := String.join (p.elements.filterMap lineMark?)

def marksOf (t : Tree) : List String := (t.items.flatMap Item.elements).filterMap lineMark?

theorem marksOf_element {name : String} (ht : name ≠ "w:t") (hb : name ≠ "w:br")
    (attributes : List (String × String)) (children : List Tree) :
    marksOf (.element name attributes children) = children.flatMap marksOf := by
  have hnone : lineMark? (.element (tagOf name attributes) (children.flatMap Tree.items)) =
      none := by
    have h : ∀ other, name ≠ other →
        (Item.element (tagOf name attributes) (children.flatMap Tree.items)).hasName other =
          false := by
      intro other hne
      exact decide_eq_false fun e => hne (String.toList_injective e)
    rw [lineMark?, h _ ht, h _ hb]
    rfl
  rw [marksOf, items_element, List.flatMap_singleton, elements_element,
    List.filterMap_cons_none hnone, List.flatMap_assoc, List.filterMap_flatMap]
  rfl

theorem marksOf_lineText (line : List Char) :
    marksOf (lineText line) = [String.ofList (Text.dropEndWhile (· == '\r') line)] := by
  have hmark : lineMark? (.element (tagOf "w:t" [("xml:space", "preserve")])
      (Tree.text (escape (String.ofList (Text.dropEndWhile (· == '\r') line)))).items) =
        some (String.ofList (Text.dropEndWhile (· == '\r') line)) := by
    rw [lineMark?, if_pos (by rfl), content_data]
  have hnone : (Tree.text (escape (String.ofList
      (Text.dropEndWhile (· == '\r') line)))).items.flatMap Item.elements = [] := by
    rw [List.flatMap_eq_nil_iff]
    intro i hi
    obtain ⟨u, rfl⟩ := exists_text_of_mem hi
    rfl
  rw [marksOf, lineText, items_element, List.flatMap_singleton, List.flatMap_singleton,
    elements_element, List.filterMap_cons_some hmark, hnone]
  rfl

theorem marksOf_break : marksOf (leaf "w:br") = ["\n"] := by
  rw [marksOf, leaf, items_element, List.flatMap_nil, List.flatMap_singleton, elements_element]
  rfl

theorem marksOf_lines (ls : List (List Char)) :
    (((ls.map lineText).intersperse (leaf "w:br")).flatMap marksOf).flatMap String.toList =
      ['\n'].intercalate (ls.map (Text.dropEndWhile (· == '\r'))) := by
  induction ls with
  | nil => rfl
  | cons line ls ih =>
    cases ls with
    | nil => simp [marksOf_lineText]
    | cons next ls =>
      rw [List.map_cons, List.map_cons, List.intersperse_cons_cons, List.flatMap_cons,
        List.flatMap_cons, marksOf_lineText, marksOf_break, ← List.map_cons, List.flatMap_append,
        List.flatMap_append, ih, List.map_cons (l := next :: ls),
        List.intercalate_cons_of_ne_nil (by simp)]
      simp

theorem marksOf_paragraph (style : String) (content : List Tree) :
    marksOf (paragraph style content) = content.flatMap marksOf := by
  have hstyle : marksOf (group "w:pPr" [valued "w:pStyle" (escape style)]) = [] := by
    rw [group, marksOf_element (by decide) (by decide), List.flatMap_singleton, valued, leaf,
      marksOf_element (by decide) (by decide), List.flatMap_nil]
  rw [paragraph, group, marksOf_element (by decide) (by decide), List.flatMap_cons, hstyle,
    List.nil_append]

theorem shownText_of_items {t : Tree} {i : Item} (hi : t.items = [i]) :
    shownText i = String.ofList ((marksOf t).flatMap String.toList) := by
  apply String.toList_injective
  rw [shownText, String.toList_join, String.toList_ofList, marksOf, hi, List.flatMap_singleton]

/-- **The text of a paragraph is that of its node**, except for returns at the ends of lines. -/
theorem shownText_paragraph {style text : String} {i : Item}
    (hi : (paragraph style (textRun text)).items = [i]) :
    shownText i = String.ofList (withoutReturns text.toList) := by
  rw [shownText_of_items hi, marksOf_paragraph]
  unfold textRun
  by_cases h : text.isEmpty = true
  · rw [if_pos h, String.isEmpty_iff.mp h]
    rfl
  · rw [if_neg h, List.flatMap_singleton, group, marksOf_element (by decide) (by decide),
      marksOf_lines, intercalate_lines]

/-! ## Paragraphs and nodes -/

theorem exists_items_paragraph (style : String) (content : List Tree) :
    ∃ i, (paragraph style content).items = [i] := ⟨_, items_element _ _ _⟩

theorem forall₂_paragraphs {R : Item → Node → Prop} {pictures : List Picture} {nodes : List Node}
    (text : ∀ style text i, (paragraph style (textRun text)).items = [i] →
      R i (.paragraph style text))
    (image : ∀ style source id p i, pictures.find? (·.source == source) = some p →
      (paragraph style [drawing p source id]).items = [i] → R i (.image style source))
    (missing : ∀ style source i, Node.image style source ∈ nodes →
      pictures.find? (·.source == source) = none → (paragraph style []).items = [i] →
        R i (.image style source))
    (id : Nat) : List.Forall₂ R ((paragraphs pictures id nodes).flatMap Tree.items) nodes := by
  fun_induction paragraphs pictures id nodes with
  | case1 => exact List.Forall₂.nil
  | case2 id style t nodes ih =>
    obtain ⟨i, hi⟩ := exists_items_paragraph style (textRun t)
    rw [List.flatMap_cons, hi]
    refine List.Forall₂.cons (text style t i hi) (ih fun s u j hm => ?_)
    exact missing s u j (List.mem_cons_of_mem _ hm)
  | case3 id style source nodes p hp ih =>
    obtain ⟨i, hi⟩ := exists_items_paragraph style [drawing p source id]
    rw [List.flatMap_cons, hi]
    refine List.Forall₂.cons (image style source id p i hp hi) (ih fun s u j hm => ?_)
    exact missing s u j (List.mem_cons_of_mem _ hm)
  | case4 id style source nodes hp ih =>
    obtain ⟨i, hi⟩ := exists_items_paragraph style []
    rw [List.flatMap_cons, hi]
    refine List.Forall₂.cons (missing style source i List.mem_cons_self hp hi)
      (ih fun s u j hm => ?_)
    exact missing s u j (List.mem_cons_of_mem _ hm)

/-- What a reader finds of a node in its paragraph. -/
structure Shows (p : Item) (n : Node) : Prop where
  style : p.values "w:pStyle" "w:val" = [some n.style]
  text : ∀ style text, n = .paragraph style text →
    shownText p = String.ofList (withoutReturns text.toList)

theorem forall₂_shows (pictures : List Picture) (id : Nat) (nodes : List Node) :
    List.Forall₂ Shows ((paragraphs pictures id nodes).flatMap Tree.items) nodes := by
  have hstyle : ∀ {style : String} {content : List Tree} {i : Item},
      (∀ t ∈ content, t.Sound) → content.flatMap (Tree.named "w:pStyle") = [] →
        (paragraph style content).items = [i] → i.values "w:pStyle" "w:val" = [some style] := by
    intro style content i hs hc hi
    rw [values_of_items (sound_paragraph hs) hi, named_pStyle_paragraph style hc, List.map_cons,
      value?_valuedTag]
    rfl
  apply forall₂_paragraphs
  · intro style text i hi
    refine ⟨hstyle (sound_textRun text) (named_textRun (by decide) text) hi, ?_⟩
    rintro style' text' ⟨⟩
    exact shownText_paragraph hi
  · intro style source id p i _ hi
    refine ⟨hstyle ?_ ?_ hi, ?_⟩
    · exact List.forall_mem_singleton.mpr (sound_drawing p source id)
    · rw [List.flatMap_singleton, named_drawing_eq_nil (by simp)]
    · rintro style' text' ⟨⟩
  · intro style source i _ _ hi
    refine ⟨hstyle (List.forall_mem_nil _) rfl hi, ?_⟩
    rintro style' text' ⟨⟩

theorem exists_of_mem_paragraphs {pictures : List Picture} {id : Nat} {nodes : List Node}
    {t : Tree} (h : t ∈ paragraphs pictures id nodes) : ∃ style content,
      t = paragraph style content ∧ (∀ u ∈ content, u.Sound) ∧
        content.flatMap (Tree.named "w:p") = [] := by
  fun_induction paragraphs pictures id nodes with
  | case1 => cases h
  | case2 id style text nodes ih =>
    rcases List.mem_cons.mp h with rfl | h
    · exact ⟨style, _, rfl, sound_textRun text, named_textRun (by decide) text⟩
    · exact ih h
  | case3 id style source nodes p hp ih =>
    rcases List.mem_cons.mp h with rfl | h
    · refine ⟨style, _, rfl, List.forall_mem_singleton.mpr (sound_drawing p source id), ?_⟩
      rw [List.flatMap_singleton, named_drawing_eq_nil (by simp)]
    · exact ih h
  | case4 id style source nodes hp ih =>
    rcases List.mem_cons.mp h with rfl | h
    · exact ⟨style, _, rfl, List.forall_mem_nil _, rfl⟩
    · exact ih h

theorem named_p_paragraph {style : String} {content : List Tree} (hs : ∀ t ∈ content, t.Sound)
    (hc : content.flatMap (Tree.named "w:p") = []) :
    (paragraph style content).items.flatMap (Item.named "w:p") =
      (paragraph style content).items := by
  refine named_items_self (sound_paragraph hs) ?_
  rw [List.flatMap_cons, hc]
  simp [group, valued, leaf]

theorem named_p_documentPart (d : Document) (pictures : List Picture) :
    (documentPart d pictures).items.flatMap (Item.named "w:p") =
      (paragraphs pictures 1 d.nodes).flatMap Tree.items := by
  have hpage : (pageSetup d.pageMargin).items.flatMap (Item.named "w:p") = [] := by
    refine named_items_eq_nil (sound_pageSetup d.pageMargin) ?_
    simp [pageSetup, group, leaf, valued]
  have hall : (paragraphs pictures 1 d.nodes).flatMap (fun t =>
      t.items.flatMap (Item.named "w:p")) = (paragraphs pictures 1 d.nodes).flatMap Tree.items := by
    refine List.flatMap_congr fun t ht => ?_
    obtain ⟨style, content, rfl, hs, hc⟩ := exists_of_mem_paragraphs ht
    exact named_p_paragraph hs hc
  rw [documentPart, named_items_of_ne (by decide), List.flatMap_singleton, group,
    named_items_of_ne (by decide), List.flatMap_append, hall, List.flatMap_singleton, hpage,
    List.append_nil]

/-! ## Shapes -/

/-- The number of lines of a text, none for an empty one; an image has no such number. -/
def lineCount? : Node → Option Nat
  | .paragraph _ text => some (if text.isEmpty then 0 else text.toList.count '\n' + 1)
  | .image _ _ => none

/-- The elements of a text with a number of lines. -/
def runShape (count : Nat) : Shape :=
  groupShape "w:r"
    ((List.replicate count (leafShape "w:t" ["xml:space"])).intersperse (leafShape "w:br"))

/-- The elements of a drawing. -/
def drawingShape : Shape :=
  groupShape "w:r" [groupShape "w:drawing" [.node "wp:inline" ["distT", "distB", "distL", "distR"] [
    leafShape "wp:extent" ["cx", "cy"],
    leafShape "wp:effectExtent" ["l", "t", "r", "b"],
    leafShape "wp:docPr" ["id", "name"],
    groupShape "wp:cNvGraphicFramePr" [leafShape "a:graphicFrameLocks" ["noChangeAspect"]],
    groupShape "a:graphic" [.node "a:graphicData" ["uri"] [groupShape "pic:pic" [
      groupShape "pic:nvPicPr" [leafShape "pic:cNvPr" ["id", "name"], leafShape "pic:cNvPicPr"],
      groupShape "pic:blipFill" [
        leafShape "a:blip" ["r:embed"],
        groupShape "a:stretch" [leafShape "a:fillRect"]],
      groupShape "pic:spPr" [
        groupShape "a:xfrm" [leafShape "a:off" ["x", "y"], leafShape "a:ext" ["cx", "cy"]],
        .node "a:prstGeom" ["prst"] [leafShape "a:avLst"]]]]]]]]

/-- The elements of a paragraph. -/
def paragraphShape (count? : Option Nat) : Shape :=
  groupShape "w:p" (groupShape "w:pPr" [leafShape "w:pStyle" ["w:val"]] ::
    match count? with
    | some 0 => []
    | some count => [runShape count]
    | none => [drawingShape])

/-- The elements of a document whose nodes have these numbers of lines. -/
def documentShape (counts : List (Option Nat)) : Shape :=
  .node "w:document" ["xmlns:w", "xmlns:r", "xmlns:wp", "xmlns:a", "xmlns:pic"]
    [groupShape "w:body" (counts.map paragraphShape ++ [groupShape "w:sectPr" [
      leafShape "w:type" ["w:val"],
      leafShape "w:pgSz" ["w:w", "w:h"],
      leafShape "w:pgMar"
        ["w:top", "w:right", "w:bottom", "w:left", "w:header", "w:footer", "w:gutter"]]])]

theorem shapes_textRun (text : String) : treesShapes (textRun text) =
    if text.isEmpty then [] else [runShape (text.toList.count '\n' + 1)] := by
  have hlines : ∀ ls : List (List Char),
      treesShapes ((ls.map lineText).intersperse (leaf "w:br")) =
        (List.replicate ls.length (leafShape "w:t" ["xml:space"])).intersperse
          (leafShape "w:br") := by
    intro ls
    induction ls with
    | nil => rfl
    | cons line ls ih =>
      cases ls with
      | nil => rfl
      | cons next ls =>
        rw [List.map_cons, List.map_cons, List.intersperse_cons_cons, treesShapes, treesShapes,
          ← List.map_cons, ih]
        rfl
  unfold textRun
  by_cases h : text.isEmpty = true
  · rw [if_pos h, if_pos h]
    rfl
  · rw [if_neg h, if_neg h, ← length_lines, treesShapes, group, Tree.shapes, hlines]
    rfl

theorem shapes_paragraphs {pictures : List Picture} {nodes : List Node}
    (h : ∀ style source, Node.image style source ∈ nodes →
      (pictures.find? (·.source == source)).isSome = true) (id : Nat) :
    treesShapes (paragraphs pictures id nodes) =
      nodes.map (paragraphShape ∘ lineCount?) := by
  fun_induction paragraphs pictures id nodes with
  | case1 => rfl
  | case2 id style text nodes ih =>
    have hp : (paragraph style (textRun text)).shapes =
        [paragraphShape (lineCount? (.paragraph style text))] := by
      rw [paragraph, group, Tree.shapes, treesShapes, shapes_textRun, lineCount?]
      by_cases he : text.isEmpty = true
      · rw [if_pos he, if_pos he]
        rfl
      · rw [if_neg he, if_neg he]
        rfl
    rw [treesShapes, ih fun s t hm => h s t (List.mem_cons_of_mem _ hm), hp]
    rfl
  | case3 id style source nodes p _ ih =>
    rw [treesShapes, ih fun s t hm => h s t (List.mem_cons_of_mem _ hm), List.map_cons]
    rfl
  | case4 id style source nodes hn ih =>
    have := h style source List.mem_cons_self
    rw [hn] at this
    cases this

/-- **The elements of the document** depend on nothing but the kinds of its nodes and the numbers
of their lines. -/
theorem shapes_documentPart {d : Document} {pictures : List Picture}
    (h : ∀ style source, Node.image style source ∈ d.nodes →
      (pictures.find? (·.source == source)).isSome = true) :
    (documentPart d pictures).shapes = [documentShape (d.nodes.map lineCount?)] := by
  have hbody : treesShapes (paragraphs pictures 1 d.nodes ++ [pageSetup d.pageMargin]) =
      treesShapes (paragraphs pictures 1 d.nodes) ++ (pageSetup d.pageMargin).shapes := by
    rw [treesShapes_eq, List.flatMap_append, ← treesShapes_eq, List.flatMap_singleton]
  rw [documentPart, group, Tree.shapes, treesShapes, treesShapes, Tree.shapes, hbody,
    shapes_paragraphs h, documentShape, List.map_map]
  rfl

end SheetMarkup.Docx
