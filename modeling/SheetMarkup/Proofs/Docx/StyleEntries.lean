import SheetMarkup.Proofs.Docx.Markup
import SheetMarkup.Proofs.Text.Decimal
import SheetMarkup.Proofs.Xml.Items

/-!
# Styles read back

The styles of a package hold one element for every style, and a reader finds in it all that the
style says.

* `Describes`, `describes_styleElement`: what is read of one style;
* **`forall₂_describes`**: the elements of all styles, in order;
* `stylesShape`, **`shapes_stylesPart`**: the elements of the styles depend on nothing but which
  style is the default one and which are based on others.
-/

namespace SheetMarkup.Docx

open Xml

/-! ## One style -/

/-- What a reader finds of a style in its element. Sizes are read as numbers. -/
structure Describes (defaultId : String) (i : Item) (s : Descriptor) : Prop where
  id : i.value? "w:styleId" = some s.id
  default : i.value? "w:default" = if s.id = defaultId then some "1" else none
  name : i.values "w:name" "w:val" = [some s.name]
  basedOn : i.values "w:basedOn" "w:val" = (basedOn? defaultId s).toList.map some
  font : ∀ key ∈ ["w:ascii", "w:hAnsi", "w:cs"], i.values "w:rFonts" key = [some s.font]
  color : i.values "w:color" "w:val" = [some s.color]
  size : ∀ name ∈ ["w:sz", "w:szCs"], ∃ digits, i.values name "w:val" = [some digits] ∧
    Text.digits? digits.toList = some s.size

theorem value?_val {value : String} (h : Written value) (name : String) :
    (tagOf name [("w:val", value)]).value? "w:val" = some (meaning value) := by
  have hs : SoundAttributes [("w:val", value)] :=
    soundAttributes_of_keys ["w:val"] rfl (by decide) (by simpa using h)
  rw [Tag.value?_tagOf hs]
  simp

theorem value?_fonts {font key : String} (h : key ∈ ["w:ascii", "w:hAnsi", "w:cs"]) :
    (tagOf "w:rFonts" [("w:ascii", escape font), ("w:hAnsi", escape font),
      ("w:cs", escape font)]).value? key = some font := by
  have hs : SoundAttributes [("w:ascii", escape font), ("w:hAnsi", escape font),
      ("w:cs", escape font)] :=
    soundAttributes_of_keys ["w:ascii", "w:hAnsi", "w:cs"] rfl (by decide)
      (by simp [written_escape])
  rw [Tag.value?_tagOf hs]
  simp only [List.mem_cons, List.not_mem_nil, or_false] at h
  rcases h with rfl | rfl | rfl <;> simp [List.lookup_cons]

theorem values_val {t : Tree} (ht : t.Sound) {i : Item} (hi : t.items = [i]) {name value : String}
    (hv : Written value) (hn : t.named name = [tagOf name [("w:val", value)]]) :
    i.values name "w:val" = [some (meaning value)] := by
  rw [values_of_items ht hi, hn, List.map_singleton, value?_val hv]

/-- **A reader finds in the element of a style what the style says.** -/
theorem describes_styleElement (defaultId : String) {s : Descriptor}
    (hc : isHexColor s.color.toList = true) {i : Item} (hi : (styleElement defaultId s).items = [i]) :
    Describes defaultId i s := by
  have ht := sound_styleElement defaultId hc
  have hspacing : ∀ name ∈ ["w:name", "w:rFonts", "w:color", "w:sz", "w:szCs"],
      spacing.named name = [] := by
    intro name hm
    refine named_spacing fun hp => ?_
    simp only [List.mem_cons, List.not_mem_nil, or_false] at hm hp
    rcases hp with rfl | rfl <;> simp at hm
  have hvalue : ∀ key, i.value? key = (styleTag defaultId s).value? key := by
    intro key
    rw [styleElement, items_element] at hi
    obtain rfl := List.singleton_inj.mp hi
    rfl
  refine ⟨?_, ?_, ?_, ?_, fun key hk => ?_, ?_, fun name hn => ?_⟩
  · rw [hvalue, value?_styleId]
  · rw [hvalue, value?_default]
  · rw [values_val ht hi (written_escape s.name), meaning_escape]
    simp [styleElement, group, leaf, fonts, sizes, valued, hspacing, List.flatMap_map]
  · rw [values_of_items ht hi, named_basedOn_styleElement, List.map_map]
    exact List.map_congr_left fun id _ => value?_valuedTag "w:basedOn" id
  · have hn : (styleElement defaultId s).named "w:rFonts" = [tagOf "w:rFonts"
        [("w:ascii", escape s.font), ("w:hAnsi", escape s.font), ("w:cs", escape s.font)]] := by
      simp [styleElement, group, leaf, fonts, sizes, valued, hspacing, List.flatMap_map]
    rw [values_of_items ht hi, hn, List.map_singleton, value?_fonts hk]
  · rw [values_val ht hi (written_color hc), meaning_of_plain (all_isPlain_color hc)]
    simp [styleElement, group, leaf, fonts, sizes, valued, hspacing, List.flatMap_map]
  · refine ⟨Text.decimal s.size, ?_, Text.digits?_decimal s.size⟩
    rw [values_val ht hi (written_decimal s.size), meaning_of_plain (all_isPlain_decimal s.size)]
    simp only [List.mem_cons, List.not_mem_nil, or_false] at hn
    rcases hn with rfl | rfl <;>
      simp [styleElement, group, leaf, fonts, sizes, valued, hspacing, List.flatMap_map]

/-! ## All styles -/

theorem named_style_items (defaultId : String) {s : Descriptor}
    (hc : isHexColor s.color.toList = true) :
    (styleElement defaultId s).items.flatMap (Item.named "w:style") =
      (styleElement defaultId s).items := by
  have hs : spacing.named "w:style" = [] := named_spacing (by decide)
  refine named_items_self (sound_styleElement defaultId hc) ?_
  simp [group, leaf, fonts, sizes, valued, hs, List.flatMap_map]

theorem forall₂_describes {d : Document} (h : ∀ s ∈ d.styles, isHexColor s.color.toList = true) :
    List.Forall₂ (Describes d.defaultStyle)
      ((stylesPart d).items.flatMap (Item.named "w:style")) (packageStyles d) := by
  have hdefaults : documentDefaults.items.flatMap (Item.named "w:style") = [] := by
    have hs : spacing.named "w:style" = [] := named_spacing (by decide)
    refine named_items_eq_nil sound_documentDefaults ?_
    simp [documentDefaults, group, leaf, fonts, sizes, valued, hs]
  have hall := isHexColor_of_mem h
  rw [stylesPart, named_items_of_ne (by decide), List.flatMap_cons, hdefaults, List.nil_append,
    List.flatMap_map]
  generalize packageStyles d = styles at hall
  induction styles with
  | nil => exact List.Forall₂.nil
  | cons s styles ih =>
    obtain ⟨hc, hall⟩ := List.forall_mem_cons.mp hall
    have hi : (styleElement d.defaultStyle s).items = [_] := items_element _ _ _
    rw [List.flatMap_cons, named_style_items d.defaultStyle hc, hi, List.singleton_append]
    exact List.Forall₂.cons (describes_styleElement d.defaultStyle hc hi) (ih hall)

/-! ## Shapes -/

def fontShape : Shape := leafShape "w:rFonts" ["w:ascii", "w:hAnsi", "w:cs"]

def sizeShapes : List Shape := [leafShape "w:sz" ["w:val"], leafShape "w:szCs" ["w:val"]]

def spacingShape : Shape :=
  groupShape "w:pPr" [leafShape "w:spacing" ["w:before", "w:after", "w:line", "w:lineRule"]]

/-- The elements of a style: whether it is the default one, and whether it is based on another. -/
def styleShape (isDefault isBased : Bool) : Shape :=
  .node "w:style" ["w:type", if isDefault then "w:default" else "w:customStyle", "w:styleId"] (
    [leafShape "w:name" ["w:val"]] ++
    (if isBased then [leafShape "w:basedOn" ["w:val"]] else []) ++
    [leafShape "w:next" ["w:val"], leafShape "w:uiPriority" ["w:val"], leafShape "w:qFormat",
      spacingShape, groupShape "w:rPr" (fontShape :: leafShape "w:color" ["w:val"] :: sizeShapes)])

/-- The elements of some styles. -/
def stylesShape (styles : List (Bool × Bool)) : Shape :=
  .node "w:styles" ["xmlns:w"] (
    groupShape "w:docDefaults" [
      groupShape "w:rPrDefault" [groupShape "w:rPr" (fontShape :: sizeShapes)],
      groupShape "w:pPrDefault" [spacingShape]] ::
    styles.map fun s => styleShape s.1 s.2)

theorem shapes_styleElement (defaultId : String) (s : Descriptor) :
    (styleElement defaultId s).shapes =
      [styleShape (s.id == defaultId) (basedOn? defaultId s).isSome] := by
  cases hb : basedOn? defaultId s <;> cases hd : s.id == defaultId <;>
    rw [styleElement, hb, hd] <;> rfl

/-- **The elements of the styles** depend on nothing but which style is the default one and which
are based on others. -/
theorem shapes_stylesPart (d : Document) : (stylesPart d).shapes =
    [stylesShape ((packageStyles d).map fun s =>
      (s.id == d.defaultStyle, (basedOn? d.defaultStyle s).isSome))] := by
  have hall : treesShapes ((packageStyles d).map (styleElement d.defaultStyle)) =
      (packageStyles d).map fun s =>
        styleShape (s.id == d.defaultStyle) (basedOn? d.defaultStyle s).isSome := by
    rw [treesShapes_eq, List.flatMap_map, List.map_eq_flatMap]
    exact List.flatMap_congr fun s _ => shapes_styleElement d.defaultStyle s
  rw [stylesPart, Tree.shapes, treesShapes, hall, stylesShape, List.map_map]
  rfl

end SheetMarkup.Docx
