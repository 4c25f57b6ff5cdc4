import SheetMarkup.Proofs.Workbook.CellReading
import SheetMarkup.Proofs.Workbook.WrittenTables

/-!
# Reading picture tables

Each part that holds a picture table has a reader of its own. What it makes of the part as it is
written is the table.

* **`index?_eq_some`**: which texts are an index;
* `foldl_element`, `foldl_single`, `foldl_listed`: what a reader makes of an element and of some elements;
* **`richValuesOf_seen`**, **`imageKeysOf_seen`**: the rich values and their structures;
* **`relationIdsOf_seen`**, **`relationshipsOf_seen`**: the relations and their relationships;
* `Reads`: how far the metadata are read;
* **`metadataOf_seen`**: the rich values of the value metadata.
-/

namespace SheetMarkup.Workbook

open Xml (Tree tagOf)

/-! ## Numbers -/

/-- **An index is a number that a text denotes**, as far as 64 bits go. -/
theorem index?_eq_some {s : String} {n : Nat} :
    index? s = some n ↔ Text.Denotes s n ∧ n < Text.bound64 := by
  rw [index?, Text.parseNat?_eq_some, Text.trim_toList]
  refine and_congr_left fun _ => ⟨fun h => ?_, ?_⟩
  · obtain ⟨before, after, hs, hout⟩ := Text.exists_around Text.isBlank s.toList
    exact ⟨before, _, after, hs, hout, h⟩
  · rintro ⟨before, cs, after, hs, hout, h⟩
    rw [hs, Text.trimChars, Text.trimWhile_around h.ne_nil h.isBlank hout]
    exact h

theorem index?_decimal_eq_some {n m : Nat} :
    index? (Text.decimal n) = some m ↔ m = n ∧ n < Text.bound64 := by
  have hnumber := (Text.parseNat?_eq_some.mp (parseNat?_decimal n.lt_succ_self)).1
  rw [index?, trim_decimal, Text.parseNat?_eq_some]
  constructor
  · rintro ⟨h, hm⟩
    obtain rfl := h.unique hnumber
    exact ⟨rfl, hm⟩
  · rintro ⟨rfl, hm⟩
    exact ⟨hnumber, hm⟩

/-! ## Elements -/

theorem attribute?_escaped {attributes : List (String × String)} {i : Nat} (name key : String)
    (keys : List String) (ha : attributes.map Prod.fst = keys) (hk : Xml.areKeys keys = true)
    (hi : (keys.findIdx fun k => String.ofList (Xml.localName k.toList) == key) = i) :
    (tagOf name (escaped attributes)).attribute? key = (attributes[i]?).map Prod.snd := by
  have hkeys : (escaped attributes).map Prod.fst = keys := by
    rw [escaped, List.map_map]
    exact ha
  have hplace : ((escaped attributes).findIdx fun a =>
      String.ofList (Xml.localName a.1.toList) == key) = i := by
    rw [← hi, ← hkeys, List.findIdx_map]
    rfl
  rw [Xml.Tag.attribute?_tagOf (soundAttributes_escaped (ha ▸ hk)), List.find?_eq_getElem?_findIdx,
    hplace, escaped, List.getElem?_map, Option.map_map]
  exact congrArg (fun f => Option.map f _) (funext fun a => Xml.meaning_escape a.2)

/-- **What is seen of an element.** One without content may close itself. -/
theorem seen_element_cases (l : TableLayout) (name : String) (attributes : List (String × String))
    (children : List Tree) :
    (l.element name attributes children).seen = .start (tagOf name (escaped attributes)) ::
        (children.flatMap Tree.seen ++ [.close (String.ofList (Xml.localName name.toList))]) ∨
      children = [] ∧ l.apart name = false ∧
        (l.element name attributes children).seen = [.empty (tagOf name (escaped attributes))] := by
  cases children with
  | nil =>
    cases hapart : l.apart name with
    | false =>
      have helement : l.element name attributes [] = .element name (escaped attributes) [] := by
        simp [TableLayout.element, hapart]
      rw [helement]
      exact .inr ⟨rfl, rfl, Xml.seen_leaf name _⟩
    | true =>
      have helement : l.element name attributes [] =
          .element name (escaped attributes) [.text ""] := by
        simp [TableLayout.element, hapart]
      rw [helement, Xml.seen_element (by simp), Xml.seen_nothing]
      exact .inl rfl
  | cons t ts =>
    have helement : l.element name attributes (t :: ts) =
        .element name (escaped attributes) (t :: ts) := rfl
    rw [helement]
    exact .inl (Xml.seen_element (by simp) name _)

section Folds

variable {σ : Type} {step : σ → Xml.Event → σ} (l : TableLayout)

variable (step) in
theorem foldl_element_cases (name : String) (attributes : List (String × String))
    (children : List Tree) (r : σ) :
    (l.element name attributes children).seen.foldl step r =
        step ((children.flatMap Tree.seen).foldl step
          (step r (.start (tagOf name (escaped attributes)))))
          (.close (String.ofList (Xml.localName name.toList))) ∨
      children = [] ∧ l.apart name = false ∧
        (l.element name attributes children).seen.foldl step r =
          step r (.empty (tagOf name (escaped attributes))) := by
  rcases seen_element_cases l name attributes children with h | ⟨hnone, hapart, h⟩
  · rw [h, List.foldl_cons, List.foldl_append]
    exact .inl rfl
  · rw [h]
    exact .inr ⟨hnone, hapart, rfl⟩

/-- **What a reader makes of an element**, if one that closes itself says what it says without
content. -/
theorem foldl_element {name : String} {attributes : List (String × String)} {children : List Tree}
    {r r' : σ}
    (hopened : step ((children.flatMap Tree.seen).foldl step
      (step r (.start (tagOf name (escaped attributes)))))
        (.close (String.ofList (Xml.localName name.toList))) = r')
    (hclosed : children = [] → l.apart name = false →
      step r (.empty (tagOf name (escaped attributes))) = r') :
    (l.element name attributes children).seen.foldl step r = r' := by
  rcases foldl_element_cases step l name attributes children r with h | ⟨hnone, hapart, h⟩
  · exact h.trans hopened
  · exact h.trans (hclosed hnone hapart)

theorem foldl_single {name : String} {attributes : List (String × String)} {child : Tree} {r r' : σ}
    (h : step (child.seen.foldl step (step r (.start (tagOf name (escaped attributes)))))
      (.close (String.ofList (Xml.localName name.toList))) = r') :
    (l.element name attributes [child]).seen.foldl step r = r' := by
  refine foldl_element l ?_ fun hnone => absurd hnone (by simp)
  rw [List.flatMap_singleton]
  exact h

theorem foldl_kept (Kept : σ → Prop) {ts : List Tree} {r : σ} (hr : Kept r)
    (h : ∀ t ∈ ts, ∀ r, Kept r → Kept (t.seen.foldl step r)) :
    Kept ((ts.flatMap Tree.seen).foldl step r) := by
  induction ts generalizing r with
  | nil => exact hr
  | cons t ts ih =>
    rw [List.forall_mem_cons] at h
    rw [List.flatMap_cons, List.foldl_append]
    exact ih (h.1 r hr) h.2

/-- **What a reader makes of some elements**, if each of them adds one entry to what it has listed. -/
theorem foldl_listed {α β : Type} (Lists : List β → σ → Prop) {f : α → Tree} {g : α → β}
    {xs : List α} {r : σ} (hr : Lists [] r)
    (h : ∀ x ∈ xs, ∀ done r, Lists done r → Lists (done ++ [g x]) ((f x).seen.foldl step r)) :
    Lists (xs.map g) (((xs.map f).flatMap Tree.seen).foldl step r) := by
  have hrun : ∀ done r, Lists done r →
      Lists (done ++ xs.map g) (((xs.map f).flatMap Tree.seen).foldl step r) := by
    clear hr
    induction xs with
    | nil =>
      intro done r hr
      simpa using hr
    | cons x xs ih =>
      rw [List.forall_mem_cons] at h
      intro done r hr
      have hrest := ih h.2 _ _ (h.1 done r hr)
      simpa using hrest
  exact hrun [] r hr

end Folds

/-! ## Rich values -/

/-- Adds to the text of the value that is read. -/
def RichValueReader.addText (r : RichValueReader) (s : String) : RichValueReader :=
  { r with text := r.text.map (· ++ s) }

theorem RichValueReader.addText_empty (r : RichValueReader) : r.addText "" = r := by
  rcases r with ⟨done, current, _ | text⟩ <;> simp [addText]

theorem RichValueReader.addText_addText (r : RichValueReader) (s t : String) :
    (r.addText s).addText t = r.addText (s ++ t) := by
  rcases r with ⟨done, current, _ | text⟩ <;> simp [addText, String.append_assoc]

theorem foldl_value {text : String} (s : Spelling text) (done : List RichValue) (v : RichValue) :
    (s.element "v").seen.foldl RichValueReader.step ⟨done, some v, none⟩ =
      ⟨done, some { v with values := v.values ++ [text] }, none⟩ := by
  rcases s with ⟨_ | written, spells⟩
  · obtain rfl : text = "" := String.toList_inj.mp (spells.eq_nil rfl)
    rfl
  · have htext : ∀ (r : RichValueReader) (s : String), r.step (.text s) = r.addText s :=
      fun _ _ => rfl
    have hreference : ∀ (r : RichValueReader) (name : List Char),
        r.step (.reference name) = r.addText (String.ofList (Xml.resolve name)) := fun _ _ => rfl
    have hdata := Xml.foldl_data htext hreference RichValueReader.addText_empty
      RichValueReader.addText_addText spells ⟨done, some v, some ""⟩
    rw [String.ofList_toList] at hdata
    have hseen : (Spelling.element ⟨some written, spells⟩ "v").seen =
        .start (tagOf "v" []) :: (Xml.dataEvents written.toList ++ [.close "v"]) := by
      simp [Spelling.element, Tree.seen, Xml.treesSeen]
      rfl
    rw [hseen, List.foldl_cons, List.foldl_append]
    refine (congrArg (fun r => RichValueReader.step r (.close "v")) hdata).trans ?_
    simp [RichValueReader.addText, RichValueReader.step, RichValueReader.addValue]

theorem foldl_richValue {l : TableLayout} {v : Nat × List String} (hv : v.1 < Text.bound64)
    (done : List RichValue) :
    (l.richValue v).seen.foldl RichValueReader.step ⟨done, none, none⟩ =
      ⟨⟨some v.1, v.2⟩ :: done, none, none⟩ := by
  have hindex : (tagOf "rv" (escaped [("s", Text.decimal v.1)])).attribute? "s" =
      some (Text.decimal v.1) :=
    attribute?_escaped (i := 0) "rv" "s" ["s"] rfl (by decide) (by decide)
  have hstart : RichValueReader.step ⟨done, none, none⟩
      (.start (tagOf "rv" (escaped [("s", Text.decimal v.1)]))) =
        ⟨done, some ⟨some v.1, []⟩, none⟩ := by
    show RichValueReader.mk done (some ⟨Option.bind _ index?, []⟩) none = _
    rw [hindex, Option.bind_some, index?_decimal hv]
  have hvalues : ((v.2.map fun text => (l.spelling text).element "v").flatMap Tree.seen).foldl
      RichValueReader.step ⟨done, some ⟨some v.1, []⟩, none⟩ =
        ⟨done, some ⟨some v.1, v.2.map id⟩, none⟩ := by
    refine foldl_listed (fun values (r : RichValueReader) =>
      r = ⟨done, some ⟨some v.1, values⟩, none⟩) rfl ?_
    rintro text - values r rfl
    exact foldl_value (l.spelling text) done ⟨some v.1, values⟩
  -- a rich value always has an end tag of its own
  refine foldl_element l ?_ fun _ hapart => absurd (l.apartValues.symm.trans hapart) (by simp)
  rw [hstart, hvalues, List.map_id]
  rfl

/-- **Rich values are read as they are written.** -/
theorem richValuesOf_seen (l : TableLayout) (t : PictureTables) :
    richValuesOf (l.valueTree t).seen = t.values.map fun v => ⟨some v.1, v.2⟩ := by
  have hindex : ∀ v ∈ t.values, v.1 < Text.bound64 := by
    intro v hv
    obtain ⟨keys, hkeys, -⟩ := t.keyed v hv
    have hlength : t.structures.length < Text.bound64 := t.fits _ (by simp)
    exact (List.getElem?_eq_some_iff.mp hkeys).1.trans hlength
  have hvalues : ((t.values.map l.richValue).flatMap Tree.seen).foldl RichValueReader.step {} =
      ⟨(t.values.map fun v => ⟨some v.1, v.2⟩).reverse, none, none⟩ := by
    refine foldl_listed (fun done (r : RichValueReader) => r = ⟨done.reverse, none, none⟩) rfl ?_
    rintro v hv done r rfl
    rw [foldl_richValue (hindex v hv), List.reverse_append]
    rfl
  have hread : (l.valueTree t).seen.foldl RichValueReader.step {} =
      ⟨(t.values.map fun v => ⟨some v.1, v.2⟩).reverse, none, none⟩ := by
    refine foldl_element l (congrArg (fun r => RichValueReader.step r _) hvalues) ?_
    intro hnone _
    rw [List.map_eq_nil_iff.mp hnone]
    rfl
  rw [richValuesOf, hread, List.reverse_reverse]

/-! ## Structures -/

theorem foldl_structureKey (l : TableLayout) (key : String) (positions : List (Option Nat))
    (keys : List String) :
    (l.structureKey key).seen.foldl ImageKeyReader.step ⟨positions, keys⟩ =
      ⟨positions, keys ++ [key]⟩ := by
  have hname : (tagOf "k" (escaped [("n", key), ("t", "i")])).attribute? "n" = some key :=
    attribute?_escaped (i := 0) "k" "n" ["n", "t"] rfl (by decide) (by decide)
  refine foldl_element l ?_ fun _ _ => ?_
  · show ImageKeyReader.mk positions (keys ++ [Option.getD _ ""]) = _
    rw [hname, Option.getD_some]
  · show ImageKeyReader.mk positions (keys ++ [Option.getD _ ""]) = _
    rw [hname, Option.getD_some]

theorem positions_richStructure (l : TableLayout) (keys : List String) (r : ImageKeyReader) :
    ((l.richStructure keys).seen.foldl ImageKeyReader.step r).positions =
      keys.findIdx? (· == imageKey) :: r.positions := by
  have hkeys : ((keys.map l.structureKey).flatMap Tree.seen).foldl ImageKeyReader.step
      ⟨r.positions, []⟩ = ⟨r.positions, keys.map id⟩ := by
    refine foldl_listed (fun keys (r' : ImageKeyReader) => r' = ⟨r.positions, keys⟩) rfl ?_
    rintro key - keys r' rfl
    exact foldl_structureKey l key r.positions keys
  rw [List.map_id] at hkeys
  rcases foldl_element_cases ImageKeyReader.step l "s" [("t", "_localImage")]
    (keys.map l.structureKey) r with h | ⟨hnone, -, h⟩
  · rw [TableLayout.richStructure, h]
    exact congrArg (fun r => (ImageKeyReader.step r (.close "s")).positions) hkeys
  · rw [TableLayout.richStructure, h, List.map_eq_nil_iff.mp hnone]
    rfl

theorem imageKeysOf_seen (l : TableLayout) (t : PictureTables) :
    imageKeysOf (l.structureTree t).seen =
      t.structures.map fun keys => keys.findIdx? (· == imageKey) := by
  have hstructures : (((t.structures.map l.richStructure).flatMap Tree.seen).foldl
      ImageKeyReader.step {}).positions =
        (t.structures.map fun keys => keys.findIdx? (· == imageKey)).reverse := by
    refine foldl_listed (fun done (r : ImageKeyReader) => r.positions = done.reverse) rfl ?_
    intro keys _ done r hr
    rw [positions_richStructure, hr, List.reverse_append]
    rfl
  rw [imageKeysOf, ← List.reverse_reverse (t.structures.map _), ← hstructures]
  refine congrArg List.reverse ?_
  rcases foldl_element_cases ImageKeyReader.step l "rvStructures"
    [("xmlns", TableLayout.richNamespace), ("count", Text.decimal t.structures.length)]
    (t.structures.map l.richStructure) {} with h | ⟨hnone, -, h⟩
  · rw [TableLayout.structureTree, h]
    rfl
  · rw [TableLayout.structureTree, h, hnone]
    rfl

/-! ## Relations -/

theorem openedTags_element (l : TableLayout) (name : String) (attributes : List (String × String))
    (children : List Tree) :
    (l.element name attributes children).seen.filterMap openedTag? =
      tagOf name (escaped attributes) ::
        children.flatMap fun child => child.seen.filterMap openedTag? := by
  rcases seen_element_cases l name attributes children with h | ⟨hnone, -, h⟩
  · have hopened : openedTag? (.start (tagOf name (escaped attributes))) =
        some (tagOf name (escaped attributes)) := rfl
    rw [h, List.filterMap_cons_some hopened, List.filterMap_append, List.filterMap_flatMap]
    simp [openedTag?]
  · rw [h, hnone]
    rfl

theorem openedTags_leaves {α : Type} (l : TableLayout) (root name : String)
    (rootAttributes : List (String × String)) (attributes : α → List (String × String))
    (xs : List α) :
    (l.element root rootAttributes (xs.map fun x => l.element name (attributes x) [])).seen.filterMap
        openedTag? =
      tagOf root (escaped rootAttributes) :: xs.map fun x => tagOf name (escaped (attributes x)) := by
  rw [openedTags_element, List.flatMap_map]
  simp only [openedTags_element, List.flatMap_nil]
  rw [← List.map_eq_flatMap]

theorem relationIdsOf_seen (l : TableLayout) (t : PictureTables) :
    relationIdsOf (l.relationTree t).seen = t.ids := by
  have hid : ∀ id, (tagOf "rel" (escaped [("r:id", id)])).attribute? "id" = some id :=
    fun id => attribute?_escaped (i := 0) "rel" "id" ["r:id"] rfl (by decide) (by decide)
  have htags := openedTags_leaves l "richValueRels" "rel" [("xmlns", TableLayout.richNamespace),
    ("xmlns:r", TableLayout.relationNamespace)] (fun id => [("r:id", id)]) t.ids
  refine (congrArg (List.filterMap _) htags).trans ?_
  show (t.ids.map _).filterMap _ = t.ids
  rw [List.filterMap_map]
  conv_rhs => rw [← List.filterMap_some (l := t.ids)]
  refine List.filterMap_congr fun id _ => ?_
  show some (Option.getD _ "") = some id
  rw [hid, Option.getD_some]

theorem relationship?_written (part : String) (r : String × String) :
    relationship? part (tagOf "Relationship" (escaped (TableLayout.relationshipAttributes r))) =
      some (r.1, resolveTarget part r.2) := by
  have hkeys : (TableLayout.relationshipAttributes r).map Prod.fst = ["Id", "Type", "Target"] := rfl
  have hsound : Xml.areKeys ["Id", "Type", "Target"] = true := by decide
  have hid := attribute?_escaped (i := 0) "Relationship" "Id" _ hkeys hsound (by decide)
  have htarget := attribute?_escaped (i := 2) "Relationship" "Target" _ hkeys hsound (by decide)
  have hmode := attribute?_escaped (i := 3) "Relationship" "TargetMode" _ hkeys hsound (by decide)
  rw [relationship?, hid, htarget, hmode]
  rfl

/-- **Relationships are read as they are written**, the last one first. -/
theorem relationshipsOf_seen (l : TableLayout) (t : PictureTables) (part : String) :
    relationshipsOf part (l.relationshipTree t).seen =
      (t.relationships.map fun r => (r.1, resolveTarget part r.2)).reverse := by
  have htags := openedTags_leaves l "Relationships" "Relationship"
    [("xmlns", "http://schemas.openxmlformats.org/package/2006/relationships")]
    TableLayout.relationshipAttributes t.relationships
  rw [relationshipsOf, ← List.filterMap_filterMap]
  refine congrArg List.reverse ((congrArg (List.filterMap _) htags).trans ?_)
  show (t.relationships.map _).filterMap _ = _
  rw [List.filterMap_map, ← List.filterMap_eq_map]
  exact List.filterMap_congr fun r _ => relationship?_written part r

end SheetMarkup.Workbook
