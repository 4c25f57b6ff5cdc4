import SheetMarkup.Proofs.Workbook.PictureChain
import SheetMarkup.Workbook.SharedStrings

/-!
# Tables of shared strings

Cells refer to shared strings by their places in one table, so the reader has to give one string for
each item, in order: what its plain and rich runs say, without its phonetic runs, however the texts are
spelled and empty elements are written.

* `TextElement`, `StringRun`, `StringItem`, `StringTable`: a table and how it is written;
* `StringTable.legible`: a written table can be read back;
* `foldl_passed`, `foldl_text`, `foldl_run`, `foldl_item`: what the reader makes of each part (the steps);
* `foldl_runs`, `foldl_items`: of all runs and of all items (the run);
* **`stringsOf_table`**: the strings of a table.
-/

namespace SheetMarkup.Workbook

open Xml (Tree tagOf)

/-! ## Tables -/

/-- A text element, with any attributes and with its text spelled in any way. -/
structure TextElement where
  text : String
  spelling : Spelling text
  attributes : List (String × String)
  sound : Xml.SoundAttributes attributes

def TextElement.tree (t : TextElement) : Tree :=
  .element "t" t.attributes (t.spelling.written.toList.map Tree.text)

/-- The element opens or ends an item, a text or a phonetic run. -/
def isStringPart (name : String) : Bool := name == "si" || name == "rPh" || name == "t"

/-- The event belongs to what stands beside the texts of an item. -/
def isBeside : Xml.Event → Bool
  | .start tag => !isStringPart tag.localName
  | .empty tag => !isStringPart tag.localName
  | .close name => !isStringPart name
  | _ => true

/-- A run of an item. What tells the looks of a rich run stands before its text. -/
inductive StringRun where
  | plain (text : TextElement)
  | rich (looks : List Tree) (legible : ∀ t ∈ looks, t.Legible)
      (beside : ∀ t ∈ looks, ∀ e ∈ t.seen, isBeside e = true) (text : TextElement)
  | phonetic (attributes : List (String × String)) (sound : Xml.SoundAttributes attributes)
      (text : TextElement)

/-- What a run says: a phonetic run is no text of its item. -/
def StringRun.said : StringRun → String
  | plain text => text.text
  | rich _ _ _ text => text.text
  | phonetic .. => ""

def StringRun.tree : StringRun → Tree
  | plain text => text.tree
  | rich looks _ _ text => Xml.group "r" (looks ++ [text.tree])
  | phonetic attributes _ text => .element "rPh" attributes [text.tree]

/-- An item with its runs. Without any it has an end tag of its own, or closes itself. -/
structure StringItem where
  runs : List StringRun
  apart : Bool

def StringItem.said (i : StringItem) : String := String.join (i.runs.map StringRun.said)

def StringItem.tree (i : StringItem) : Tree :=
  Xml.group "si" (if i.runs.isEmpty && i.apart then [.text ""] else i.runs.map StringRun.tree)

/-- A table with its items. -/
structure StringTable where
  items : List StringItem
  attributes : List (String × String)
  sound : Xml.SoundAttributes attributes

def StringTable.tree (t : StringTable) : Tree :=
  .element "sst" t.attributes (t.items.map StringItem.tree)

/-- The markup of a table. -/
def StringTable.text (t : StringTable) : String := Xml.documentText t.tree

/-! ## Legibility -/

theorem TextElement.legible (t : TextElement) : t.tree.Legible := by
  rcases t with ⟨text, ⟨_ | written, spells⟩, attributes, sound⟩
  · exact .element (by decide) sound (by simp)
  · exact .data (by decide) sound spells

theorem StringRun.legible (r : StringRun) : r.tree.Legible := by
  have hnone : Xml.SoundAttributes [] := Xml.soundAttributes_of_plain (by decide) (by decide)
  cases r with
  | plain text => exact text.legible
  | rich looks legible beside text =>
    refine .element (by decide) hnone ?_
    rw [List.forall_mem_append, List.forall_mem_singleton]
    exact ⟨legible, text.legible⟩
  | phonetic attributes sound text =>
    refine .element (by decide) sound ?_
    rw [List.forall_mem_singleton]
    exact text.legible

theorem StringItem.legible (i : StringItem) : i.tree.Legible := by
  have hnone : Xml.SoundAttributes [] := Xml.soundAttributes_of_plain (by decide) (by decide)
  unfold StringItem.tree
  split_ifs
  · exact .data (by decide) hnone .nil
  · exact .element (by decide) hnone (List.forall_mem_map.mpr fun r _ => r.legible)

theorem StringTable.legible (t : StringTable) : t.tree.Legible :=
  .element (by decide) t.sound (List.forall_mem_map.mpr fun i _ => i.legible)

/-! ## Reading -/

/-- Adds to the string that is read, inside of a text. -/
def Table.addText (t : Table) (s : String) : Table :=
  if t.inText then { t with current := t.current ++ s } else t

theorem Table.addText_empty (t : Table) : t.addText "" = t := by
  rcases t with ⟨strings, current, inItem, _ | _, inPhonetic⟩ <;> simp [addText]

theorem Table.addText_addText (t : Table) (s s' : String) :
    (t.addText s).addText s' = t.addText (s ++ s') := by
  rcases t with ⟨strings, current, inItem, _ | _, inPhonetic⟩ <;> simp [addText, String.append_assoc]

theorem step_beside {e : Xml.Event} (h : isBeside e = true) {t : Table} (ht : t.inText = false) :
    t.step e = t := by
  have hname : ∀ {name : String}, (!isStringPart name) = true →
      name ≠ "si" ∧ name ≠ "rPh" ∧ name ≠ "t" := by
    intro name hname
    simpa [isStringPart, and_assoc] using hname
  cases e with
  | start tag =>
    obtain ⟨hsi, hrPh, ht'⟩ := hname h
    rw [Table.step]
    split
    · next heq => exact absurd heq hsi
    · next heq => exact absurd heq hrPh
    · next heq => exact absurd heq ht'
    · rfl
  | empty tag =>
    rw [Table.step, if_neg (by simpa using (hname h).1)]
  | close name =>
    obtain ⟨hsi, hrPh, ht'⟩ := hname h
    rw [Table.step.eq_def]
    dsimp only
    split
    · exact absurd rfl hsi
    · exact absurd rfl hrPh
    · exact absurd rfl ht'
    · rfl
  | text s => rw [Table.step, ht]; rfl
  | reference name => rw [Table.step, ht]; rfl

theorem foldl_passed {events : List Xml.Event} (h : ∀ e ∈ events, isBeside e = true) {t : Table}
    (ht : t.inText = false) : events.foldl Table.step t = t := by
  induction events with
  | nil => rfl
  | cons e events ih =>
    rw [List.forall_mem_cons] at h
    rw [List.foldl_cons, step_beside h.1 ht, ih h.2]

/-- **A text is added to its item, unless it stands in a phonetic run.** -/
theorem foldl_text (t : TextElement) (done : List String) (said : String) (phonetic : Bool) :
    t.tree.seen.foldl Table.step ⟨done, said, true, false, phonetic⟩ =
      ⟨done, if phonetic then said else said ++ t.text, true, false, phonetic⟩ := by
  rcases t with ⟨text, ⟨_ | written, spells⟩, attributes, sound⟩
  · obtain rfl : text = "" := String.toList_inj.mp (spells.eq_nil rfl)
    cases phonetic <;> simp [TextElement.tree, Xml.seen_leaf] <;> rfl
  · have htext : ∀ (r : Table) (s : String), r.step (.text s) = r.addText s := fun _ _ => rfl
    have hreference : ∀ (r : Table) (name : List Char),
        r.step (.reference name) = r.addText (String.ofList (Xml.resolve name)) := fun _ _ => rfl
    have hdata := Xml.foldl_data htext hreference Table.addText_empty Table.addText_addText spells
      ⟨done, said, true, !phonetic, phonetic⟩
    rw [String.ofList_toList] at hdata
    have hseen : (TextElement.tree ⟨text, ⟨some written, spells⟩, attributes, sound⟩).seen =
        .start (tagOf "t" attributes) :: (Xml.dataEvents written.toList ++ [.close "t"]) := by
      simp [TextElement.tree, Tree.seen, Xml.treesSeen]
      rfl
    rw [hseen, List.foldl_cons, List.foldl_append]
    refine (congrArg (fun r => Table.step r (.close "t")) hdata).trans ?_
    cases phonetic <;> rfl

theorem foldl_run (r : StringRun) (done : List String) (said : String) :
    r.tree.seen.foldl Table.step ⟨done, said, true, false, false⟩ =
      ⟨done, said ++ r.said, true, false, false⟩ := by
  cases r with
  | plain text => exact foldl_text text done said false
  | rich looks legible beside text =>
    have hlooks : (looks.flatMap Tree.seen).foldl Table.step ⟨done, said, true, false, false⟩ =
        ⟨done, said, true, false, false⟩ := by
      refine foldl_passed (fun e he => ?_) rfl
      obtain ⟨t, ht, he⟩ := List.mem_flatMap.mp he
      exact beside t ht e he
    rw [StringRun.tree, Xml.group, Xml.seen_element (by simp), List.foldl_cons, List.foldl_append,
      List.flatMap_append, List.flatMap_singleton, List.foldl_append]
    refine congrArg (fun t => Table.step t (.close "r"))
      ((congrArg (fun t => text.tree.seen.foldl Table.step t) hlooks).trans ?_)
    exact foldl_text text done said false
  | phonetic attributes sound text =>
    rw [StringRun.tree, Xml.seen_element (by simp), List.foldl_cons, List.foldl_append,
      List.flatMap_singleton, StringRun.said, String.append_empty]
    exact congrArg (fun t => Table.step t (.close "rPh")) (foldl_text text done said true)

theorem foldl_runs (runs : List StringRun) (done : List String) (said : String) :
    ((runs.map StringRun.tree).flatMap Tree.seen).foldl Table.step ⟨done, said, true, false, false⟩ =
      ⟨done, said ++ String.join (runs.map StringRun.said), true, false, false⟩ := by
  induction runs generalizing said with
  | nil => rw [List.map_nil, List.map_nil, String.join_nil, String.append_empty]; rfl
  | cons run runs ih =>
    rw [List.map_cons, List.flatMap_cons, List.foldl_append, foldl_run, ih, List.map_cons,
      String.join_cons, String.append_assoc]

/-- **An item gives one string**, whether it closes itself or not. -/
theorem foldl_item (i : StringItem) (done : List String) :
    i.tree.seen.foldl Table.step ⟨done, "", false, false, false⟩ =
      ⟨i.said :: done, "", false, false, false⟩ := by
  have hopened : ∀ children : List Tree, children ≠ [] →
      (children.flatMap Tree.seen).foldl Table.step ⟨done, "", true, false, false⟩ =
        ⟨done, i.said, true, false, false⟩ →
      (Xml.group "si" children).seen.foldl Table.step ⟨done, "", false, false, false⟩ =
        ⟨i.said :: done, "", false, false, false⟩ := by
    intro children hne hchildren
    rw [Xml.group, Xml.seen_element hne, List.foldl_cons, List.foldl_append]
    exact congrArg (fun t => Table.step t (.close "si")) hchildren
  cases hruns : i.runs with
  | nil =>
    have hsaid : i.said = "" := by rw [StringItem.said, hruns]; rfl
    cases hapart : i.apart with
    | false =>
      have htree : i.tree = Xml.group "si" [] := by simp [StringItem.tree, hruns, hapart]
      rw [htree, hsaid]
      rfl
    | true =>
      have htree : i.tree = Xml.group "si" [.text ""] := by simp [StringItem.tree, hruns, hapart]
      rw [htree]
      refine hopened _ (by simp) ?_
      rw [Xml.seen_nothing, hsaid]
      rfl
  | cons run runs =>
    have htree : i.tree = Xml.group "si" (i.runs.map StringRun.tree) := by
      simp [StringItem.tree, hruns]
    have hread := foldl_runs i.runs done ""
    rw [String.empty_append] at hread
    rw [htree]
    exact hopened _ (by simp [hruns]) hread

theorem foldl_items (items : List StringItem) :
    ((items.map StringItem.tree).flatMap Tree.seen).foldl Table.step {} =
      ⟨(items.map StringItem.said).reverse, "", false, false, false⟩ := by
  refine foldl_listed (fun done (t : Table) => t = ⟨done.reverse, "", false, false, false⟩) rfl ?_
  rintro i - done t rfl
  rw [foldl_item, List.reverse_append]
  rfl

/-- **The strings of a table**, one for each of its items and in their order: what the plain and rich
runs of the item say. -/
theorem stringsOf_table (part : String) (t : StringTable) :
    readMarkup part t.text (fun events => .ok (stringsOf events)) =
      .ok (t.items.map StringItem.said) := by
  have hread : t.tree.seen.foldl Table.step {} =
      ⟨(t.items.map StringItem.said).reverse, "", false, false, false⟩ := by
    rw [← foldl_items]
    cases hitems : t.items with
    | nil =>
      rw [StringTable.tree, hitems]
      rfl
    | cons i items =>
      rw [StringTable.tree, hitems, Xml.seen_element (by simp), List.foldl_cons, List.foldl_append]
      rfl
  have hevents : Xml.events t.text = ⟨t.tree.seen, true⟩ := Xml.events_of_legible t.legible
  rw [readMarkup, hevents]
  show Except.ok (stringsOf t.tree.seen) = _
  rw [stringsOf, hread, List.reverse_reverse]

end SheetMarkup.Workbook
