import SheetMarkup.Proofs.Xml.Exchange
import SheetMarkup.Workbook.Worksheet

/-!
# Namespaces in a worksheet

An attribute is found by its local name, and that of the declaration of a prefix is the prefix. So a
declaration hides the attributes behind it whose local name is the prefix, and is not seen otherwise.

* `AttributeText.Declares`: the attribute declares a prefix;
* `keysRead`, `ReadAlike`: the attributes that are read of an element;
* `step_alike`, `worksheetRows_alike`: tags that are read alike (the step and the run);
* **`rows_declaration`**: what the declaration of a prefix changes;
* `rows_declaration_differ`: a cell without an address that is given one.
-/

namespace SheetMarkup.Workbook

open Xml (AttributeText Event ReadsUpTo Reading Tag TagText)

/-- The attribute declares a prefix. -/
def Declares (d : AttributeText) (prefixName : String) : Prop :=
  d.key = "xmlns:".toList ++ prefixName.toList

theorem Declares.localName {d : AttributeText} {q : String} (h : Declares d q) : d.localName = q := by
  rw [AttributeText.localName, h]
  exact String.ofList_toList

/-! ## Elements that are read alike -/

/-- The attributes that are read of an element of a worksheet. -/
def keysRead (name : String) : List String :=
  match name with
  | "row" => ["r"]
  | "c" => ["r", "t", "vm"]
  | _ => []

/-- Two tags of one name, with the same values of all that is read. -/
structure ReadAlike (t t' : Tag) : Prop where
  name : t.name = t'.name
  attribute? : ∀ key ∈ keysRead t.localName, t.attribute? key = t'.attribute? key

variable {strings : List String} {pictures : PictureIndex}

namespace ReadAlike

variable {t t' : Tag} (h : ReadAlike t t')
include h

theorem localName : t.localName = t'.localName := by
  rw [Tag.localName, Tag.localName, h.name]

theorem startRow (hrow : t.localName = "row") (r : SheetReader) : r.startRow t = r.startRow t' := by
  have hkeys := h.attribute?
  rw [hrow] at hkeys
  rw [SheetReader.startRow, SheetReader.startRow, hkeys "r" (by simp [keysRead])]

theorem startCell (hcell : t.localName = "c") (row : PendingRow) :
    row.startCell t = row.startCell t' := by
  have hkeys := h.attribute?
  rw [hcell] at hkeys
  rw [PendingRow.startCell, PendingRow.startCell, hkeys "r" (by simp [keysRead]),
    hkeys "t" (by simp [keysRead]), hkeys "vm" (by simp [keysRead])]

end ReadAlike

theorem step_alike {e e' : Event} (h : e.Alike ReadAlike e') (r : SheetReader) :
    SheetReader.step strings pictures r e = SheetReader.step strings pictures r e' := by
  cases h with
  | same => rfl
  | start h =>
    simp only [SheetReader.step, ← h.localName]
    split
    · next hrow => simp only [h.startRow hrow]
    · next hcell => simp only [h.startCell hcell]
    all_goals rfl
  | empty h =>
    simp only [SheetReader.step, ← h.localName]
    split
    · next hrow => simp only [h.startRow hrow]
    · next hcell => simp only [h.startCell hcell]
    all_goals rfl

theorem foldlM_alike {es es' : List Event} (h : List.Forall₂ (Event.Alike ReadAlike) es es')
    (r : SheetReader) : es.foldlM (SheetReader.step strings pictures) r =
      es'.foldlM (SheetReader.step strings pictures) r := by
  induction h generalizing r with
  | nil => rfl
  | cons he _ ih =>
    rw [List.foldlM_cons, List.foldlM_cons, step_alike he]
    exact congrArg _ (funext ih)

/-- **Markup that is seen alike is read as the same rows**, or refused alike. -/
theorem readMarkup_alike {xml xml' : String}
    (h : (Xml.events xml).Alike ReadAlike (Xml.events xml')) (part : String) (strings : List String)
    (pictures : PictureIndex) : readMarkup part xml (worksheetRows strings pictures) =
      readMarkup part xml' (worksheetRows strings pictures) := by
  simp only [readMarkup, worksheetRows, foldlM_alike h.events, h.complete]

/-! ## Declarations -/

variable {e : TagText} {d : AttributeText} {q : String}

/-- **The declaration of a prefix** hides the attributes behind it whose local name is the prefix. If none
of them is read, the rows stay the same. -/
theorem rows_declaration {front back : List Char} (i : Nat) (hq : Declares d q)
    (hnew : d.key ∉ e.attributes.map AttributeText.key)
    (hplace : ReadsUpTo (front ++ (e.chars ++ back)) (e.chars ++ back)) :
    (∀ key, (e.insert i d hnew).tag.attribute? key =
      if key = q ∧ ∀ a ∈ e.attributes.take i, a.localName ≠ key then some d.meaning
      else e.tag.attribute? key) ∧
    ((q ∈ keysRead e.tag.localName → ∃ a ∈ e.attributes.take i, a.localName = q) →
      ∀ part strings pictures,
        readMarkup part (String.ofList (front ++ ((e.insert i d hnew).chars ++ back)))
            (worksheetRows strings pictures) =
          readMarkup part (String.ofList (front ++ (e.chars ++ back)))
            (worksheetRows strings pictures)) := by
  have hinsert := e.attribute?_insert i d hnew
  rw [hq.localName] at hinsert
  refine ⟨hinsert, fun hread part strings pictures => ?_⟩
  have halike : ReadAlike e.tag (e.insert i d hnew).tag := by
    refine ⟨rfl, fun key hkey => ?_⟩
    rw [hinsert, if_neg]
    rintro ⟨rfl, hfirst⟩
    obtain ⟨a, ha, hname⟩ := hread hkey
    exact hfirst a ha hname
  have hevents := Xml.events_exchange (fun _ _ h => h.name) halike rfl hplace
  exact (readMarkup_alike hevents part strings pictures).symm

/-! ## A cell -/

/-- An attribute with a space before it. -/
def spacedText (key value : List Char) (hkey : Xml.IsNameText key) (hvalue : '"' ∉ value) :
    AttributeText where
  blanks := [' ']
  key := key
  beforeSign := []
  afterSign := []
  quote := '"'
  value := value
  blanks_ne := List.cons_ne_nil _ _
  isSpace_blanks := List.forall_mem_singleton.mpr rfl
  isSpace_sign := List.forall_mem_nil _
  isNameText := hkey
  isQuote := Or.inl rfl
  quote_not_mem := hvalue

/-- The address `A1`. -/
def addressText : AttributeText := spacedText "r".toList "A1".toList (by decide) (by decide)

/-- The declaration of the prefix `r`. -/
def prefixText : AttributeText := spacedText "xmlns:r".toList "u".toList (by decide) (by decide)

/-- The tag of a cell. -/
def cellText (attributes : List AttributeText) (h : (attributes.map AttributeText.key).Nodup) :
    TagText where
  name := ['c']
  attributes := attributes
  blanks := []
  closed := false
  isNameText := by decide
  nodup := h
  isSpace_blanks := List.forall_mem_nil _

/-- A cell that gives its address. -/
def addressedCell : TagText := cellText [addressText] (by decide)

/-- A cell that follows the one before it. -/
def bareCell : TagText := cellText [] (by decide)

def beforeCell : List Char := "<row r=\"1\">".toList

def behindCell : List Char := "<v>1</v></c></row>".toList

/-- The rows of a worksheet with one cell. -/
def rowsOfCell (e : TagText) : Except Refusal (List Row) :=
  readMarkup "doc.xml" (String.ofList (beforeCell ++ (e.chars ++ behindCell))) (worksheetRows [] {})

theorem declares_prefixText : Declares prefixText "r" := rfl

theorem readsUpTo_cell (e : TagText) :
    ReadsUpTo (beforeCell ++ (e.chars ++ behindCell)) (e.chars ++ behindCell) :=
  .word (x := .startTag "row r=\"1\"".toList) rfl (.here _)

theorem rows_declaration_behind :
    (addressedCell.insert 1 prefixText (by decide)).tag.attribute? "r" =
        addressedCell.tag.attribute? "r" ∧
      rowsOfCell (addressedCell.insert 1 prefixText (by decide)) = rowsOfCell addressedCell := by
  have haddress : addressText ∈ addressedCell.attributes.take 1 := List.mem_singleton_self addressText
  have hname : addressText.localName = "r" := by decide
  obtain ⟨hvalue, hrows⟩ := rows_declaration 1 declares_prefixText (by decide)
    (readsUpTo_cell addressedCell)
  exact ⟨(hvalue "r").trans (if_neg fun h => h.2 addressText haddress hname),
    hrows (fun _ => ⟨addressText, haddress, hname⟩) "doc.xml" [] {}⟩

/-- On a cell without an address, the declaration of a prefix of its name is taken for one. -/
theorem rows_declaration_differ :
    Declares prefixText "r" ∧ prefixText.key ∉ bareCell.attributes.map AttributeText.key ∧
      ReadsUpTo (beforeCell ++ (bareCell.chars ++ behindCell)) (bareCell.chars ++ behindCell) ∧
      rowsOfCell bareCell = .ok [⟨0, [Cell.numeric "1"]⟩] ∧
      rowsOfCell (bareCell.insert 0 prefixText (by decide)) = .error (.invalidAddress "u") :=
  ⟨declares_prefixText, by decide, readsUpTo_cell bareCell, by decide +kernel, by decide +kernel⟩

end SheetMarkup.Workbook
