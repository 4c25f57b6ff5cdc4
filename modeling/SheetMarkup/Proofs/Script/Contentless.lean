import Mathlib.Data.List.Forall2
import SheetMarkup.Proofs.Script.Cells

/-!
# Cells without content

Blank cells, comments and missing cells say nothing. What a row says is the list of its cells with
content and their columns: two rows are alike in every column exactly when these lists are the same.
The tokens of a row are made from its content, up to the origin of a blank line, and no block keeps
that origin.

* `Cell.Alike`, `Row.SameContent`: cells and rows that differ only where there is no content;
* `Row.content`, `Row.sameContent_iff`: the content of a row, and what it decides;
* `tokens_eq`: the tokens of a row, made from its content;
* `foldlM_tokens_congr`, `foldlM_tokensOf_congr`: what rows of the same content do to the open
  blocks, one row (the step) and all of them (the run);
* **`parse_eq_of_sameContent`**: sheets of the same content are read alike.
-/

namespace SheetMarkup

/-- The two cells are equal, or both are without content. -/
def Cell.Alike (c d : Cell) : Prop := c = d ∨ c.hasContent = false ∧ d.hasContent = false

namespace Row

/-- The cell in a column; a missing cell counts as an empty one. -/
def cellAt (r : Row) (column : Nat) : Cell := r.cells[column]?.getD .empty

/-- The rows have one index and are alike in every column. -/
structure SameContent (r s : Row) : Prop where
  index : r.index = s.index
  alike : ∀ column, (r.cellAt column).Alike (s.cellAt column)

end Row

/-! ## The content of a row -/

/-- The cells with content, with their columns, of which the first is given. -/
def contentFrom (column : Nat) (cells : List Cell) : List (Cell × Nat) :=
  (cells.zipIdx column).filter fun x => x.1.hasContent

def Row.content (r : Row) : List (Cell × Nat) := contentFrom 0 r.cells

theorem Cell.hasContent_empty : Cell.empty.hasContent = false := by decide

theorem Cell.alike_comm {c d : Cell} : c.Alike d ↔ d.Alike c := by
  unfold Alike
  rw [eq_comm, and_comm]

theorem Cell.alike_iff_of_hasContent {c d : Cell} (h : c.hasContent = true ∨ d.hasContent = true) :
    c.Alike d ↔ c = d := by
  unfold Alike
  constructor
  · rintro (hcd | ⟨hc, hd⟩)
    · exact hcd
    · rw [hc, hd] at h
      simp at h
  · exact Or.inl

theorem contentFrom_cons (column : Nat) (c : Cell) (cells : List Cell) :
    contentFrom column (c :: cells) =
      if c.hasContent then (c, column) :: contentFrom (column + 1) cells
      else contentFrom (column + 1) cells := by
  rw [contentFrom, List.zipIdx_cons, List.filter_cons]
  rfl

theorem le_of_mem_contentFrom {column : Nat} {cells : List Cell} {x : Cell × Nat}
    (h : x ∈ contentFrom column cells) : column ≤ x.2 :=
  (List.mem_zipIdx (List.mem_filter.mp h).1).1

/-- As columns only grow, content of a column is not among the content behind it. -/
theorem cons_ne_contentFrom {column : Nat} {c : Cell} {rest : List (Cell × Nat)}
    {cells : List Cell} : (c, column) :: rest ≠ contentFrom (column + 1) cells := by
  intro he
  have hm : (c, column) ∈ contentFrom (column + 1) cells := he ▸ List.mem_cons_self
  have hle : column + 1 ≤ column := le_of_mem_contentFrom hm
  omega

theorem contentFrom_eq_nil_iff (column : Nat) {cells : List Cell} :
    contentFrom column cells = [] ↔ ∀ i : Nat, Cell.empty.Alike (cells[i]?.getD .empty) := by
  induction cells generalizing column with
  | nil => simp [contentFrom, Cell.Alike]
  | cons c cells ih =>
    rw [contentFrom_cons, ← Nat.and_forall_add_one]
    simp only [List.getElem?_cons_zero, List.getElem?_cons_succ, Option.getD_some]
    rw [← ih (column + 1)]
    by_cases hc : c.hasContent = true
    · have hne : Cell.empty ≠ c := by
        rintro rfl
        cases hc
      simp [hc, hne, Cell.alike_iff_of_hasContent (Or.inr hc)]
    · simp [hc, Cell.Alike, Cell.hasContent_empty]

/-- **Cells are alike column by column exactly when their content is the same.** -/
theorem contentFrom_eq_iff (column : Nat) {xs ys : List Cell} :
    contentFrom column xs = contentFrom column ys ↔
      ∀ i : Nat, (xs[i]?.getD Cell.empty).Alike (ys[i]?.getD Cell.empty) := by
  induction xs generalizing column ys with
  | nil =>
    rw [eq_comm]
    exact contentFrom_eq_nil_iff column
  | cons x xs ih =>
    -- both rows are taken apart; a row that has ended is empty from here on
    cases ys with
    | nil =>
      simp only [Cell.alike_comm (d := Cell.empty), List.getElem?_nil, Option.getD_none]
      exact contentFrom_eq_nil_iff column
    | cons y ys =>
      rw [contentFrom_cons, contentFrom_cons, ← Nat.and_forall_add_one]
      simp only [List.getElem?_cons_zero, List.getElem?_cons_succ, Option.getD_some]
      rw [← ih (column + 1)]
      by_cases hx : x.hasContent = true
      · rw [Cell.alike_iff_of_hasContent (Or.inl hx), if_pos hx]
        by_cases hy : y.hasContent = true
        · simp [hy]
        · have hxy : x ≠ y := fun e => hy (e ▸ hx)
          simp [hy, hxy, cons_ne_contentFrom]
      · rw [if_neg hx]
        by_cases hy : y.hasContent = true
        · have hxy : x ≠ y := fun e => hx (e ▸ hy)
          simp [hy, hxy, Cell.alike_iff_of_hasContent (Or.inr hy), cons_ne_contentFrom.symm]
        · simp [hy, hx, Cell.Alike]

theorem Row.content_eq_iff {r s : Row} :
    r.content = s.content ↔ ∀ column, (r.cellAt column).Alike (s.cellAt column) :=
  contentFrom_eq_iff 0

theorem Row.sameContent_iff {r s : Row} :
    r.SameContent s ↔ r.index = s.index ∧ r.content = s.content := by
  rw [content_eq_iff]
  exact ⟨fun h => ⟨h.index, h.alike⟩, fun h => ⟨h.1, h.2⟩⟩

instance : DecidableRel Row.SameContent := fun _ _ => decidable_of_iff' _ Row.sameContent_iff

/-! ## Tokens -/

/-- The origin of a cell with its column, in the row with this index. -/
def originAt (index : Nat) (x : Cell × Nat) : Origin := ⟨⟨index, x.2⟩, x.1.span⟩

/-- The argument that a cell with its column gives. -/
def argumentToken (index : Nat) (x : Cell × Nat) : Token :=
  ⟨.argument, Text.trim x.1.value, some (originAt index x)⟩

/-- The first content as a line, or a blank line with this origin. -/
def lineToken (index : Nat) (blank : Option Origin) : List (Cell × Nat) → Token
  | [] => ⟨.text, "", blank⟩
  | x :: _ =>
    ⟨if x.1.classify = .image then .image else .text, x.1.value, some (originAt index x)⟩

/-- The tokens of the row with this index and content: where the first column has content, a
command and its arguments, and else a line. -/
def contentTokens (index : Nat) (blank : Option Origin) : List (Cell × Nat) → List Token
  | (c, 0) :: rest =>
    ⟨.command, c.word, some (originAt index (c, 0))⟩ :: rest.map (argumentToken index)
  | content => [lineToken index blank content]

/-- The origin of the blank line that a row without content is. -/
def Row.blankOrigin (r : Row) : Option Origin :=
  some ⟨r.address 0, r.cells.head?.bind Cell.span⟩

theorem argumentTokens_eq (r : Row) (column : Nat) (cells : List Cell) :
    r.argumentTokens column cells = (contentFrom column cells).map (argumentToken r.index) := by
  induction cells generalizing column with
  | nil => rfl
  | cons c cells ih =>
    rw [Row.argumentTokens, contentFrom_cons, ih]
    split_ifs <;> rfl

theorem firstContent?_eq (column : Nat) (cells : List Cell) :
    Row.firstContent? column cells = (contentFrom column cells).head?.map Prod.swap := by
  induction cells generalizing column with
  | nil => rfl
  | cons c cells ih =>
    rw [Row.firstContent?, contentFrom_cons, ih]
    split_ifs <;> rfl

theorem bodyToken_eq (r : Row) : r.bodyToken = lineToken r.index r.blankOrigin r.content := by
  have hf : Row.firstContent? 0 r.cells = r.content.head?.map Prod.swap := firstContent?_eq 0 _
  rw [Row.bodyToken, hf]
  cases r.content <;> rfl

/-- **The tokens of a row are made from its content.** Only the origin of a blank line is not. -/
theorem tokens_eq (r : Row) : r.tokens = contentTokens r.index r.blankOrigin r.content := by
  have hbody := bodyToken_eq r
  rw [Row.tokens]
  cases hc : r.cells with
  | nil =>
    rw [Row.content, hc] at hbody ⊢
    rw [hbody]
    rfl
  | cons c cells =>
    rw [Row.content, hc, contentFrom_cons] at hbody ⊢
    dsimp only
    split_ifs at hbody ⊢ with hcontent
    · rw [argumentTokens_eq]
      rfl
    · -- the first content stands behind the first column
      rw [hbody]
      cases hx : contentFrom (0 + 1) cells with
      | nil => rfl
      | cons x rest =>
        obtain ⟨d, column⟩ := x
        have hle : 0 + 1 ≤ column := le_of_mem_contentFrom (hx ▸ List.mem_cons_self)
        obtain ⟨column, rfl⟩ := Nat.exists_eq_add_of_le' hle
        rfl

/-! ## Blocks -/

theorem foldlM_contentTokens_blank (index : Nat) (blank blank' : Option Origin)
    (content : List (Cell × Nat)) (bs : List Block) :
    (contentTokens index blank content).foldlM push bs =
      (contentTokens index blank' content).foldlM push bs := by
  match content with
  | [] => rfl
  | (c, 0) :: rest => rfl
  | (c, column + 1) :: rest => rfl

theorem foldlM_tokens_congr {r s : Row} (h : r.SameContent s) (bs : List Block) :
    r.tokens.foldlM push bs = s.tokens.foldlM push bs := by
  obtain ⟨hindex, hcontent⟩ := Row.sameContent_iff.mp h
  rw [tokens_eq r, tokens_eq s, hindex, hcontent]
  exact foldlM_contentTokens_blank _ _ _ _ bs

theorem foldlM_tokensOf_congr {rows rows' : List Row}
    (h : List.Forall₂ Row.SameContent rows rows') (bs : List Block) :
    (tokensOf rows).foldlM push bs = (tokensOf rows').foldlM push bs := by
  induction h generalizing bs with
  | nil => rfl
  | @cons r s rows rows' hrow _ ih =>
    simp only [tokensOf, List.flatMap_cons, List.foldlM_append]
    rw [foldlM_tokens_congr hrow bs]
    exact bind_congr ih

/-- **Cells without content are irrelevant.** Sheets with the same content in the same places are
read alike. -/
theorem parse_eq_of_sameContent {rows rows' : List Row} (h : List.Forall₂ Row.SameContent rows rows') :
    parse rows = parse rows' := by
  rw [parse, parse, assemble, assemble, foldlM_tokensOf_congr h]

/-- A paragraph with a gap before its argument and blank rows around its line. -/
def bareSheet : List Row :=
  [⟨0, [.ofText "p", .empty, .ofText "style=Big"]⟩, ⟨1, []⟩, ⟨2, [.empty, .ofText "line"]⟩, ⟨3, []⟩]

/-- The same paragraph among comments and blanks. -/
def annotatedSheet : List Row :=
  [⟨0, [.ofText "p", .ofText "// the look", .ofText "style=Big", .numeric "  "]⟩,
    ⟨1, [(Cell.ofText " // a gap").withSpan ⟨30, 38⟩]⟩,
    ⟨2, [.image " ", .ofText "line", .image "//old.png"]⟩, ⟨3, [.empty, .ofText "\t"]⟩]

theorem parse_eq_of_sameContent_annotatedSheet :
    List.Forall₂ Row.SameContent bareSheet annotatedSheet ∧ bareSheet ≠ annotatedSheet ∧
      parse annotatedSheet = .ok [⟨.paragraph, [⟨"style", "Big", some ⟨⟨0, 2⟩, none⟩⟩],
        [.text "line"], some ⟨⟨0, 0⟩, none⟩⟩] := by
  have h : List.Forall₂ Row.SameContent bareSheet annotatedSheet := by decide +kernel
  exact ⟨h, by decide, (parse_eq_of_sameContent h).symm.trans (by decide +kernel)⟩

end SheetMarkup
