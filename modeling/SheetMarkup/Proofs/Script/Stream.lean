import Mathlib.Data.List.SplitBy
import SheetMarkup.Proofs.Script.Contentless
import SheetMarkup.Proofs.Script.Groups

/-!
# The shape of the token stream

The stream of a sheet does not say where a row ends. It need not: every row gives one token that is no
argument, and its arguments behind it, so cutting the stream in front of every token that is no
argument gives the rows back.

* `Row.Section`: what the tokens of one row are like;
* `Row.section_tokens`: every row gives such a section (the step);
* `splitBy_tokensOf`, `filter_tokensOf`: cutting the stream of a sheet, and the tokens that are no
  arguments (the run);
* **`tokensOf_sections`**: all of it.
-/

namespace SheetMarkup

/-- The token belongs to the one before it. -/
def Token.follows (t : Token) : Bool := t.kind == .argument

/-! ## Rows -/

/-- The token is the argument of a cell with its column. -/
structure Row.ArgumentOf (r : Row) (t : Token) (x : Cell × Nat) : Prop where
  kind : t.kind = .argument
  value : t.value = Text.trim x.1.value
  origin : t.origin = some ⟨⟨r.index, x.2⟩, x.1.span⟩

/-- A payload is trimmed, not empty and no comment. -/
structure Token.Payload (t : Token) : Prop where
  unpadded : Text.Unpadded t.value
  ne_empty : t.value ≠ ""
  not_comment : ¬ ['/', '/'] <+: t.value.toList

/-- The token that opens the section of a row: it stands in the row, it is a command exactly for a
command row, and as a line of text it is empty exactly for a row without content. -/
structure Row.Lead (r : Row) (t : Token) : Prop where
  follows : t.follows = false
  row : ∃ o, t.origin = some o ∧ o.cell.row = r.index
  command_iff : t.kind = .command ↔ r.isCommand = true
  empty_iff : t.kind = .text → (t.value = "" ↔ ∀ c ∈ r.cells, c.hasContent = false)

/-- The tokens of a row: one that opens its section, and behind a command one argument for every cell
with content after the first column, in the order of the columns. -/
structure Row.Section (r : Row) (lead : Token) (arguments : List Token) : Prop where
  opens : r.Lead lead
  arguments_of_command : lead.kind = .command →
    List.Forall₂ r.ArgumentOf arguments r.argumentCells
  arguments_of_line : lead.kind ≠ .command → arguments = []
  ascending : (arguments.filterMap Token.origin).Pairwise fun o p => o.cell.column < p.cell.column
  payload : ∀ t ∈ arguments, t.Payload

namespace Row

theorem argumentCells_of_cells {r : Row} {head : Cell} {cells : List Cell}
    (h : r.cells = head :: cells) : r.argumentCells = contentFrom 1 cells := by
  rw [argumentCells, h]
  rfl

theorem pairwise_contentFrom (column : Nat) (cells : List Cell) :
    (contentFrom column cells).Pairwise fun x y => x.2 < y.2 := by
  induction cells generalizing column with
  | nil => exact .nil
  | cons c cells ih =>
    rw [contentFrom_cons]
    split_ifs
    · exact .cons (fun x hx => le_of_mem_contentFrom hx) (ih (column + 1))
    · exact ih (column + 1)

theorem payload_argumentToken {index : Nat} {x : Cell × Nat} (h : x.1.hasContent = true) :
    (argumentToken index x).Payload := by
  rw [Cell.hasContent, Bool.and_eq_true, bne_iff_ne, Bool.not_eq_true'] at h
  obtain ⟨hvisible, hcomment⟩ := h
  refine ⟨Text.unpadded_trim x.1.value, ?_, ?_⟩
  · intro hempty
    have htrim : Text.trimChars x.1.value.toList = [] := by
      rw [← Text.trim_toList, ← String.toList_empty]
      exact congrArg String.toList hempty
    exact hvisible (by rw [Cell.classify, htrim]; rfl)
  · change ¬ ['/', '/'] <+: (Text.trim x.1.value).toList
    rw [Text.trim_toList, ← List.isPrefixOf_iff_prefix]
    exact Bool.eq_false_iff.mp hcomment

theorem hasContent_of_mem_contentFrom {column : Nat} {cells : List Cell} {x : Cell × Nat}
    (h : x ∈ contentFrom column cells) : x.1.hasContent = true :=
  (List.mem_filter.mp h).2

/-- **A command row gives its command and an argument for every further cell with content.** -/
theorem section_of_command {r : Row} {head : Cell} {cells : List Cell} (h : r.cells = head :: cells)
    (hcontent : head.hasContent = true) :
    r.Section ⟨.command, head.word, some (r.origin 0 head)⟩ (r.argumentTokens 1 cells) := by
  have horigins : ((contentFrom 1 cells).map (argumentToken r.index)).filterMap Token.origin =
      (contentFrom 1 cells).map (originAt r.index) := by
    rw [List.filterMap_map, ← List.filterMap_eq_map]
    rfl
  rw [argumentTokens_eq]
  refine ⟨⟨rfl, ⟨_, rfl, rfl⟩, ?_, fun hkind => nomatch hkind⟩, fun _ => ?_, fun hkind => ?_, ?_, ?_⟩
  · rw [isCommand_of_cells h, hcontent]
    exact iff_of_true rfl rfl
  · rw [argumentCells_of_cells h, List.forall₂_map_left_iff, List.forall₂_same]
    exact fun x _ => ⟨rfl, rfl, rfl⟩
  · exact absurd rfl hkind
  · rw [horigins, List.pairwise_map]
    exact pairwise_contentFrom 1 cells
  · rw [List.forall_mem_map]
    exact fun x hx => payload_argumentToken (hasContent_of_mem_contentFrom hx)

theorem content_eq_nil_iff {r : Row} : r.content = [] ↔ ∀ c ∈ r.cells, c.hasContent = false := by
  rw [content, contentFrom, List.filter_eq_nil_iff]
  constructor
  · intro h c hc
    obtain ⟨i, hi⟩ := List.mem_iff_getElem?.mp hc
    exact Bool.eq_false_iff.mpr (h (c, i) (List.mk_mem_zipIdx_iff_getElem?.mpr hi))
  · rintro h ⟨c, i⟩ hx
    exact Bool.eq_false_iff.mp (h c (List.fst_mem_of_mem_zipIdx hx))

theorem section_of_line {r : Row} (h : r.isCommand = false) : r.Section r.bodyToken [] := by
  have hline : r.bodyToken.kind = .text ∨ r.bodyToken.kind = .image := by
    rw [bodyToken_eq]
    cases r.content with
    | nil => exact .inl rfl
    | cons x rest =>
      simp only [lineToken]
      split_ifs
      · exact .inr rfl
      · exact .inl rfl
  have hcommand : r.bodyToken.kind ≠ .command := by
    rcases hline with hkind | hkind <;> simp [hkind]
  refine ⟨⟨?_, ?_, iff_of_false hcommand (by simp [h]), fun _ => ?_⟩,
    fun hkind => absurd hkind hcommand, fun _ => rfl, .nil, by simp⟩
  · rcases hline with hkind | hkind <;> simp [Token.follows, hkind]
  · rw [bodyToken_eq]
    cases r.content <;> exact ⟨_, rfl, rfl⟩
  · rw [bodyToken_eq, ← content_eq_nil_iff]
    cases hcontent : r.content with
    | nil => exact iff_of_true rfl rfl
    | cons x rest =>
      have hmem : x ∈ r.content := hcontent ▸ List.mem_cons_self
      have hx : x.1.hasContent = true := hasContent_of_mem_contentFrom hmem
      exact iff_of_false (Cell.value_ne_empty hx) (List.cons_ne_nil x rest)

theorem section_tokens (r : Row) :
    ∃ lead arguments, r.tokens = lead :: arguments ∧ r.Section lead arguments := by
  rw [tokens]
  cases hcells : r.cells with
  | nil => exact ⟨_, [], rfl, section_of_line (by rw [isCommand, hcells])⟩
  | cons c cells =>
    dsimp only
    split_ifs with hcontent
    · exact ⟨_, _, rfl, section_of_command hcells hcontent⟩
    · refine ⟨_, [], rfl, section_of_line ?_⟩
      rw [isCommand_of_cells hcells, Bool.eq_false_iff]
      exact hcontent

theorem follows_of_forall₂ {r : Row} {ts : List Token} {xs : List (Cell × Nat)}
    (h : List.Forall₂ r.ArgumentOf ts xs) : ∀ t ∈ ts, t.follows = true := by
  induction h with
  | nil => simp
  | cons hargument _ ih =>
    rw [List.forall_mem_cons]
    exact ⟨by simp [Token.follows, hargument.kind], ih⟩

theorem Section.follows {r : Row} {lead : Token} {arguments : List Token}
    (h : r.Section lead arguments) : ∀ t ∈ arguments, t.follows = true := by
  by_cases hkind : lead.kind = .command
  · exact follows_of_forall₂ (h.arguments_of_command hkind)
  · rw [h.arguments_of_line hkind]
    simp

end Row

/-! ## Streams -/

/-- The tokens behind the first one of a list all belong to it. -/
theorem isChain_follows {t : Token} {ts : List Token} (h : ∀ u ∈ ts, u.follows = true) :
    (t :: ts).IsChain fun _ u => u.follows = true := by
  induction ts generalizing t with
  | nil => exact .singleton t
  | cons u ts ih =>
    rw [List.forall_mem_cons] at h
    exact .cons_cons h.1 (ih h.2)

theorem follows_head?_tokensOf (rows : List Row) :
    ∀ t ∈ (tokensOf rows).head?, t.follows = false := by
  cases rows with
  | nil => simp [tokensOf]
  | cons r rows =>
    obtain ⟨lead, arguments, htokens, hsection⟩ := r.section_tokens
    rw [tokensOf, List.flatMap_cons, htokens]
    rintro t ht
    cases ht
    exact hsection.opens.follows

/-- **Cutting the stream in front of every token that is no argument gives the rows back.** -/
theorem splitBy_tokensOf (rows : List Row) :
    (tokensOf rows).splitBy (fun _ t => t.follows) = rows.map Row.tokens := by
  induction rows with
  | nil => rfl
  | cons r rows ih =>
    obtain ⟨lead, arguments, htokens, hsection⟩ := r.section_tokens
    have hrow : r.tokens.splitBy (fun _ t => t.follows) = [r.tokens] := by
      rw [htokens]
      exact List.splitBy_of_isChain (List.cons_ne_nil _ _) (isChain_follows hsection.follows)
    have hcut : (tokensOf (r :: rows)).splitBy (fun _ t => t.follows) =
        r.tokens.splitBy (fun _ t => t.follows) ++
          (tokensOf rows).splitBy (fun _ t => t.follows) := by
      rw [tokensOf, List.flatMap_cons]
      exact List.splitBy_append fun _ _ t ht => follows_head?_tokensOf rows t ht
    rw [hcut, hrow, ih, List.map_cons, List.singleton_append]

/-- **The tokens that are no arguments open the sections of the rows.** -/
theorem filter_tokensOf (rows : List Row) :
    List.Forall₂ Row.Lead rows ((tokensOf rows).filter fun t => !t.follows) := by
  induction rows with
  | nil => exact .nil
  | cons r rows ih =>
    obtain ⟨lead, arguments, htokens, hsection⟩ := r.section_tokens
    have harguments : arguments.filter (fun t => !t.follows) = [] := by
      rw [List.filter_eq_nil_iff]
      intro t ht
      simp [hsection.follows t ht]
    rw [tokensOf, List.flatMap_cons, htokens, List.cons_append, List.filter_cons,
      hsection.opens.follows, List.filter_append, harguments]
    exact .cons hsection.opens ih

/-- **The stream keeps the rows.** Cut in front of every token that is no argument, it is one
section for each row. -/
theorem tokensOf_sections (rows : List Row) :
    (tokensOf rows).splitBy (fun _ t => t.follows) = rows.map Row.tokens ∧
      List.Forall₂ (fun r tokens => ∃ lead arguments, tokens = lead :: arguments ∧
        r.Section lead arguments) rows ((tokensOf rows).splitBy fun _ t => t.follows) ∧
      List.Forall₂ Row.Lead rows ((tokensOf rows).filter fun t => !t.follows) := by
  refine ⟨splitBy_tokensOf rows, ?_, filter_tokensOf rows⟩
  rw [splitBy_tokensOf, List.forall₂_map_right_iff, List.forall₂_same]
  exact fun r _ => r.section_tokens

end SheetMarkup
