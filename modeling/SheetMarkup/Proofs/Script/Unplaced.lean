import SheetMarkup.Proofs.Outcome
import SheetMarkup.Proofs.Script.Contentless

/-!
# Places in the source text

Where a cell was read from, and whether its reader took it for a number, shows in no result but in the
places that are reported: a sheet without both is read as the same blocks or refused with the same
error, without their places.

* `Cell.bare`, `Row.bare`: cells and rows without places, with numbers as texts;
* `Token.unplaced`, `Block.unplaced`, `Error.unplaced`, `unplacedResult`: results without places;
* `tokens_bare`: the tokens of a row;
* `push_unplaced`, `foldlM_unplaced`: one token (the step) and a stream of them (the run);
* **`parse_bare`**: a whole sheet.
-/

namespace SheetMarkup

/-! ## Results without places -/

def Origin.unplaced (o : Origin) : Origin := { o with span := none }

def Token.unplaced (t : Token) : Token := { t with origin := t.origin.map Origin.unplaced }

def Argument.unplaced (a : Argument) : Argument := { a with origin := a.origin.map Origin.unplaced }

def Block.unplaced (b : Block) : Block :=
  { b with arguments := b.arguments.map Argument.unplaced, origin := b.origin.map Origin.unplaced }

def Error.unplaced (e : Error) : Error := { e with origin := e.origin.map Origin.unplaced }

/-- A result without places, where `f` takes them from what succeeded. -/
def unplacedResult {α β : Type} (f : α → β) (x : Except Error α) : Except Error β :=
  (x.map f).mapError Error.unplaced

section Results

variable {α β γ δ : Type}

theorem unplacedResult_bind {f : α → β} {g : γ → δ} {next : α → Except Error γ}
    {next' : β → Except Error δ} (h : ∀ a, next' (f a) = unplacedResult g (next a))
    (x : Except Error α) : unplacedResult f x >>= next' = unplacedResult g (x >>= next) := by
  cases x with
  | error e => rfl
  | ok a => exact h a

theorem unplacedResult_map {f : α → β} {g : γ → δ} {next : α → γ} {next' : β → δ}
    (h : ∀ a, next' (f a) = g (next a)) (x : Except Error α) :
    (unplacedResult f x).map next' = unplacedResult g (x.map next) := by
  cases x with
  | error e => rfl
  | ok a => exact congrArg Except.ok (h a)

theorem foldlM_unplaced {f : α → β} {k : γ → δ} {step : α → γ → Except Error α}
    {step' : β → δ → Except Error β}
    (h : ∀ a x, step' (f a) (k x) = unplacedResult f (step a x)) (xs : List γ) (a : α) :
    (xs.map k).foldlM step' (f a) = unplacedResult f (xs.foldlM step a) := by
  induction xs generalizing a with
  | nil => rfl
  | cons x xs ih =>
    rw [List.map_cons, List.foldlM_cons, List.foldlM_cons, h]
    exact unplacedResult_bind ih (step a x)

theorem mapM_unplaced {f : α → Except Error β} {f' : γ → Except Error δ} {k : α → γ} {g : β → δ}
    (h : ∀ x, f' (k x) = unplacedResult g (f x)) (xs : List α) :
    (xs.map k).mapM f' = unplacedResult (List.map g) (xs.mapM f) := by
  induction xs with
  | nil => rfl
  | cons x xs ih =>
    rw [List.map_cons, List.mapM_cons, List.mapM_cons, h, ih]
    apply unplacedResult_bind
    intro y
    apply unplacedResult_bind
    intro ys
    rfl

end Results

/-! ## Bare sheets -/

/-- The cell without its place, a number being a text. -/
def Cell.bare (c : Cell) : Cell :=
  ⟨c.value, if c.kind = .numeric then .text else c.kind, none⟩

def Row.bare (r : Row) : Row := ⟨r.index, r.cells.map Cell.bare⟩

theorem Cell.classify_bare (c : Cell) : c.bare.classify = c.classify := by
  obtain ⟨value, kind, span⟩ := c
  cases kind <;> rfl

theorem Cell.hasContent_bare (c : Cell) : c.bare.hasContent = c.hasContent := by
  unfold hasContent
  rw [classify_bare]
  rfl

theorem contentFrom_bare (column : Nat) (cells : List Cell) :
    contentFrom column (cells.map Cell.bare) =
      (contentFrom column cells).map fun x => (x.1.bare, x.2) := by
  induction cells generalizing column with
  | nil => rfl
  | cons c cells ih =>
    rw [List.map_cons, contentFrom_cons, contentFrom_cons, ih, Cell.hasContent_bare]
    split_ifs <;> rfl

theorem contentTokens_bare (index : Nat) (blank : Option Origin) (content : List (Cell × Nat)) :
    contentTokens index (blank.map Origin.unplaced) (content.map fun x => (x.1.bare, x.2)) =
      (contentTokens index blank content).map Token.unplaced := by
  match content with
  | [] => rfl
  | (c, 0) :: rest =>
    simp only [contentTokens, List.map_cons, List.map_map]
    rfl
  | (c, column + 1) :: rest =>
    simp only [contentTokens, lineToken, List.map_cons, List.map_nil, Cell.classify_bare]
    rfl

theorem blankOrigin_bare (r : Row) : r.bare.blankOrigin = r.blankOrigin.map Origin.unplaced := by
  obtain ⟨index, cells⟩ := r
  cases cells <;> rfl

theorem tokens_bare (r : Row) : r.bare.tokens = r.tokens.map Token.unplaced := by
  have hcontent : r.bare.content = r.content.map fun x => (x.1.bare, x.2) :=
    contentFrom_bare 0 r.cells
  rw [tokens_eq, tokens_eq, hcontent, blankOrigin_bare]
  exact contentTokens_bare r.index r.blankOrigin r.content

/-! ## Blocks -/

theorem extendOpen_unplaced (bs : List Block) (entry : BodyEntry) :
    extendOpen (bs.map Block.unplaced) entry = (extendOpen bs entry).map Block.unplaced := by
  cases bs <;> rfl

theorem push_unplaced (bs : List Block) (t : Token) :
    push (bs.map Block.unplaced) t.unplaced = unplacedResult (List.map Block.unplaced) (push bs t) := by
  obtain ⟨kind, value, origin⟩ := t
  cases kind with
  | command =>
    simp only [push, Token.unplaced]
    cases Command.ofAlias? value <;> rfl
  | argument =>
    cases bs with
    | nil => rfl
    | cons b bs =>
      simp only [push, Token.unplaced, List.map_cons]
      cases Argument.parse value with
      | error fault => rfl
      | ok a =>
        show (if b.command.accepts a.name then _ else _) = unplacedResult _ (if _ then _ else _)
        split_ifs
        · simp [unplacedResult, Except.map, Except.mapError, Block.unplaced, Argument.unplaced]
        · rfl
  | text => exact congrArg Except.ok (extendOpen_unplaced bs _)
  | image => exact congrArg Except.ok (extendOpen_unplaced bs _)

/-- **A bare sheet is read as the sheet is, without places.** -/
theorem parse_bare (rows : List Row) :
    parse (rows.map Row.bare) = unplacedResult (List.map Block.unplaced) (parse rows) := by
  have htokens : tokensOf (rows.map Row.bare) = (tokensOf rows).map Token.unplaced := by
    simp only [tokensOf, List.flatMap_map, List.map_flatMap, tokens_bare]
  rw [parse, parse, assemble, assemble, htokens]
  have hrun := foldlM_unplaced push_unplaced (tokensOf rows) []
  rw [List.map_nil] at hrun
  rw [hrun]
  apply unplacedResult_map
  intro bs
  simp only [List.map_map, List.map_reverse]
  rfl

end SheetMarkup
