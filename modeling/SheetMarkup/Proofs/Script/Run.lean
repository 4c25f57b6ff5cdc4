import SheetMarkup.Proofs.Script.Groups

/-!
# Reading a sheet

The tokens of a row do to the open blocks what the row says: a row under a command adds its line
to the open block, and a command row opens a block with its arguments or stops at its first cell
that is wrong. A sheet is then read group by group.

* `resultOf`: a result, or the error that stands before it;
* `foldlM_tokens_body`, `foldlM_tokens_command`: what the tokens of one row do (the step);
* `foldlM_tokensOf`: what the tokens of a sheet do (the run);
* **`parse_eq`**: a sheet is read as the blocks of its groups, or gives the error of its first
  cell that is wrong.
-/

namespace SheetMarkup

/-! ## Results and errors -/

/-- A result, or the error that stands before it. -/
def resultOf {α : Type} (error? : Option Error) (a : α) : Except Error α :=
  match error? with
  | none => .ok a
  | some e => .error e

section resultOf

variable {α β : Type}

@[simp] theorem resultOf_none (a : α) : resultOf none a = .ok a := rfl

@[simp] theorem resultOf_some (e : Error) (a : α) : resultOf (some e) a = .error e := rfl

theorem resultOf_map (e? : Option Error) (a : α) (f : α → β) :
    (resultOf e? a).map f = resultOf e? (f a) := by
  cases e? <;> rfl

theorem resultOf_bind (e? e'? : Option Error) (a : α) {f : α → Except Error β} {b : β}
    (hf : f a = resultOf e'? b) : resultOf e? a >>= f = resultOf (e?.or e'?) b := by
  cases e? with
  | none => exact hf
  | some e => rfl

end resultOf

/-! ## One row -/

theorem fault?_argument {r : Row} {head c : Cell} {column : Nat} {command : Command}
    (hh : head.hasContent = true) (hw : Command.ofWord? head.word = some command)
    (hc : c.hasContent = true) :
    (r.placeOf head (c, column + 1)).fault? =
      if '=' ∈ c.value.toList then
        if command.accepts c.key then none else some (.unknownArgument command c.key)
      else some (.malformedArgument (Text.trim c.value)) := by
  rw [Placed.fault?]
  simp only [Row.placeOf, hh, hc, hw, Bool.and_self, if_true]
  rfl

theorem push_argument {r : Row} {head c : Cell} {column : Nat} {b : Block} (bs : List Block)
    (hh : head.hasContent = true) (hw : Command.ofWord? head.word = some b.command)
    (hc : c.hasContent = true) :
    push (b :: bs) ⟨.argument, Text.trim c.value, some (r.origin (column + 1) c)⟩ =
      resultOf (r.placeOf head (c, column + 1)).error?
        ({ b with arguments := b.arguments ++ [r.argument (c, column + 1)] } :: bs) := by
  rw [Placed.error?, fault?_argument hh hw hc, push]
  by_cases he : '=' ∈ c.value.toList
  · rw [Argument.parse_trim he, Argument.parse_value he, if_pos he]
    simp only
    split_ifs
    · rfl
    · rfl
  · have ht : '=' ∉ (Text.trim c.value).toList := fun h => he (Argument.equals_mem_trim.mp h)
    rw [Argument.parse_of_not_mem ht, if_neg he]
    rfl

/-- **What the tokens of the cells after the first one do to the open block.** -/
theorem foldlM_argumentTokens (r : Row) {head : Cell} (hh : head.hasContent = true)
    (cells : List Cell) (column : Nat) (b : Block) (bs : List Block)
    (hw : Command.ofWord? head.word = some b.command) :
    (r.argumentTokens (column + 1) cells).foldlM push (b :: bs) =
      resultOf (((cells.zipIdx (column + 1)).map (r.placeOf head)).findSome? Placed.error?)
        ({ b with arguments := b.arguments ++
            ((cells.zipIdx (column + 1)).filter fun x =>
              x.1.hasContent).map r.argument } :: bs) := by
  induction cells generalizing column b with
  | nil => simp [Row.argumentTokens, pure, Except.pure]
  | cons c cells ih =>
    rw [List.zipIdx_cons, List.map_cons, List.findSome?_cons, List.filter_cons]
    by_cases hc : c.hasContent = true
    · have hrest := ih (column + 1)
        { b with arguments := b.arguments ++ [r.argument (c, column + 1)] } hw
      rw [Row.argumentTokens, if_pos hc, List.foldlM_cons, push_argument bs hh hw hc, if_pos hc,
        resultOf_bind (f := fun blocks => (r.argumentTokens _ cells).foldlM push blocks)
          _ _ _ hrest, List.map_cons, ← List.append_cons]
      cases (r.placeOf head (c, column + 1)).error? <;> rfl
    · have hn : (r.placeOf head (c, column + 1)).error? = none := by
        simp [Placed.error?, Placed.fault?, Row.placeOf, hc]
      rw [Row.argumentTokens, if_neg hc, if_neg hc, hn]
      exact ih (column + 1) b hw

theorem Row.firstContent?_snd (cells : List Cell) (column : Nat) :
    (firstContent? column cells).map Prod.snd = cells.find? Cell.hasContent := by
  induction cells generalizing column with
  | nil => rfl
  | cons c cells ih =>
    rw [firstContent?, List.find?_cons]
    cases hc : c.hasContent
    · exact ih (column + 1)
    · rfl

/-- **A row under a command adds its line to the open block.** -/
theorem foldlM_tokens_body {r : Row} (h : r.isCommand = false) (bs : List Block) :
    r.tokens.foldlM push bs = .ok (extendOpen bs r.entry) := by
  have ht : r.tokens = [r.bodyToken] := by
    unfold Row.tokens
    cases hc : r.cells with
    | nil => rfl
    | cons head cells =>
      rw [Row.isCommand_of_cells hc] at h
      simp [h]
  have hp : push bs r.bodyToken = .ok (extendOpen bs r.entry) := by
    unfold Row.bodyToken Row.entry
    have hf := Row.firstContent?_snd r.cells 0
    cases hc : Row.firstContent? 0 r.cells with
    | none =>
      rw [hc, Option.map_none] at hf
      rw [← hf]
      rfl
    | some x =>
      obtain ⟨column, c⟩ := x
      rw [hc, Option.map_some] at hf
      have hcontent : c.hasContent = true := List.find?_some hf.symm
      rw [← hf]
      by_cases hk : c.kind = .image
      · simp [push, hk, (Cell.classify_eq_image hcontent).mpr hk]
      · have hk' : c.classify ≠ .image := fun e => hk ((Cell.classify_eq_image hcontent).mp e)
        simp [push, hk, hk']
  rw [ht, List.foldlM_cons, hp]
  rfl

/-- **A command row opens a block with its arguments, or stops at its first wrong cell.** -/
theorem foldlM_tokens_command {r : Row} (h : r.isCommand = true) (bs : List Block) :
    r.tokens.foldlM push bs =
      resultOf (r.placed.findSome? Placed.error?) ((⟨r, []⟩ : Group).opened :: bs) := by
  cases hc : r.cells with
  | nil => rw [Row.isCommand, hc] at h; cases h
  | cons head cells =>
    rw [Row.isCommand_of_cells hc] at h
    have ht : r.tokens = ⟨.command, head.word, some (r.origin 0 head)⟩ ::
        r.argumentTokens 1 cells := by
      rw [Row.tokens, hc]
      simp only [h, if_true]
      rfl
    rw [ht, List.foldlM_cons, Row.placed_of_cells hc, List.findSome?_cons]
    cases hw : Command.ofWord? head.word with
    | none =>
      have he : (r.placeOf head (head, 0)).error? =
          some ⟨.unknownCommand head.word, some (r.origin 0 head)⟩ := by
        simp [Placed.error?, Placed.fault?, Row.placeOf, h, hw, Placed.origin, Row.origin,
          Row.address]
      have hp : push bs ⟨.command, head.word, some (r.origin 0 head)⟩ =
          .error ⟨.unknownCommand head.word, some (r.origin 0 head)⟩ := by
        simp [push, Command.ofAlias?_word, hw]
      rw [he, hp]
      rfl
    | some command =>
      have he : (r.placeOf head (head, 0)).error? = none := by
        simp [Placed.error?, Placed.fault?, Row.placeOf, h, hw]
      have hb : (⟨r, []⟩ : Group).opened =
          ⟨command, ((cells.zipIdx 1).filter fun x => x.1.hasContent).map r.argument, [],
            some (r.origin 0 head)⟩ := by
        simp [Group.opened, Row.command?, Row.arguments, Row.argumentCells, Row.commandOrigin?,
          hc, hw]
      have hp : push bs ⟨.command, head.word, some (r.origin 0 head)⟩ =
          .ok (⟨command, [], [], some (r.origin 0 head)⟩ :: bs) := by
        simp [push, Command.ofAlias?_word, hw]
      rw [he, hb, hp]
      exact foldlM_argumentTokens r h cells 0 ⟨command, [], [], some (r.origin 0 head)⟩ bs hw

/-! ## The sheet -/

/-- The error of the first cell of a sheet that is wrong. -/
def firstError? (rows : List Row) : Option Error := (cellsOf rows).findSome? Placed.error?

theorem firstError?_cons (r : Row) (rows : List Row) :
    firstError? (r :: rows) = (r.placed.findSome? Placed.error?).or (firstError? rows) := by
  rw [firstError?, cellsOf, List.flatMap_cons, List.findSome?_append]
  rfl

theorem firstError?_cons_body {r : Row} (h : r.isCommand = false) (rows : List Row) :
    firstError? (r :: rows) = firstError? rows := by
  rw [firstError?_cons, List.findSome?_eq_none_iff.mpr (Row.error?_eq_none_of_body h)]
  rfl

theorem foldl_extendOpen (b : Block) (bs : List Block) (entries : List BodyEntry) :
    entries.foldl extendOpen (b :: bs) = { b with body := b.body ++ entries } :: bs := by
  induction entries generalizing b with
  | nil => simp
  | cons entry entries ih =>
    rw [List.foldl_cons, extendOpen, ih]
    simp

theorem foldl_extendOpen_nil (entries : List BodyEntry) : entries.foldl extendOpen [] = [] := by
  induction entries with
  | nil => rfl
  | cons entry entries ih => exact ih

/-- **What the tokens of a sheet do to the blocks read so far.** The rows before the next command
row go to the open block, and every later group opens a block of its own. -/
theorem foldlM_tokensOf (rows : List Row) (bs : List Block) :
    (tokensOf rows).foldlM push bs = resultOf (firstError? rows)
      (((groupsOf rows).map Group.opened).reverse ++
        ((rows.takeWhile fun r => !r.isCommand).map Row.entry).foldl extendOpen bs) := by
  induction rows generalizing bs with
  | nil => rfl
  | cons r rows ih =>
    rw [tokensOf, List.flatMap_cons, List.foldlM_append, groupsOf, List.takeWhile_cons]
    cases hr : r.isCommand with
    | false =>
      -- the line joins those that the open block has already
      rw [foldlM_tokens_body hr, firstError?_cons_body hr]
      exact ih (extendOpen bs r.entry)
    | true =>
      rw [foldlM_tokens_command hr, firstError?_cons]
      -- from here on the block of this row is the open one
      refine (resultOf_bind (f := fun blocks => (tokensOf rows).foldlM push blocks) _ _ _
        (ih _)).trans ?_
      rw [foldl_extendOpen]
      simp [Group.opened]

/-- **A sheet is read as the blocks of its groups, or gives the error of its first wrong cell.** -/
theorem parse_eq (rows : List Row) :
    parse rows = resultOf (firstError? rows) ((groupsOf rows).map Group.block) := by
  rw [parse, assemble, foldlM_tokensOf, resultOf_map, foldl_extendOpen_nil]
  congr 1
  simp [Group.trimmed_opened]

theorem parse_eq_ok {rows : List Row} {blocks : List Block} (h : parse rows = .ok blocks) :
    firstError? rows = none ∧ blocks = (groupsOf rows).map Group.block := by
  rw [parse_eq] at h
  cases he : firstError? rows with
  | none =>
    rw [he] at h
    cases h
    exact ⟨rfl, rfl⟩
  | some e => rw [he] at h; cases h

theorem parse_eq_error {rows : List Row} {e : Error} :
    parse rows = .error e ↔ firstError? rows = some e := by
  rw [parse_eq]
  cases firstError? rows with
  | none => simp
  | some e' => simp

end SheetMarkup
