import Mathlib.Data.List.Basic
import SheetMarkup.Script.Parse

/-!
# Reading a sheet in two parts

A command closes all blocks before it. So a stream of tokens may be cut in front of a command, and
a sheet in front of a command row: the two parts are read on their own, and the first error is that
of the first part that has one.

* `push_open`: what a token does while a block is open, or opens one, is the same whatever blocks
  stand under it, and leaves a block open (the step);
* `foldlM_push_append`: so does a stream of tokens (the run);
* `assemble_append`, `parse_append`: the two parts of a stream and of a sheet;
* **`read_in_parts`**: both.
-/

namespace SheetMarkup

/-! ## Tokens -/

/-- **The blocks under the open one are out of reach.** A token that finds no open block has to be
a command; then the block that it opens is the open one. -/
theorem push_open {cs : List Block} {t : Token} (h : cs ≠ [] ∨ t.kind = .command) :
    (∃ e, ∀ bs, push (cs ++ bs) t = .error e) ∨
      ∃ c cs', ∀ bs, push (cs ++ bs) t = .ok (c :: cs' ++ bs) := by
  by_cases hk : t.kind = .command
  · cases ha : Command.ofAlias? t.value with
    | none =>
      refine Or.inl ⟨⟨.unknownCommand t.value, t.origin⟩, fun bs => ?_⟩
      simp only [push, hk, ha]
    | some command =>
      refine Or.inr ⟨⟨command, [], [], t.origin⟩, cs, fun bs => ?_⟩
      simp only [push, hk, ha, List.cons_append]
  · obtain ⟨c, cs, rfl⟩ := List.exists_cons_of_ne_nil (h.resolve_right hk)
    cases hk' : t.kind with
    | command => exact absurd hk' hk
    | argument =>
      cases ha : Argument.parse t.value with
      | error fault =>
        refine Or.inl ⟨⟨fault, t.origin⟩, fun bs => ?_⟩
        simp only [push, hk', ha, List.cons_append]
      | ok a =>
        by_cases hc : c.command.accepts a.name = true
        · refine Or.inr ⟨{ c with arguments := c.arguments ++ [{ a with origin := t.origin }] }, cs,
            fun bs => ?_⟩
          simp only [push, hk', ha, List.cons_append, if_pos hc]
        · refine Or.inl ⟨⟨.unknownArgument c.command a.name, t.origin⟩, fun bs => ?_⟩
          simp only [push, hk', ha, List.cons_append, if_neg hc]
    | text =>
      refine Or.inr ⟨{ c with body := c.body ++ [.text t.value] }, cs, fun bs => ?_⟩
      simp only [push, hk', List.cons_append, extendOpen]
    | image =>
      refine Or.inr ⟨{ c with body := c.body ++ [.image t.value] }, cs, fun bs => ?_⟩
      simp only [push, hk', List.cons_append, extendOpen]

/-- **So a stream of tokens adds its blocks to those that are there.** The induction is on the
stream: after its first token a block is open, and stays open. -/
theorem foldlM_push_append (us : List Token) {cs : List Block}
    (h : cs ≠ [] ∨ ∀ t ∈ us.head?, t.kind = .command) (bs : List Block) :
    us.foldlM push (cs ++ bs) = (us.foldlM push cs).map (· ++ bs) := by
  induction us generalizing cs with
  | nil => rfl
  | cons t us ih =>
    rw [List.foldlM_cons, List.foldlM_cons]
    have ht : cs ≠ [] ∨ t.kind = .command := h.imp_right fun hk => hk t rfl
    obtain ⟨e, hp⟩ | ⟨c, cs', hp⟩ := push_open ht
    · have hp' := hp []
      rw [List.append_nil] at hp'
      rw [hp, hp']
      rfl
    · have hp' := hp []
      rw [List.append_nil, List.append_nil] at hp'
      rw [hp, hp']
      exact ih (Or.inl (List.cons_ne_nil c cs'))

/-- **A stream that starts with a command is read on its own.** -/
theorem assemble_append (ts : List Token) {us : List Token}
    (h : ∀ t ∈ us.head?, t.kind = .command) :
    assemble (ts ++ us) = do
      let before ← assemble ts
      let after ← assemble us
      return before ++ after := by
  unfold assemble
  rw [List.foldlM_append]
  cases ts.foldlM push [] with
  | error e => rfl
  | ok bs =>
    change (us.foldlM push ([] ++ bs)).map _ = _
    rw [foldlM_push_append us (Or.inr h) bs]
    cases us.foldlM push [] with
    | error e => rfl
    | ok cs =>
      refine congrArg Except.ok ?_
      change ((cs ++ bs).map Block.trimmed).reverse = _
      rw [List.map_append, List.reverse_append]

/-! ## Rows -/

theorem head?_tokensOf {rows : List Row} (h : ∀ r ∈ rows.head?, r.isCommand = true) :
    ∀ t ∈ (tokensOf rows).head?, t.kind = .command := by
  cases rows with
  | nil => simp [tokensOf]
  | cons r rows =>
    have hr : r.isCommand = true := h r rfl
    unfold Row.isCommand at hr
    rw [tokensOf, List.flatMap_cons, Row.tokens]
    cases hc : r.cells with
    | nil => rw [hc] at hr; cases hr
    | cons c cells =>
      rw [hc] at hr
      intro t ht
      simp only [hr, if_true, List.cons_append, List.head?_cons, Option.mem_some_iff] at ht
      rw [← ht]

theorem parse_append (xs : List Row) {ys : List Row} (h : ∀ r ∈ ys.head?, r.isCommand = true) :
    parse (xs ++ ys) = do
      let before ← parse xs
      let after ← parse ys
      return before ++ after := by
  rw [parse, tokensOf, List.flatMap_append]
  exact assemble_append _ (head?_tokensOf h)

/-- **Sheets and streams of tokens are read in parts**, if the second part is empty or starts with a
command. -/
theorem read_in_parts :
    (∀ xs ys : List Row, (∀ r ∈ ys.head?, r.isCommand = true) →
      parse (xs ++ ys) = do
        let before ← parse xs
        let after ← parse ys
        return before ++ after) ∧
    ∀ ts us : List Token, (∀ t ∈ us.head?, t.kind = .command) →
      assemble (ts ++ us) = do
        let before ← assemble ts
        let after ← assemble us
        return before ++ after :=
  ⟨fun xs _ h => parse_append xs h, fun ts _ h => assemble_append ts h⟩

/-- A paragraph that ends in a blank row. -/
def upperPart : List Row := [⟨0, [.ofText "p"]⟩, ⟨1, [.empty, .ofText "line"]⟩, ⟨2, []⟩]

/-- A style. -/
def lowerPart : List Row := [⟨3, [.ofText "s", .ofText "name=Big"]⟩]

/-- Two parts that are both in order, and two that are both wrong. -/
theorem read_in_parts_upperPart :
    parse (upperPart ++ lowerPart) = .ok
      [⟨.paragraph, [], [.text "line"], some ⟨⟨0, 0⟩, none⟩⟩,
        ⟨.style, [⟨"name", "Big", some ⟨⟨3, 1⟩, none⟩⟩], [], some ⟨⟨3, 0⟩, none⟩⟩] ∧
    assemble ([⟨.argument, "name=Big", none⟩] ++ [⟨.command, "list", none⟩]) =
      .error ⟨.argumentWithoutCommand "name=Big", none⟩ :=
  ⟨(read_in_parts.1 upperPart lowerPart (by decide +kernel)).trans (by decide +kernel),
    (read_in_parts.2 [⟨.argument, "name=Big", none⟩] [⟨.command, "list", none⟩]
      (by decide)).trans (by decide +kernel)⟩

end SheetMarkup
