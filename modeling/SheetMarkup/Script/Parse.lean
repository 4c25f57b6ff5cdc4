import SheetMarkup.Script.Block

/-!
# From tokens to blocks

Tokens are taken up one after the other. A command opens a block, and everything up to the next
command belongs to the open block. Lines before the first command are dropped.

* `push`: what one token does to the blocks read so far.
* `assemble`: the blocks of a stream of tokens.
* `parse`: the blocks of a sheet.
-/

namespace SheetMarkup

/-- Adds a line to the open block, if there is one. -/
def extendOpen : List Block → BodyEntry → List Block
  | [], _ => []
  | b :: bs, entry => { b with body := b.body ++ [entry] } :: bs

/-- Adds a token to the blocks read so far, of which the head is the open one. -/
def push (blocks : List Block) (t : Token) : Except Error (List Block) :=
  match t.kind with
  | .command =>
    match Command.ofAlias? t.value with
    | some command => .ok (⟨command, [], [], t.origin⟩ :: blocks)
    | none => .error ⟨.unknownCommand t.value, t.origin⟩
  | .argument =>
    match blocks with
    | [] => .error ⟨.argumentWithoutCommand t.value, t.origin⟩
    | b :: bs =>
      match Argument.parse t.value with
      | .error fault => .error ⟨fault, t.origin⟩
      | .ok a =>
        if b.command.accepts a.name then
          .ok ({ b with arguments := b.arguments ++ [{ a with origin := t.origin }] } :: bs)
        else .error ⟨.unknownArgument b.command a.name, t.origin⟩
  | .text => .ok (extendOpen blocks (.text t.value))
  | .image => .ok (extendOpen blocks (.image t.value))

/-- The blocks of a stream of tokens, up to the first error. -/
def assemble (tokens : List Token) : Except Error (List Block) :=
  (tokens.foldlM push []).map fun blocks => (blocks.map Block.trimmed).reverse

/-- The blocks of a sheet, up to the first error. -/
def parse (rows : List Row) : Except Error (List Block) := assemble (tokensOf rows)

end SheetMarkup
