import SheetMarkup.Document.Basic
import SheetMarkup.Document.Config
import SheetMarkup.Document.Registry

/-!
# Rendering

Blocks become a document in two passes: all styles are declared first, then the paragraphs are
laid out, so a style may stand after the paragraphs that use it.

* `Registry.layout`: the nodes of one paragraph block.
* `Registry.layBlock`: what one block adds in the second pass.
* `render`: the document of a script.
-/

namespace SheetMarkup

/-- A document and the warnings on the way to it. -/
structure Rendered where
  document : Document
  warnings : List Warning
  deriving DecidableEq

/-- The node of a line in a style. -/
def BodyEntry.node (style : String) : BodyEntry → Node
  | text line => .paragraph style line
  | image source => .image style source

namespace Registry

/-- The style of a paragraph block: the last one that it names, else the default style. -/
def styleOf (r : Registry) (b : Block) : Except Error String :=
  match b.argument? "style" with
  | none => .ok r.defaultId
  | some a =>
    match r.resolve? a.value with
    | some id => .ok id
    | none => .error ⟨.unresolvedStyleReference a.value, a.origin⟩

/-- The warnings about a paragraph block. -/
def repeated (b : Block) : List Warning :=
  let count := (b.argumentsNamed "style").length
  if 1 < count then [⟨.repeatedStyle count, b.origin⟩] else []

/-- The nodes of a paragraph block. -/
def layout (r : Registry) (b : Block) : Except Error (List Node) :=
  (r.styleOf b).map fun style => b.body.map (BodyEntry.node style)

/-- The nodes that have been laid out, and all warnings so far. -/
structure Laid where
  nodes : List Node
  warnings : List Warning

/-- Lays out one block. A style has been declared before. -/
def layBlock (r : Registry) (laid : Laid) (b : Block) : Except Error Laid :=
  match b.command with
  | .paragraph =>
    (r.layout b).map fun nodes => ⟨laid.nodes ++ nodes, laid.warnings ++ repeated b⟩
  | .style => .ok laid

end Registry

/-- Renders a script. -/
def render (blocks : List Block) (config : Config) : Except Error Rendered := do
  let (registry, warnings) ← (Registry.collect blocks config.defaultStyle).mapError Prod.fst
  let laid ← blocks.foldlM registry.layBlock ⟨[], warnings⟩
  .ok {
    document := {
      pageMargin := config.pageMargin
      defaultStyle := registry.defaultId
      styles := registry.styles
      nodes := laid.nodes }
    warnings := laid.warnings }

end SheetMarkup
