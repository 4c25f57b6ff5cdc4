import SheetMarkup.Document.Warning
import SheetMarkup.Style.Descriptor

/-!
# The style registry

All declared styles by identifier, in the order in which the identifiers were first declared. A
later declaration of an identifier takes the place of the earlier one. The default style is known
without a declaration.

* `Registry.declare`: adds a style.
* `Registry.collect`: the registry of all style blocks, with the warnings on the way.
-/

namespace SheetMarkup

/-- The declared styles and the identifier of the default style. -/
structure Registry where
  styles : List Descriptor
  defaultId : String
  deriving DecidableEq

namespace Registry

/-- A registry without declared styles. -/
def new (defaultStyle : String) : Registry := ⟨[], toIdentifier defaultStyle⟩

/-- The declared style with an identifier. -/
def get? (r : Registry) (id : String) : Option Descriptor := r.styles.find? (·.id == id)

/-- The identifier is declared. -/
def declares (r : Registry) (id : String) : Bool := r.styles.any (·.id == id)

/-- The identifier is declared or that of the default style. -/
def contains (r : Registry) (id : String) : Bool := id == r.defaultId || r.declares id

/-- The known identifier that a reference leads to. -/
def resolve? (r : Registry) (reference : String) : Option String :=
  some (toIdentifier reference) |>.filter r.contains

/-- Adds a style, in the place of an earlier one with its identifier. -/
def declare (r : Registry) (style : Descriptor) : Registry :=
  if r.declares style.id then
    { r with styles := r.styles.map fun s => if s.id == style.id then style else s }
  else { r with styles := r.styles ++ [style] }

/-- A style declaration: the descriptor and the block that it comes from. -/
structure Declaration where
  style : Descriptor
  block : Block

/-- The registry after some declarations, and the warnings that they gave. -/
structure Progress where
  registry : Registry
  warnings : List Warning
  /-- In the order of the sheet, replaced ones included. -/
  declarations : List Declaration

/-- Takes up a style block. The error keeps the warnings given before it. -/
def step (p : Progress) (b : Block) : Except (Error × List Warning) Progress :=
  match Descriptor.ofBlock b with
  | .error e => .error (e, p.warnings)
  | .ok style =>
    let ignored := if b.body.isEmpty then [] else [⟨.ignoredBody style.name, b.origin⟩]
    let again := if p.registry.declares style.id then [⟨.redeclared style.id, b.origin⟩] else []
    .ok {
      registry := p.registry.declare style
      warnings := p.warnings ++ ignored ++ again
      declarations := p.declarations ++ [⟨style, b⟩] }

/-- The warning about a declaration whose parent is not known. -/
def unknownParent? (r : Registry) (d : Declaration) : Option Warning :=
  (d.style.parent.filter fun p => !r.contains p).map fun p =>
    ⟨.unknownParent d.style.id p, d.block.origin⟩

/-- The registry of all style blocks and the warnings in order. -/
def collect (blocks : List Block) (defaultStyle : String) :
    Except (Error × List Warning) (Registry × List Warning) :=
  ((blocks.filter (·.command = .style)).foldlM step ⟨new defaultStyle, [], []⟩).map fun p =>
    (p.registry, p.warnings ++ p.declarations.filterMap (unknownParent? p.registry))

end Registry

end SheetMarkup
