import SheetMarkup.Style.Descriptor

/-!
# Documents

A document has a page margin, a table of styles and its content in order, one node for every line.

* `Document.outline`: the content as text.
* `Document.display`: page setup, styles and content as text.
-/

namespace SheetMarkup

/-- One line of a document. -/
inductive Node where
  | paragraph (style text : String)
  | image (style source : String)
  deriving DecidableEq

/-- The identifier of the style of a node. -/
def Node.style : Node → String
  | paragraph style _ => style
  | image style _ => style

/-- The node as text. -/
def Node.display : Node → String
  | paragraph style text => "[" ++ style ++ "] " ++ text
  | image style source => "[" ++ style ++ "] <image " ++ source ++ ">"

/-- A rendered sheet. -/
structure Document where
  pageMargin : Nat
  /-- The identifier of the style of paragraphs that name none. -/
  defaultStyle : String
  styles : List Descriptor
  nodes : List Node
  deriving DecidableEq

/-- The style as a line of the document's text. -/
def Descriptor.display (s : Descriptor) : String :=
  "@style " ++ s.id ++ " name=" ++ Text.quoted s.name ++
    (match s.parent with
      | some parent => " parent=" ++ parent
      | none => "") ++
    " color=" ++ s.color ++ " font=" ++ Text.quoted s.font ++ " size=" ++ Text.decimal s.size ++
    "\n"

namespace Document

/-- The content, one line for every node. -/
def outline (d : Document) : String := String.join (d.nodes.map fun n => n.display ++ "\n")

/-- Page setup, styles and content. -/
def display (d : Document) : String :=
  "@page margin=" ++ Text.decimal d.pageMargin ++ "\n" ++
    String.join (d.styles.map Descriptor.display) ++ d.outline

end Document

end SheetMarkup
