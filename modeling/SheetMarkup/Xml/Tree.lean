import SheetMarkup.Xml.Escape

/-!
# Markup trees

Elements with attributes and children. Attribute values and texts are held as they are written, so
that a text of the user is escaped where it enters the tree.

* `Tree`: an element or a text.
* `Tree.chars`: the written form.
* `documentText`: a whole part, with its declaration.
-/

namespace SheetMarkup.Xml

/-- An element or a text. -/
inductive Tree where
  | element (name : String) (attributes : List (String × String)) (children : List Tree)
  | text (written : String)

/-- An attribute with a space before it. -/
def attributeChars (a : String × String) : List Char :=
  ' ' :: a.1.toList ++ '=' :: '"' :: a.2.toList ++ ['"']

/-- The name and the attributes of a tag. -/
def tagChars (name : String) (attributes : List (String × String)) : List Char :=
  name.toList ++ attributes.flatMap attributeChars

mutual

/-- The written form of a tree. An element without children closes itself. -/
def Tree.chars : Tree → List Char
  | .text written => written.toList
  | .element name attributes [] => '<' :: tagChars name attributes ++ ['/', '>']
  | .element name attributes (t :: ts) =>
    '<' :: tagChars name attributes ++ '>' :: t.chars ++ treesChars ts ++
      '<' :: '/' :: name.toList ++ ['>']

/-- The written form of some trees. -/
def treesChars : List Tree → List Char
  | [] => []
  | t :: ts => t.chars ++ treesChars ts

end

/-- An element without children. -/
def leaf (name : String) (attributes : List (String × String) := []) : Tree :=
  .element name attributes []

/-- An element without attributes. -/
def group (name : String) (children : List Tree) : Tree := .element name [] children

/-- The declaration at the start of a part. -/
def declaration : String := "<?xml version=\"1.0\" encoding=\"UTF-8\" standalone=\"yes\"?>"

/-- A part with one root element. -/
def documentText (root : Tree) : String := declaration ++ String.ofList root.chars

end SheetMarkup.Xml
