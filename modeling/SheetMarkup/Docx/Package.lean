import SheetMarkup.Docx.Parts

/-!
# Document packages

A word processor document is a package of named parts: markup, and the data of its pictures.

* `partsOf`: the parts of a document in order.
* `package`: the same, if its images can be loaded and its numbers have their widths.
-/

namespace SheetMarkup.Docx

/-- What a part holds. -/
inductive Content where
  | markup (text : String)
  | data (bytes : ByteArray)

/-- The bytes of a part. -/
def Content.bytes : Content → ByteArray
  | markup text => text.toUTF8
  | data bytes => bytes

/-- A named part. -/
structure Part where
  name : String
  content : Content

/-- The parts of a document with its pictures. -/
def partsOf (d : Document) (pictures : List Picture) : List Part :=
  [⟨"[Content_Types].xml", .markup (Xml.documentText (contentTypes pictures))⟩,
    ⟨"_rels/.rels", .markup (Xml.documentText packageRelations)⟩,
    ⟨"word/document.xml", .markup (Xml.documentText (documentPart d pictures))⟩,
    ⟨"word/styles.xml", .markup (Xml.documentText (stylesPart d))⟩,
    ⟨"word/_rels/document.xml.rels", .markup (Xml.documentText (documentRelations pictures))⟩] ++
    pictures.map fun p => ⟨"word/" ++ p.target, .data p.data⟩

/-- One more than the greatest number of a drawing. -/
def drawingBound : Nat := 4294967296

/-- The package of a document, with the images of a store. Arithmetic is taken to stop where a number
leaves its width, once all images have been loaded. -/
def package (d : Document) (media : Media) : Except Refusal (List Part) := do
  let pictures ← collect d media
  if pictures.all (·.fits d.pageMargin) && (shownSources d).length < drawingBound then
    .ok (partsOf d pictures)
  else .error .overflow

end SheetMarkup.Docx
