import SheetMarkup.Docx.Image
import SheetMarkup.Docx.Media
import SheetMarkup.Document.Basic

/-!
# Pictures

Every image source of a document becomes one picture of its package, however often it is shown.
Pictures are numbered in the order in which they appear first.

* `Picture`: the data of an image with its place in the package.
* `collect`: the pictures of a document.
-/

namespace SheetMarkup.Docx

/-- Why a document cannot be written. -/
inductive Refusal where
  | image (source : String) (error : FileError)
  | unsupportedImage (source : String)
  /-- A size leaves 64 bits, or the number of a drawing 32 bits. -/
  | overflow
  deriving DecidableEq

/-- The wording of a refusal. -/
def Refusal.message : Refusal → String
  | image source error => "cannot load image `" ++ source ++ "`: " ++ error.message
  | unsupportedImage source =>
    "image `" ++ source ++ "` is not a PNG, JPEG, GIF or BMP file"
  | overflow => "arithmetic overflow"

/-- An image of the package. -/
structure Picture where
  source : String
  /-- Counted from one. -/
  number : Nat
  format : ImageFormat
  width : Nat
  height : Nat
  data : ByteArray

namespace Picture

/-- The name by which the document refers to the picture. The first name is that of the styles. -/
def relationId (p : Picture) : String := "rId" ++ Text.decimal (p.number + 1)

/-- The part of the picture, from the folder of the document. -/
def target (p : Picture) : String :=
  "media/image" ++ Text.decimal p.number ++ "." ++ p.format.extension

/-- The size of the picture can be computed in 64 bits. -/
def fits (margin : Nat) (p : Picture) : Bool :=
  (extent64? (pixelSize? p.format p.data.data.toList) (textWidth margin)).isSome

/-- Loads a picture and fits it to the width of the text. -/
def load (media : Media) (maxWidth number : Nat) (source : String) : Except Refusal Picture := do
  let data ← (media.load source).mapError (.image source)
  let bytes := data.data.toList
  match ImageFormat.detect? bytes with
  | none => .error (.unsupportedImage source)
  | some format =>
    let (width, height) := extent (pixelSize? format bytes) maxWidth
    .ok ⟨source, number, format, width, height, data⟩

end Picture

/-- The source of a node that shows an image. -/
def imageSource? : Node → Option String
  | .image _ source => some source
  | .paragraph _ _ => none

/-- The sources of all nodes that show an image. -/
def shownSources (d : Document) : List String := d.nodes.filterMap imageSource?

/-- Each text at its first place only. -/
def firstOccurrences (texts : List String) : List String :=
  (texts.foldl (fun seen t => if seen.contains t then seen else t :: seen) []).reverse

/-- The image sources of a document in the order of their first appearance. -/
def imageSources (d : Document) : List String :=
  firstOccurrences (shownSources d)

/-- The pictures of a document. -/
def collect (d : Document) (media : Media) : Except Refusal (List Picture) :=
  (imageSources d).zipIdx.mapM fun s =>
    Picture.load media (textWidth d.pageMargin) (s.2 + 1) s.1

end SheetMarkup.Docx
