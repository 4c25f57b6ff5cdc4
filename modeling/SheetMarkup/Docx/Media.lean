import SheetMarkup.Files.Error

/-!
# Media

Where the images of a document come from: those that the sheet carries with it, and then files.

* `Media.insert`, `Media.extend`: images of the sheet, the later of two with one name counting.
* `Media.load`: the bytes of an image.
-/

namespace SheetMarkup.Docx

/-- The images that a sheet carries with it, and the files beside it. -/
structure Media where
  embedded : List (String × ByteArray) := []
  /-- What reading a file gives. -/
  file : String → Except FileError ByteArray := fun _ => .error .notFound

namespace Media

/-- Adds an image. -/
def insert (m : Media) (source : String) (data : ByteArray) : Media :=
  { m with embedded := (source, data) :: m.embedded }

/-- Adds images one after the other. -/
def extend (m : Media) (images : List (String × ByteArray)) : Media :=
  images.foldl (fun m i => m.insert i.1 i.2) m

/-- The image that the sheet carries under a name. -/
def embedded? (m : Media) (source : String) : Option ByteArray :=
  (m.embedded.find? (·.1 == source)).map Prod.snd

/-- The bytes of an image. -/
def load (m : Media) (source : String) : Except FileError ByteArray :=
  match m.embedded? source with
  | some data => .ok data
  | none => m.file source

end Media

end SheetMarkup.Docx
