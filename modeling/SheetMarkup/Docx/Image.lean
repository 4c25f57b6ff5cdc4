/-!
# Images

The format of an image is told from its first bytes, its size in pixels from its header, and its
size on the page from the pixels and the width of the text.

* `ImageFormat.detect?`: the format of some bytes.
* `pixelSize?`: width and height in pixels.
* `extent`: width and height on the page.
* `extent64?`: the same in numbers of 64 bits, in which every product has to fit.
-/

namespace SheetMarkup.Docx

/-- The formats that a document can show. -/
inductive ImageFormat where
  | png
  | jpeg
  | gif
  | bmp
  deriving DecidableEq

namespace ImageFormat

/-- The bytes that a file of this format starts with. -/
def signature : ImageFormat → List UInt8
  | png => [0x89, 0x50, 0x4E, 0x47, 0x0D, 0x0A, 0x1A, 0x0A]
  | jpeg => [0xFF, 0xD8, 0xFF]
  | gif => [0x47, 0x49, 0x46, 0x38]
  | bmp => [0x42, 0x4D]

/-- The format of some bytes. -/
def detect? (data : List UInt8) : Option ImageFormat :=
  [png, jpeg, gif, bmp].find? fun f => f.signature.isPrefixOf data

/-- The extension of a file of this format. -/
def extension : ImageFormat → String
  | png => "png"
  | jpeg => "jpeg"
  | gif => "gif"
  | bmp => "bmp"

/-- The media type of this format. -/
def contentType : ImageFormat → String
  | png => "image/png"
  | jpeg => "image/jpeg"
  | gif => "image/gif"
  | bmp => "image/bmp"

end ImageFormat

/-! ## Pixels -/

/-- A number whose first byte counts most. -/
def bigEndian (bytes : List UInt8) : Nat := bytes.foldl (fun n b => 256 * n + b.toNat) 0

/-- A number whose last byte counts most. -/
def littleEndian (bytes : List UInt8) : Nat := bigEndian bytes.reverse

/-- The bytes of a field, if the data reaches that far. -/
def field? (data : List UInt8) (start width : Nat) : Option (List UInt8) :=
  let bytes := (data.drop start).take width
  if bytes.length = width then some bytes else none

/-- The distance from zero of a number of 32 bits with a sign. -/
def magnitude32 (n : Nat) : Nat := if n < 2147483648 then n else 4294967296 - n

/-- The marker of a frame header. -/
def isFrameMarker (m : UInt8) : Bool :=
  0xC0 ≤ m.toNat && m.toNat ≤ 0xCF && m != 0xC4 && m != 0xC8 && m != 0xCC

/-- A marker without a body. -/
def isBareMarker (m : UInt8) : Bool := m == 0x01 || (0xD0 ≤ m.toNat && m.toNat ≤ 0xD7)

/-- Walks over the segments of a JPEG file up to its frame header. A segment is a marker of two
bytes, and a length that counts itself. -/
def jpegScan (data : List UInt8) : Option (Nat × Nat) :=
  match data with
  | a :: m :: x :: y :: rest =>
    if a != 0xFF then none
    else if m == 0xFF then jpegScan (m :: x :: y :: rest)
    else if isBareMarker m then jpegScan (x :: y :: rest)
    else if isFrameMarker m then
      match rest with
      | _ :: h1 :: h2 :: w1 :: w2 :: _ => some (bigEndian [w1, w2], bigEndian [h1, h2])
      | _ => none
    else jpegScan ((x :: y :: rest).drop (bigEndian [x, y]))
  | _ => none
termination_by data.length
decreasing_by
  all_goals simp only [List.length_cons, List.length_drop]
  all_goals omega

/-- Width and height in pixels, from the header of the format. -/
def pixelSize? (format : ImageFormat) (data : List UInt8) : Option (Nat × Nat) := do
  match format with
  | .png => some (bigEndian (← field? data 16 4), bigEndian (← field? data 20 4))
  | .gif => some (littleEndian (← field? data 6 2), littleEndian (← field? data 8 2))
  | .bmp =>
    some (magnitude32 (littleEndian (← field? data 18 4)),
      magnitude32 (littleEndian (← field? data 22 4)))
  | .jpeg => jpegScan (data.drop 2)

/-! ## The page -/

/-- The width of a page in twentieths of a point. -/
def pageWidth : Nat := 11906

/-- The height of a page in twentieths of a point. -/
def pageHeight : Nat := 16838

/-- Drawing units in a pixel. -/
def unitsPerPixel : Nat := 9525

/-- Drawing units in a twentieth of a point. -/
def unitsPerTwip : Nat := 635

/-- The side of an image of unknown size: an inch. -/
def defaultExtent : Nat := 914400

/-- The width of the text in drawing units. -/
def textWidth (margin : Nat) : Nat := (pageWidth - 2 * margin) * unitsPerTwip

/-- The size of an image in drawing units before it is fitted. -/
def naturalExtent : Option (Nat × Nat) → Nat × Nat
  | some (w, h) =>
    if 0 < w && 0 < h then (w * unitsPerPixel, h * unitsPerPixel)
    else (defaultExtent, defaultExtent)
  | none => (defaultExtent, defaultExtent)

/-- The size of an image in drawing units. One that is wider than the text is scaled down, unless
there is no room for text at all. -/
def extent (pixels : Option (Nat × Nat)) (maxWidth : Nat) : Nat × Nat :=
  let (width, height) := naturalExtent pixels
  if 0 < maxWidth && maxWidth < width then (maxWidth, height * maxWidth / width)
  else (width, height)

/-! ## Numbers of 64 bits -/

/-- The number fits 64 bits with a sign. -/
def Fits64 (n : Int) : Prop := -9223372036854775808 ≤ n ∧ n < 9223372036854775808

instance (n : Int) : Decidable (Fits64 n) := inferInstanceAs (Decidable (_ ∧ _))

/-- A product, unless it does not fit 64 bits with a sign. -/
def product64? (m n : Int) : Option Int := if Fits64 (m * n) then some (m * n) else none

/-- What two margins leave of the page. Doubling a margin of 32 bits stops at the greatest number
of 32 bits, and taking it from the page stops at zero. -/
def textTwips (margin : UInt32) : Nat := pageWidth - min (2 * margin.toNat) 4294967295

/-- The width of the text in drawing units, where the product has to fit. -/
def textWidth64? (margin : UInt32) : Option Int := product64? (textTwips margin) unitsPerTwip

/-- The size of an image before it is fitted, where the products have to fit. -/
def naturalExtent64? : Option (Nat × Nat) → Option (Int × Int)
  | some (w, h) =>
    if 0 < w && 0 < h then do
      return (← product64? w unitsPerPixel, ← product64? h unitsPerPixel)
    else some (defaultExtent, defaultExtent)
  | none => some (defaultExtent, defaultExtent)

/-- The size of an image, where the products have to fit. -/
def extent64? (pixels : Option (Nat × Nat)) (maxWidth : Int) : Option (Int × Int) := do
  let (width, height) ← naturalExtent64? pixels
  if 0 < maxWidth && maxWidth < width then
    return (maxWidth, (← product64? height maxWidth).tdiv width)
  else return (width, height)

/-- The size on the page of an image with a margin of 32 bits, where all products have to fit. -/
def pictureExtent64? (format : ImageFormat) (data : List UInt8) (margin : UInt32) :
    Option (Int × Int) := do
  extent64? (pixelSize? format data) (← textWidth64? margin)

end SheetMarkup.Docx
