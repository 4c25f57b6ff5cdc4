import Mathlib.Algebra.Ring.Int.Defs
import Mathlib.Algebra.Ring.Nat
import Mathlib.Data.Int.Order.Basic
import Mathlib.Order.Bounds.Basic
import SheetMarkup.Proofs.Docx.Frames
import SheetMarkup.Proofs.Docx.Pictures

/-!
# Sizes on the page

A picture that is wider than the text is scaled down to its width, and its height with it, rounded
down. The sizes are computed in numbers of 64 bits with a sign, from pixels and a margin of 32 bits.
Only one product can be too great for that, the height times the width of the text, and only the
height can become zero.

* `textWidth64?_eq`, **`extent64?_eq`**: when sizes are the same in 64 bits;
* `extent_of_fits`, `extent_of_wide`, **`isGreatest_height`**: pictures that fit and pictures that
  are scaled;
* **`extent_fits_page`**: the sizes of all pictures;
* `fits32_of_pixelSize?`: the pixels that a file can name;
* **`extents_in_range`**: when a size is computed at all, and when nothing of it is zero;
* `vanishing_extent`: pictures for which it goes wrong.
-/

namespace SheetMarkup.Docx

open Outcome

/-! ## The width of the text -/

theorem product64?_of_fits {m n : Int} (h : Fits64 (m * n)) : product64? m n = some (m * n) :=
  if_pos h

/-- **The width of the text never gets too great.** -/
theorem textWidth64?_eq (margin : UInt32) :
    textWidth64? margin = some (textWidth margin.toNat : Int) := by
  have hpage : textTwips margin = pageWidth - 2 * margin.toNat := by
    unfold textTwips pageWidth
    omega
  have hle : textTwips margin ≤ 11906 := by
    unfold textTwips pageWidth
    omega
  have hfits : Fits64 ((textTwips margin : Int) * (unitsPerTwip : Int)) := by
    unfold Fits64 unitsPerTwip
    omega
  rw [textWidth64?, product64?_of_fits hfits, hpage, textWidth]
  push_cast
  rfl

/-! ## Sizes before they are fitted -/

/-- Width and height fit 32 bits. -/
def Fits32 (size : Nat × Nat) : Prop := size.1 < 2 ^ 32 ∧ size.2 < 2 ^ 32

variable {pixels : Option (Nat × Nat)}

theorem naturalExtent_pos (pixels : Option (Nat × Nat)) :
    0 < (naturalExtent pixels).1 ∧ 0 < (naturalExtent pixels).2 := by
  unfold naturalExtent
  split
  · split_ifs with h
    · rw [Bool.and_eq_true, decide_eq_true_eq, decide_eq_true_eq] at h
      exact ⟨Nat.mul_pos h.1 (by decide), Nat.mul_pos h.2 (by decide)⟩
    · exact ⟨by decide, by decide⟩
  · exact ⟨by decide, by decide⟩

theorem naturalExtent64?_eq (h : ∀ size ∈ pixels, Fits32 size) : naturalExtent64? pixels =
    some (((naturalExtent pixels).1 : Int), ((naturalExtent pixels).2 : Int)) := by
  have hside : ∀ n : Nat, n < 2 ^ 32 →
      product64? n unitsPerPixel = some ((n * unitsPerPixel : Nat) : Int) := by
    intro n hn
    have hfits : Fits64 ((n : Int) * (unitsPerPixel : Int)) := by
      unfold Fits64 unitsPerPixel
      omega
    rw [product64?_of_fits hfits]
    push_cast
    rfl
  cases pixels with
  | none => rfl
  | some size =>
    obtain ⟨w, hh⟩ := size
    obtain ⟨hw, hh'⟩ := h (w, hh) rfl
    unfold naturalExtent64? naturalExtent
    simp only
    split_ifs
    · rw [hside w hw, hside hh hh']
      rfl
    · rfl

/-! ## Fitting -/

variable {maxWidth : Nat}

/-- A picture stays as it is if it is not wider than the text, or if there is no room for text. -/
theorem extent_of_fits (h : maxWidth = 0 ∨ (naturalExtent pixels).1 ≤ maxWidth) :
    extent pixels maxWidth = naturalExtent pixels := by
  have hcond : ¬ (decide (0 < maxWidth) && decide (maxWidth < (naturalExtent pixels).1)) = true := by
    rw [Bool.and_eq_true, decide_eq_true_eq, decide_eq_true_eq]
    omega
  rw [extent]
  simp only [hcond]
  rfl

theorem extent_of_wide (hpos : 0 < maxWidth) (h : maxWidth < (naturalExtent pixels).1) :
    extent pixels maxWidth =
      (maxWidth, (naturalExtent pixels).2 * maxWidth / (naturalExtent pixels).1) := by
  rw [extent]
  simp only [decide_eq_true hpos, decide_eq_true h, Bool.and_self, if_true]

theorem extent_width_pos (pixels : Option (Nat × Nat)) (maxWidth : Nat) :
    0 < (extent pixels maxWidth).1 := by
  by_cases hfits : maxWidth = 0 ∨ (naturalExtent pixels).1 ≤ maxWidth
  · rw [extent_of_fits hfits]
    exact (naturalExtent_pos pixels).1
  · rw [not_or, not_le] at hfits
    rw [extent_of_wide (by omega) hfits.2]
    exact Nat.pos_of_ne_zero hfits.1

/-- The picture is scaled and the product for it does not fit. -/
def Overflows (pixels : Option (Nat × Nat)) (maxWidth : Int) : Prop :=
  0 < maxWidth ∧ maxWidth < (naturalExtent pixels).1 ∧ ¬ Fits64 ((naturalExtent pixels).2 * maxWidth)

/-- **In numbers of 64 bits the sizes are the same, unless the one product does not fit.** -/
theorem extent64?_eq (h : ∀ size ∈ pixels, Fits32 size) (maxWidth : Int) :
    (Overflows pixels maxWidth → extent64? pixels maxWidth = none) ∧
      (¬ Overflows pixels maxWidth → extent64? pixels maxWidth =
        some (((extent pixels maxWidth.toNat).1 : Int), ((extent pixels maxWidth.toNat).2 : Int))) := by
  unfold extent64?
  rw [naturalExtent64?_eq h, Option.bind_eq_bind, Option.bind_some]
  simp only
  by_cases hwide : 0 < maxWidth ∧ maxWidth < (naturalExtent pixels).1
  · obtain ⟨hpos, hlt⟩ := hwide
    rw [if_pos (by rw [decide_eq_true hpos, decide_eq_true hlt]; rfl)]
    refine ⟨fun hover => ?_, fun hover => ?_⟩
    · rw [product64?, if_neg hover.2.2]
      rfl
    · have hfits : Fits64 ((naturalExtent pixels).2 * maxWidth) :=
        Classical.not_not.mp fun hn => hover ⟨hpos, hlt, hn⟩
      obtain ⟨n, rfl⟩ := Int.eq_ofNat_of_zero_le hpos.le
      rw [product64?_of_fits hfits, Int.toNat_natCast, extent_of_wide (by omega) (by omega)]
      simp only [Option.bind_eq_bind, Option.bind_some, Option.pure_def]
      rw [Int.tdiv_eq_ediv_of_nonneg (Int.mul_nonneg (Int.natCast_nonneg _) hpos.le)]
      push_cast
      rfl
  · refine ⟨fun hover => absurd ⟨hover.1, hover.2.1⟩ hwide, fun _ => ?_⟩
    rw [if_neg (by rwa [Bool.and_eq_true, decide_eq_true_eq, decide_eq_true_eq]),
      extent_of_fits (by omega)]
    rfl

/-! ## The pictures of a document -/

theorem bigEndian_lt (bytes : List UInt8) : bigEndian bytes < 256 ^ bytes.length := by
  induction bytes using List.reverseRecOn with
  | nil => decide
  | append_singleton bytes b ih =>
    have hstep : bigEndian (bytes ++ [b]) = 256 * bigEndian bytes + b.toNat := by
      rw [bigEndian, List.foldl_append]
      rfl
    have hb := b.toNat_lt
    rw [hstep, List.length_append, List.length_singleton, Nat.pow_succ]
    omega

theorem length_of_field? {data bytes : List UInt8} {start width : Nat}
    (h : field? data start width = some bytes) : bytes.length = width := by
  unfold field? at h
  simp only [Option.ite_none_right_eq_some, Option.some.injEq] at h
  rw [← h.2, h.1]

theorem bigEndian_field_lt {data bytes : List UInt8} {start width : Nat}
    (h : field? data start width = some bytes) : bigEndian bytes < 256 ^ width := by
  rw [← length_of_field? h]
  exact bigEndian_lt bytes

theorem littleEndian_field_lt {data bytes : List UInt8} {start width : Nat}
    (h : field? data start width = some bytes) : littleEndian bytes < 256 ^ width := by
  rw [← length_of_field? h, ← List.length_reverse]
  exact bigEndian_lt bytes.reverse

theorem magnitude32_lt {n : Nat} (h : n < 2 ^ 32) : magnitude32 n < 2 ^ 32 := by
  unfold magnitude32
  split_ifs <;> omega

/-- **No file names more pixels than fit 32 bits.** -/
theorem fits32_of_pixelSize? {format : ImageFormat} {data : List UInt8} {size : Nat × Nat}
    (h : pixelSize? format data = some size) : Fits32 size := by
  cases format with
  | png =>
    obtain ⟨width, hwidth, h⟩ := Option.bind_eq_some_iff.mp h
    obtain ⟨height, hheight, h⟩ := Option.bind_eq_some_iff.mp h
    cases h
    exact ⟨bigEndian_field_lt hwidth, bigEndian_field_lt hheight⟩
  | gif =>
    obtain ⟨width, hwidth, h⟩ := Option.bind_eq_some_iff.mp h
    obtain ⟨height, hheight, h⟩ := Option.bind_eq_some_iff.mp h
    cases h
    have hw := littleEndian_field_lt hwidth
    have hh := littleEndian_field_lt hheight
    exact ⟨by omega, by omega⟩
  | bmp =>
    obtain ⟨width, hwidth, h⟩ := Option.bind_eq_some_iff.mp h
    obtain ⟨height, hheight, h⟩ := Option.bind_eq_some_iff.mp h
    cases h
    exact ⟨magnitude32_lt (littleEndian_field_lt hwidth),
      magnitude32_lt (littleEndian_field_lt hheight)⟩
  | jpeg =>
    obtain ⟨l, -, rfl⟩ := exists_layout h
    have hw := pairValue_lt l.frame.width.1 l.frame.width.2
    have hh := pairValue_lt l.frame.height.1 l.frame.height.2
    unfold Fits32 Layout.size
    omega

section Range

variable {format : ImageFormat} {data : List UInt8} {w h : Nat}
  (hs : pixelSize? format data = some (w, h)) (hw : 0 < w) (hh : 0 < h)

include hw hh in
theorem naturalExtent_of_pos : naturalExtent (some (w, h)) = (w * 9525, h * 9525) := by
  rw [naturalExtent]
  simp only [decide_eq_true hw, decide_eq_true hh, Bool.and_self, if_true]
  rfl

include hw hh in
/-- The height is zero where the picture is too flat for the text. -/
theorem extent_height_pos_iff (maxWidth : Nat) :
    0 < (extent (some (w, h)) maxWidth).2 ↔ maxWidth = 0 ∨ w ≤ h * maxWidth := by
  have hnatural := naturalExtent_of_pos hw hh
  by_cases hfits : maxWidth = 0 ∨ w * 9525 ≤ maxWidth
  · rw [extent_of_fits (by rw [hnatural]; exact hfits), hnatural]
    have hflat : maxWidth ≤ h * maxWidth := Nat.le_mul_of_pos_left maxWidth hh
    exact iff_of_true (Nat.mul_pos hh (by decide)) (hfits.imp_right fun hle => by omega)
  · rw [not_or, not_le] at hfits
    rw [extent_of_wide (by omega) (by rw [hnatural]; exact hfits.2), hnatural,
      Nat.div_pos_iff, Nat.mul_right_comm]
    simp only [Nat.mul_le_mul_right_iff (show 0 < 9525 by decide)]
    omega

include hw hh in
theorem overflows_iff (maxWidth : Nat) : Overflows (some (w, h)) maxWidth ↔
    0 < maxWidth ∧ maxWidth < w * 9525 ∧ 2 ^ 63 ≤ h * 9525 * maxWidth := by
  have hfits : Fits64 (((h * 9525 : Nat) : Int) * maxWidth) ↔ h * 9525 * maxWidth < 2 ^ 63 := by
    rw [← Int.natCast_mul, Fits64]
    omega
  rw [Overflows, naturalExtent_of_pos hw hh, hfits, not_lt]
  omega

include hs hw hh in
/-- **When sizes stay in range:** a size is missing where one product leaves 64 bits, and a height
is zero where the picture is too flat. -/
theorem extents_in_range (margin : UInt32) :
    textWidth64? margin = some (textWidth margin.toNat : Int) ∧
    naturalExtent64? (some (w, h)) = some (((w * 9525 : Nat) : Int), ((h * 9525 : Nat) : Int)) ∧
    (pictureExtent64? format data margin = none ↔
      0 < textWidth margin.toNat ∧ textWidth margin.toNat < w * 9525 ∧
        2 ^ 63 ≤ h * 9525 * textWidth margin.toNat) ∧
    ∀ width height, pictureExtent64? format data margin = some (width, height) →
      extent (some (w, h)) (textWidth margin.toNat) = (width.toNat, height.toNat) ∧ 0 < width ∧
        (0 < height ↔ textWidth margin.toNat = 0 ∨ w ≤ h * textWidth margin.toNat) := by
  have h32 : ∀ size ∈ some (w, h), Fits32 size := fun _ he =>
    Option.some.inj he ▸ fits32_of_pixelSize? hs
  have hpicture : pictureExtent64? format data margin =
      extent64? (some (w, h)) (textWidth margin.toNat : Int) := by
    rw [pictureExtent64?, hs, textWidth64?_eq]
    rfl
  obtain ⟨hnone, hsome⟩ := extent64?_eq h32 (textWidth margin.toNat : Int)
  rw [overflows_iff hw hh] at hnone hsome
  rw [Int.toNat_natCast] at hsome
  refine ⟨textWidth64?_eq margin, ?_, ?_, fun width height hsize => ?_⟩
  · rw [naturalExtent64?_eq h32, naturalExtent_of_pos hw hh]
  · rw [hpicture]
    refine ⟨fun he => ?_, hnone⟩
    by_contra hover
    rw [hsome hover] at he
    cases he
  · rw [hpicture] at hsize
    have hover : ¬ (0 < textWidth margin.toNat ∧ textWidth margin.toNat < w * 9525 ∧
        2 ^ 63 ≤ h * 9525 * textWidth margin.toNat) := fun hover => by
      rw [hnone hover] at hsize
      cases hsize
    rw [hsome hover] at hsize
    cases hsize
    refine ⟨rfl, ?_, ?_⟩
    · exact_mod_cast extent_width_pos (some (w, h)) (textWidth margin.toNat)
    · rw [← extent_height_pos_iff hw hh]
      omega

end Range

/-! ## Pictures that go wrong -/

/-- The start of a PNG file with the bytes of its width and height. -/
def pngHeader (width height : List UInt8) : List UInt8 :=
  ImageFormat.png.signature ++ [0x00, 0x00, 0x00, 0x0D, 0x49, 0x48, 0x44, 0x52] ++ width ++ height

/-- A picture of a single row of pixels. -/
def ribbonPng : List UInt8 := pngHeader [0x00, 0x5D, 0x62, 0xC3] [0x00, 0x00, 0x00, 0x01]

/-- A picture with as many pixels as a file can name. -/
def hugePng : List UInt8 := pngHeader [0xFF, 0xFF, 0xFF, 0xFF] [0xFF, 0xFF, 0xFF, 0xFF]

theorem extents_in_range_ribbonPng :
    pictureExtent64? .png ribbonPng 1134 ≠ none ∧ ∀ width height,
      pictureExtent64? .png ribbonPng 1134 = some (width, height) → 0 < width ∧ ¬ 0 < height := by
  have hpixels : pixelSize? .png ribbonPng = some (6120131, 1) := by decide
  obtain ⟨-, -, hnone, hsize⟩ := extents_in_range hpixels (by decide) (by decide) 1134
  refine ⟨fun h => absurd (hnone.mp h) (by decide), fun width height h => ?_⟩
  obtain ⟨-, hwidth, hheight⟩ := hsize width height h
  exact ⟨hwidth, fun hpos => absurd (hheight.mp hpos) (by decide)⟩

theorem vanishing_extent :
    ImageFormat.detect? ribbonPng = some .png ∧ pixelSize? .png ribbonPng = some (6120131, 1) ∧
      pictureExtent64? .png ribbonPng 1134 = some (6120130, 0) ∧
    ImageFormat.detect? hugePng = some .png ∧
      pixelSize? .png hugePng = some (4294967295, 4294967295) ∧
      pictureExtent64? .png hugePng 1134 = none := by
  decide

end SheetMarkup.Docx
