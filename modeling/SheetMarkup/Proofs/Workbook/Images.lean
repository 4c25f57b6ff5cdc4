import SheetMarkup.Proofs.Docx.Pictures
import SheetMarkup.Workbook.Read

/-!
# The images of a workbook

A workbook that is read keeps the bytes of the parts that its image cells name. A part that the package
does not hold is passed over, so an image cell has its bytes exactly when its part is there.

* `Content.Shows`, `Content.Keeps`: the parts that image cells name, and the bytes that are kept;
* `read_eq_ok`: the images of a workbook come from its rows;
* `mem_pictures`, `bytes?_of_pictures`: the parts that are collected;
* **`images_of_read`**: the images of every workbook that is read;
* `missing_image_of_read`: a workbook whose image cell has no bytes.
-/

namespace SheetMarkup.Workbook

open Outcome

/-! ## What is shown and what is kept -/

/-- An image cell of some row has this value. -/
def Content.Shows (w : Content) (key : String) : Prop :=
  ∃ r ∈ w.rows, ∃ c ∈ r.cells, c.kind = .image ∧ c.value = key

/-- Some bytes are kept under this key. -/
def Content.Keeps (w : Content) (key : String) : Prop := key ∈ w.images.map Prod.fst

theorem mem_pictureParts {w : Content} {key : String} :
    key ∈ pictureParts w.rows ↔ w.Shows key := by
  have hshown : pictureParts w.rows = Docx.firstOccurrences ((w.rows.flatMap Row.cells).filterMap
      fun c => if c.kind = .image then some c.value else none) := rfl
  rw [hshown, Docx.mem_firstOccurrences, List.mem_filterMap]
  constructor
  · rintro ⟨c, hc, hvalue⟩
    obtain ⟨r, hr, hc⟩ := List.mem_flatMap.mp hc
    split_ifs at hvalue with hkind
    exact ⟨r, hr, c, hc, hkind, Option.some.inj hvalue⟩
  · rintro ⟨r, hr, c, hc, hkind, hvalue⟩
    exact ⟨c, List.mem_flatMap.mpr ⟨r, hr, hc⟩, by rw [if_pos hkind, hvalue]⟩

theorem nodup_pictureParts (rows : List Row) : (pictureParts rows).Nodup :=
  Docx.nodup_firstOccurrences _

/-! ## Collecting the parts -/

variable {p : Package} {parts : List String} {images : List (String × ByteArray)}

theorem pictures_cons {part : String} (h : pictures p (part :: parts) = .ok images) :
    ∃ data? rest, p.bytes? part = .ok data? ∧ pictures p parts = .ok rest ∧
      images = (data?.map (part, ·)).toList ++ rest := by
  obtain ⟨data?, hdata, h⟩ := bind_eq_ok.mp h
  obtain ⟨rest, hrest, h⟩ := bind_eq_ok.mp h
  exact ⟨data?, rest, hdata, hrest, (Except.ok.inj h).symm⟩

/-- **Of the parts, those that the package holds are kept with their bytes.** -/
theorem mem_pictures (h : pictures p parts = .ok images) {key : String} {data : ByteArray} :
    (key, data) ∈ images ↔ key ∈ parts ∧ p.bytes? key = .ok (some data) := by
  induction parts generalizing images with
  | nil =>
    cases h
    simp
  | cons part parts ih =>
    obtain ⟨data?, rest, hdata, hrest, rfl⟩ := pictures_cons h
    have hfirst : (key, data) ∈ (data?.map (part, ·)).toList ↔
        key = part ∧ p.bytes? key = .ok (some data) := by
      cases data? with
      | none =>
        rw [Option.map_none, Option.toList_none, List.mem_nil_iff, false_iff]
        rintro ⟨rfl, hbytes⟩
        rw [hbytes] at hdata
        cases hdata
      | some bytes =>
        rw [Option.map_some, Option.toList_some, List.mem_singleton, Prod.mk.injEq]
        refine and_congr_right ?_
        rintro rfl
        rw [hdata, Except.ok.injEq, Option.some.injEq, eq_comm]
    rw [List.mem_append, hfirst, ih hrest, List.mem_cons, or_and_right]

theorem keys_pictures (h : pictures p parts = .ok images) :
    (images.map Prod.fst).Sublist parts := by
  induction parts generalizing images with
  | nil =>
    cases h
    exact List.Sublist.slnil
  | cons part parts ih =>
    obtain ⟨data?, rest, -, hrest, rfl⟩ := pictures_cons h
    cases data? with
    | none => exact (ih hrest).cons part
    | some data => exact (ih hrest).cons_cons part

/-- A part that cannot be read is not passed over. -/
theorem bytes?_of_pictures (h : pictures p parts = .ok images) {part : String} (hp : part ∈ parts) :
    ∃ data?, p.bytes? part = .ok data? := by
  induction parts generalizing images with
  | nil => cases hp
  | cons first parts ih =>
    obtain ⟨data?, rest, hdata, hrest, -⟩ := pictures_cons h
    rcases List.mem_cons.mp hp with rfl | hp
    · exact ⟨data?, hdata⟩
    · exact ih hrest hp

/-! ## Workbooks -/

theorem read_eq_ok {w : Content} (h : p.read = .ok w) :
    pictures p (pictureParts w.rows) = .ok w.images := by
  obtain ⟨sheetPart, -, h⟩ := bind_eq_ok.mp h
  obtain ⟨strings, -, h⟩ := bind_eq_ok.mp h
  obtain ⟨index, -, h⟩ := bind_eq_ok.mp h
  obtain ⟨xml?, -, h⟩ := bind_eq_ok.mp h
  cases xml? with
  | none => cases h
  | some xml =>
    obtain ⟨rows, -, h⟩ := bind_eq_ok.mp h
    obtain ⟨images, himages, h⟩ := bind_eq_ok.mp h
    cases h
    exact himages

/-- **The images of a workbook that is read:** the parts that image cells name, as far as the
package holds them. -/
theorem images_of_read {w : Content} (h : p.read = .ok w) :
    (w.images.map Prod.fst).Nodup ∧
      (∀ key data, (key, data) ∈ w.images ↔ w.Shows key ∧ p.bytes? key = .ok (some data)) ∧
      ((∀ key, w.Shows key → w.Keeps key) ↔ ∀ key, w.Shows key → p.bytes? key ≠ .ok none) := by
  have himages := read_eq_ok h
  have hmem : ∀ key data, (key, data) ∈ w.images ↔
      w.Shows key ∧ p.bytes? key = .ok (some data) := by
    intro key data
    rw [mem_pictures himages, mem_pictureParts]
  refine ⟨(nodup_pictureParts w.rows).sublist (keys_pictures himages), hmem, ?_⟩
  refine forall_congr' fun key => imp_congr_right fun hshows => ?_
  obtain ⟨data?, hdata⟩ := bytes?_of_pictures himages (mem_pictureParts.mpr hshows)
  constructor
  · intro hkeeps hnone
    obtain ⟨⟨_, data⟩, hkept, rfl⟩ := List.mem_map.mp hkeeps
    have hbytes := ((hmem _ data).mp hkept).2
    rw [hnone] at hbytes
    cases hbytes
  · intro hsome
    cases data? with
    | none => exact absurd hdata hsome
    | some data => exact List.mem_map.mpr ⟨(key, data), (hmem key data).mpr ⟨hshows, hdata⟩, rfl⟩

/-- A package with one cell that shows a picture, and some further parts. -/
def picturePackage (further : List (String × ByteArray)) : Package :=
  .ofParts ([
    (fallbackSheet, ("<worksheet><sheetData><row r=\"2\"><c r=\"B2\" t=\"e\" vm=\"1\"/></row>" ++
      "</sheetData></worksheet>").toUTF8),
    (richValuePart, "<rvData><rv><v>0</v></rv></rvData>".toUTF8),
    (relationPart, "<richValueRels><rel r:id=\"a\"/></richValueRels>".toUTF8),
    (relationshipsPart relationPart,
      "<Relationships><Relationship Id=\"a\" Target=\"../media/a.png\"/></Relationships>".toUTF8)] ++
    further)

/-- The rows of the package. -/
def pictureRows : List Row := [⟨0, []⟩, ⟨1, [.empty, .image "xl/media/a.png"]⟩]

theorem shows_of_pictureRows {w : Content} (h : w.rows = pictureRows) : w.Shows "xl/media/a.png" :=
  ⟨⟨1, [.empty, .image "xl/media/a.png"]⟩, by simp [h, pictureRows], .image "xl/media/a.png",
    by simp, rfl, rfl⟩

theorem images_of_read_picturePackage : ∃ w,
    (picturePackage [("xl/media/a.png", "bytes".toUTF8)]).read = .ok w ∧ w.Shows "xl/media/a.png" ∧
      ("xl/media/a.png", "bytes".toUTF8) ∈ w.images := by
  have hrows : ((picturePackage [("xl/media/a.png", "bytes".toUTF8)]).read.map Content.rows) =
      .ok pictureRows := by
    decide +kernel
  have hbytes : (picturePackage [("xl/media/a.png", "bytes".toUTF8)]).bytes? "xl/media/a.png" =
      .ok (some "bytes".toUTF8) := by
    decide +kernel
  obtain ⟨w, hread, hw⟩ := map_eq_ok.mp hrows
  have hshows := shows_of_pictureRows hw
  exact ⟨w, hread, hshows, ((images_of_read hread).2.1 _ _).mpr ⟨hshows, hbytes⟩⟩

/-- A cell shows a picture whose part is missing, and the workbook is read without its bytes. -/
theorem missing_image_of_read : ∃ w, (picturePackage []).read = .ok w ∧
    w.Shows "xl/media/a.png" ∧ ¬ w.Keeps "xl/media/a.png" := by
  have hrows : ((picturePackage []).read.map fun w => (w.rows, w.images.map Prod.fst)) =
      .ok (pictureRows, []) := by
    decide +kernel
  obtain ⟨w, hread, hw⟩ := map_eq_ok.mp hrows
  obtain ⟨hw, himages⟩ := Prod.mk.inj hw
  refine ⟨w, hread, shows_of_pictureRows hw, ?_⟩
  rw [Content.Keeps, himages]
  exact List.not_mem_nil

end SheetMarkup.Workbook
