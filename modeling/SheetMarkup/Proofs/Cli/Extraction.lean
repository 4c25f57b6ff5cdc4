import SheetMarkup.Proofs.Cli.Output
import SheetMarkup.Proofs.Files.Places
import SheetMarkup.Proofs.Text.Order
import SheetMarkup.Proofs.Workbook.Images

/-!
# Extracted pictures

The pictures of a workbook are written one after the other, in the order of their parts, each under
the last segment of the name of its part. A file that is written is read as it was written until it
is written again, so of several parts with one last segment only the last one is left.

* `writeImages_cons`, `read_of_writeImages_other`, **`read_of_writeImages`**: what one picture and
  all pictures do to the files;
* `sortedByKey_sortedImages`, `sortedImages_perm`: the order of the pictures;
* `IsLast`, **`read_of_extractImages`**: the files after all pictures were written, and when none is
  lost;
* `lost_image_of_extractImages`: a workbook with two pictures under one name.
-/

namespace SheetMarkup

open Outcome FolderTree

namespace Cli

theorem slash_not_mem_partName (part : String) : '/' ∉ (partName part).toList := by
  rw [partName, String.toList_ofList, List.mem_reverse]
  intro h
  exact absurd (List.all_eq_true.mp List.all_takeWhile _ h) (by decide)

/-! ## Writing pictures -/

section Write

variable {folder : String} {images : List (String × ByteArray)} {t t' : FileTree}

theorem writeImages_cons {image : String × ByteArray}
    (h : writeImages (m := StateM FileTree) folder (image :: images) t = (.ok (), t')) :
    ∃ u, t.write (Path.join folder (partName image.1)) image.2 = .ok u ∧
      writeImages (m := StateM FileTree) folder images u = (.ok (), t') := by
  unfold writeImages at h
  rw [bind_apply, write_apply] at h
  cases hw : t.write (Path.join folder (partName image.1)) image.2 with
  | error e =>
    rw [hw] at h
    cases h
  | ok u =>
    rw [hw] at h
    exact ⟨u, rfl, h⟩

theorem read_of_write_image {image : String × ByteArray} {part : String} {old : ByteArray}
    (h : t.write (Path.join folder (partName image.1)) image.2 = .ok t')
    (hne : partName image.1 ≠ partName part)
    (ho : t.read (Path.join folder (partName part)) = .ok old) :
    t'.read (Path.join folder (partName part)) = .ok old := by
  obtain ⟨outer, hsegments⟩ := Path.segments_join_name folder
  obtain ⟨place, hplace⟩ := follow_of_read (hsegments _ (slash_not_mem_partName image.1))
    (read_of_write h)
  obtain ⟨place', hplace'⟩ := follow_of_read (hsegments _ (slash_not_mem_partName part)) ho
  refine read_of_write_other h ho ?_
  rw [hplace, hplace']
  exact fun he => hne (List.cons.inj (Except.ok.inj he)).1

theorem read_of_writeImages_other {part : String} {old : ByteArray}
    (h : writeImages (m := StateM FileTree) folder images t = (.ok (), t'))
    (hne : ∀ image ∈ images, partName image.1 ≠ partName part)
    (ho : t.read (Path.join folder (partName part)) = .ok old) :
    t'.read (Path.join folder (partName part)) = .ok old := by
  induction images generalizing t with
  | nil =>
    cases h
    exact ho
  | cons image images ih =>
    obtain ⟨u, hw, h⟩ := writeImages_cons h
    obtain ⟨hfirst, hrest⟩ := List.forall_mem_cons.mp hne
    exact ih h hrest (read_of_write_image hw hfirst ho)

/-- **Under every name stands the last of the pictures with it.** -/
theorem read_of_writeImages {before after : List (String × ByteArray)} {image : String × ByteArray}
    (h : writeImages (m := StateM FileTree) folder (before ++ image :: after) t = (.ok (), t'))
    (hlast : ∀ other ∈ after, partName other.1 ≠ partName image.1) :
    t'.read (Path.join folder (partName image.1)) = .ok image.2 := by
  induction before generalizing t with
  | nil =>
    obtain ⟨u, hw, h⟩ := writeImages_cons h
    exact read_of_writeImages_other h hlast (read_of_write hw)
  | cons first before ih =>
    obtain ⟨u, -, h⟩ := writeImages_cons h
    exact ih h

theorem writeImages_of_extractImages
    (h : extractImages (m := StateM FileTree) folder images t = (.ok (), t')) :
    ∃ u, writeImages (m := StateM FileTree) folder images u = (.ok (), t') := by
  unfold extractImages at h
  rw [bind_apply] at h
  cases hr : (makeFolders (m := StateM FileTree) folder t).1 with
  | error e =>
    rw [hr] at h
    cases h
  | ok _ =>
    rw [hr] at h
    exact ⟨_, h⟩

end Write

/-! ## The order of pictures -/

theorem sortedByKey_sortedImages (images : List (String × ByteArray)) :
    Text.SortedByKey (sortedImages images) :=
  Text.SortedByKey.foldl_insertSorted Prod.fst Prod.snd images List.Pairwise.nil

theorem foldl_insertSorted_perm {images : List (String × ByteArray)}
    (sorted : List (String × ByteArray)) (h : (sorted.map Prod.fst ++ images.map Prod.fst).Nodup) :
    (images.foldl (fun es i => Text.insertSorted i.1 i.2 es) sorted).Perm (sorted ++ images) := by
  induction images generalizing sorted with
  | nil => rw [List.append_nil]; exact List.Perm.refl _
  | cons image images ih =>
    have hkey : image.1 ∉ sorted.map Prod.fst := fun hm =>
      (List.nodup_append.mp h).2.2 _ hm _ (by simp) rfl
    have hinsert := Text.insertSorted_perm hkey image.2
    have hkeys : ((Text.insertSorted image.1 image.2 sorted).map Prod.fst ++
        images.map Prod.fst).Nodup := by
      refine (List.Perm.nodup_iff ?_).mp h
      exact List.perm_middle.trans ((hinsert.map Prod.fst).symm.append_right _)
    exact (ih _ hkeys).trans ((hinsert.append_right images).trans List.perm_middle.symm)

theorem sortedImages_perm {images : List (String × ByteArray)} (h : (images.map Prod.fst).Nodup) :
    (sortedImages images).Perm images :=
  foldl_insertSorted_perm [] h

/-- Of the pictures whose parts end in this segment, it is the one with the last part. -/
def IsLast (images : List (String × ByteArray)) (image : String × ByteArray) : Prop :=
  image ∈ images ∧ ∀ other ∈ images, partName other.1 = partName image.1 → other.1 ≤ image.1

section Last

variable {images : List (String × ByteArray)} {image : String × ByteArray}
  (hkeys : (images.map Prod.fst).Nodup)

include hkeys

/-- What is behind the last picture in the order has other names. -/
theorem IsLast.split (h : IsLast images image) : ∃ before after,
    sortedImages images = before ++ image :: after ∧
      ∀ other ∈ after, partName other.1 ≠ partName image.1 := by
  have hperm := sortedImages_perm hkeys
  obtain ⟨before, after, hsplit⟩ := List.append_of_mem (hperm.mem_iff.mpr h.1)
  refine ⟨before, after, hsplit, fun other hother hname => ?_⟩
  have hsorted := sortedByKey_sortedImages images
  rw [hsplit] at hsorted
  have hbehind : image.1 < other.1 :=
    (List.pairwise_cons.mp (List.pairwise_append.mp hsorted).2.1).1 other hother
  have hm : other ∈ images := hperm.mem_iff.mp (by rw [hsplit]; simp [hother])
  exact absurd (h.2 other hm hname) (not_le.mpr hbehind)

theorem exists_isLast (h : image ∈ images) :
    ∃ last, IsLast images last ∧ partName last.1 = partName image.1 := by
  have hperm := sortedImages_perm hkeys
  -- the last one is the first of the reversed list
  obtain ⟨last, after, before, hsplit, hname, hafter⟩ :=
    (exists_first_iff (P := fun i : String × ByteArray => partName i.1 = partName image.1)).mpr
      ⟨image, List.mem_reverse.mpr (hperm.mem_iff.mpr h), rfl⟩
  have hsorted : sortedImages images = before.reverse ++ last :: after.reverse := by
    rw [← List.reverse_reverse (sortedImages images), hsplit]
    simp
  refine ⟨last, ⟨hperm.mem_iff.mp (by rw [hsorted]; simp), fun other hother he => ?_⟩, hname⟩
  have hm := hperm.mem_iff.mpr hother
  rw [hsorted] at hm
  rcases List.mem_append.mp hm with hm | hm
  · have hpairs := sortedByKey_sortedImages images
    rw [hsorted] at hpairs
    exact ((List.pairwise_append.mp hpairs).2.2 other hm last List.mem_cons_self).le
  · rcases List.mem_cons.mp hm with rfl | hm
    · exact le_refl _
    · exact absurd (he.trans hname) (hafter other (List.mem_reverse.mp hm))

end Last

/-! ## Workbooks -/

variable {p : Workbook.Package} {w : Workbook.Content} {folder : String} {t t' : FileTree}

theorem nodup_images_of_read (h : p.read = .ok w) : (w.images.map Prod.fst).Nodup :=
  (Workbook.nodup_pictureParts w.rows).sublist (Workbook.keys_pictures (Workbook.read_eq_ok h))

/-- **The files after the pictures of a workbook were extracted.** Of all parts that end in one
segment, the last one has its picture there. -/
theorem read_of_extractImages (hr : p.read = .ok w)
    (hx : extractImages (m := StateM FileTree) folder (sortedImages w.images) t = (.ok (), t')) :
    (∀ image, IsLast w.images image →
      t'.read (Path.join folder (partName image.1)) = .ok image.2) ∧
    ((∀ image ∈ w.images, t'.read (Path.join folder (partName image.1)) = .ok image.2) ↔
      ∀ image ∈ w.images, ∀ other ∈ w.images,
        partName image.1 = partName other.1 → image.2 = other.2) := by
  have hkeys := nodup_images_of_read hr
  obtain ⟨u, hwrite⟩ := writeImages_of_extractImages hx
  have hlast : ∀ image, IsLast w.images image →
      t'.read (Path.join folder (partName image.1)) = .ok image.2 := by
    intro image himage
    obtain ⟨before, after, hsplit, hafter⟩ := himage.split hkeys
    rw [hsplit] at hwrite
    exact read_of_writeImages hwrite hafter
  refine ⟨hlast, fun hall image himage other hother hname => ?_, fun hsame image himage => ?_⟩
  · have hread := hall image himage
    rw [hname, hall other hother] at hread
    exact (Except.ok.inj hread).symm
  · obtain ⟨last, hl, hname⟩ := exists_isLast hkeys himage
    rw [← hname, hlast last hl, hsame image himage last hl.1 hname.symm]

/-- A package with two cells that show pictures, whose parts lie in two folders under one name. -/
def twinPackage : Workbook.Package :=
  .ofParts [
    (Workbook.fallbackSheet,
      ("<sheetData><row><c t=\"e\" vm=\"1\"/><c t=\"e\" vm=\"2\"/></row></sheetData>").toUTF8),
    (Workbook.richValuePart, "<rvData><rv><v>0</v></rv><rv><v>1</v></rv></rvData>".toUTF8),
    (Workbook.relationPart, "<rels><rel id=\"a\"/><rel id=\"b\"/></rels>".toUTF8),
    (Workbook.relationshipsPart Workbook.relationPart,
      ("<Relationships><Relationship Id=\"a\" Target=\"../media/1.png\"/>" ++
        "<Relationship Id=\"b\" Target=\"/other/1.png\"/></Relationships>").toUTF8),
    ("xl/media/1.png", "first".toUTF8), ("other/1.png", "second".toUTF8)]

/-- The images of the package. -/
def twinImages : List (String × ByteArray) :=
  [("xl/media/1.png", "first".toUTF8), ("other/1.png", "second".toUTF8)]

theorem images_twinPackage : ∃ w, twinPackage.read = .ok w ∧ w.images = twinImages := by
  have himages : twinPackage.read.map Workbook.Content.images = .ok twinImages := by
    decide +kernel
  exact map_eq_ok.mp himages

/-- The files after the images of the package were extracted into an empty tree. -/
def twinFiles : FileTree :=
  (extractImages (m := StateM FileTree) "out" (sortedImages twinImages) (.folder [])).2

theorem extractImages_twinImages :
    extractImages (m := StateM FileTree) "out" (sortedImages twinImages) (.folder []) =
      (.ok (), twinFiles) := by
  have hok : (extractImages (m := StateM FileTree) "out" (sortedImages twinImages)
      (.folder [])).1.isOk = true := by
    decide +kernel
  obtain ⟨⟨⟩, hx⟩ := exists_of_isOk hok
  exact Prod.ext hx (by rw [twinFiles])

theorem path_twinImages : Path.join "out" (partName "xl/media/1.png") = "out/1.png" := by
  decide +kernel

theorem read_of_extractImages_twinPackage : ∃ w t', twinPackage.read = .ok w ∧
    extractImages (m := StateM FileTree) "out" (sortedImages w.images) (.folder []) = (.ok (), t') ∧
    t'.read "out/1.png" = .ok "first".toUTF8 ∧
    ¬ ∀ image ∈ w.images, t'.read (Path.join "out" (partName image.1)) = .ok image.2 := by
  obtain ⟨w, hr, hw⟩ := images_twinPackage
  have hx := extractImages_twinImages
  rw [← hw] at hx
  obtain ⟨hlast, hall⟩ := read_of_extractImages hr hx
  refine ⟨w, twinFiles, hr, hx, ?_, fun h => ?_⟩
  · have hfirst : IsLast w.images ("xl/media/1.png", "first".toUTF8) := by
      rw [hw]
      exact ⟨List.mem_cons_self, by decide +kernel⟩
    have hread := hlast ("xl/media/1.png", "first".toUTF8) hfirst
    rwa [path_twinImages] at hread
  · have hsame := hall.mp h ("xl/media/1.png", "first".toUTF8) (by simp [hw, twinImages])
      ("other/1.png", "second".toUTF8) (by simp [hw, twinImages]) (by decide)
    revert hsame
    decide +kernel

/-- Two pictures lie in parts that end in one segment, and the file with its name holds only one. -/
theorem lost_image_of_extractImages : ∃ w t', twinPackage.read = .ok w ∧
    extractImages (m := StateM FileTree) "out" (sortedImages w.images) (.folder []) = (.ok (), t') ∧
    ("other/1.png", "second".toUTF8) ∈ w.images ∧
    t'.read "out/1.png" ≠ .ok "second".toUTF8 := by
  obtain ⟨w, hr, hw⟩ := images_twinPackage
  have hread : twinFiles.read "out/1.png" ≠ .ok "second".toUTF8 := by
    decide +kernel
  refine ⟨w, twinFiles, hr, ?_, by simp [hw, twinImages], hread⟩
  rw [hw]
  exact extractImages_twinImages

end Cli

end SheetMarkup
