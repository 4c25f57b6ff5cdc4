import SheetMarkup.Files.Path
import SheetMarkup.Proofs.Text.Trim
import SheetMarkup.Workbook.Package

/-!
# Targets of relationships

A target is given from the folder of its part, or from the root of the package. From a folder it is
followed segment by segment, where one dot stays and two dots go up; from the root it is taken as it is
written, with its dots. So the two ways to give one target agree where it has no dots.

* `IsDots`: the segments that are no names;
* `splitName_folder`, `resolveTarget_relative`, `resolveTarget_absolute`: the two kinds of targets;
* `foldl_followSegment_kept`, `foldl_followSegment_names`: what following some segments does to a folder;
* **`targets_agree_iff`**: both ways to give a target, and when they agree;
* `targets_differ`: a target with dots.
-/

namespace SheetMarkup.Workbook

/-- The segment tells where to go on, and names nothing. -/
def IsDots (segment : String) : Prop := segment = "." ∨ segment = ".."

instance (segment : String) : Decidable (IsDots segment) :=
  inferInstanceAs (Decidable (segment = "." ∨ segment = ".."))

/-- The segment names a folder or a part. -/
def IsName (segment : List Char) : Prop :=
  segment ≠ [] ∧ segment ≠ ['.'] ∧ segment ≠ ['.', '.'] ∧ '/' ∉ segment

/-! ## Two kinds of targets -/

theorem splitName_folder {file : List Char} (h : '/' ∉ file) (folder : List Char) :
    splitName (folder ++ '/' :: file) = (some folder, file) := by
  have hfile : ∀ c ∈ file.reverse, (c != '/') = true := fun c hc =>
    bne_iff_ne.mpr fun e => h (e ▸ List.mem_reverse.mp hc)
  have hlast : ((folder ++ '/' :: file).reverse.takeWhile (· != '/')).reverse = file := by
    have hreverse : (folder ++ '/' :: file).reverse = file.reverse ++ '/' :: folder.reverse := by simp
    rw [hreverse, Text.takeWhile_append_stop hfile (by decide), List.reverse_reverse]
  have hslash : (folder ++ '/' :: file).contains '/' = true := by simp
  have hcut : (folder ++ '/' :: file).length - file.length - 1 = folder.length := by
    simp only [List.length_append, List.length_cons]
    omega
  rw [splitName, hlast, if_pos hslash, hcut, List.take_left]

theorem resolveTarget_absolute (part : String) (target : List Char) :
    resolveTarget part (String.ofList ('/' :: target)) = String.ofList target := by
  rw [resolveTarget, String.toList_ofList]
  rfl

theorem resolveTarget_relative {folder file target : String} (hfile : '/' ∉ file.toList)
    (htarget : target.toList.head? ≠ some '/') :
    resolveTarget (folder ++ "/" ++ file) target = String.ofList (['/'].intercalate
      ((target.toList.splitOn '/').foldl followSegment (folder.toList.splitOn '/').reverse).reverse) := by
  have hpart : splitName (folder ++ "/" ++ file).toList = (some folder.toList, file.toList) := by
    rw [String.toList_append, String.toList_append, List.append_assoc]
    exact splitName_folder hfile folder.toList
  rw [resolveTarget.eq_def]
  split
  · next heq => rw [heq] at htarget; exact absurd rfl htarget
  · rw [hpart]

/-! ## Following segments -/

variable {folder segments : List (List Char)}

theorem followSegment_name {segment : List Char} (h : IsName segment) (folder : List (List Char)) :
    followSegment folder segment = segment :: folder := by
  obtain ⟨hempty, hone, htwo, -⟩ := h
  simp [followSegment, hempty, hone, htwo]

/-- **A segment that is followed leaves names, and nothing but names.** -/
theorem followSegment_kept {segment : List Char} (hfolder : ∀ s ∈ folder, IsName s)
    (hsegment : '/' ∉ segment) : ∀ s ∈ followSegment folder segment, IsName s := by
  unfold followSegment
  split_ifs with hstay htwo
  · exact hfolder
  · exact fun s hs => hfolder s (List.mem_of_mem_tail hs)
  · have hname : IsName segment := by
      simp only [Bool.or_eq_true, beq_iff_eq, not_or] at hstay htwo
      exact ⟨hstay.1, hstay.2, htwo, hsegment⟩
    exact List.forall_mem_cons.mpr ⟨hname, hfolder⟩

theorem foldl_followSegment_kept (hfolder : ∀ s ∈ folder, IsName s)
    (hsegments : ∀ s ∈ segments, '/' ∉ s) : ∀ s ∈ segments.foldl followSegment folder, IsName s := by
  induction segments generalizing folder with
  | nil => exact hfolder
  | cons segment segments ih =>
    rw [List.forall_mem_cons] at hsegments
    exact ih (followSegment_kept hfolder hsegments.1) hsegments.2

/-- **Names lead down, each into the folder of the one before it.** -/
theorem foldl_followSegment_names (hsegments : ∀ s ∈ segments, IsName s) :
    segments.foldl followSegment folder = segments.reverse ++ folder := by
  induction segments generalizing folder with
  | nil => rfl
  | cons segment segments ih =>
    rw [List.forall_mem_cons] at hsegments
    rw [List.foldl_cons, followSegment_name hsegments.1, ih hsegments.2]
    simp

/-! ## Agreement -/

theorem forall_mem_segments {name : String} {P : String → Prop} :
    (∀ s ∈ Path.segments name, P s) ↔ ∀ s ∈ name.toList.splitOn '/', P (String.ofList s) :=
  List.forall_mem_map

theorem isDots_ofList {segment : List Char} :
    IsDots (String.ofList segment) ↔ segment = ['.'] ∨ segment = ['.', '.'] := by
  rw [IsDots, ← String.toList_inj, ← String.toList_inj, String.toList_ofList]
  exact Iff.rfl

theorem slash_not_mem_splitOn {name segment : List Char} (h : segment ∈ name.splitOn '/') :
    '/' ∉ segment :=
  fun hc => (Text.mem_of_mem_splitOn h hc).2 rfl

theorem isName_of_mem_splitOn {name segment : List Char} (h : segment ∈ name.splitOn '/')
    (hempty : String.ofList segment ≠ "") (hdots : ¬ IsDots (String.ofList segment)) :
    IsName segment := by
  rw [isDots_ofList, not_or] at hdots
  exact ⟨fun e => hempty (by rw [e]), hdots.1, hdots.2, slash_not_mem_splitOn h⟩

theorem not_isDots_of_names (h : ∀ s ∈ segments, IsName s) :
    ∀ s ∈ Path.segments (String.ofList (['/'].intercalate segments)), ¬ IsDots s := by
  rw [forall_mem_segments, String.toList_ofList]
  intro s hs
  rw [isDots_ofList, not_or]
  cases segments with
  | nil =>
    rw [List.intercalate_nil, List.splitOn_nil, List.mem_singleton] at hs
    rw [hs]
    simp
  | cons first segments =>
    rw [List.splitOn_intercalate '/' (fun s hs => (h s hs).2.2.2) (by simp)] at hs
    exact ⟨(h s hs).2.1, (h s hs).2.2.1⟩

/-- **Both ways to give a target.** From the folder of its part it leads to a name without dots. From
the root it is the name that is written. The two agree exactly if no segment of the target is dots. -/
theorem targets_agree_iff {folder file target : String} (hfile : '/' ∉ file.toList)
    (hfolder : ∀ s ∈ Path.segments folder, s ≠ "" ∧ ¬ IsDots s)
    (htarget : ∀ s ∈ Path.segments target, s ≠ "") :
    (∀ s ∈ Path.segments (resolveTarget (folder ++ "/" ++ file) target), ¬ IsDots s) ∧
      resolveTarget (folder ++ "/" ++ file) ("/" ++ folder ++ "/" ++ target) =
        folder ++ "/" ++ target ∧
      (resolveTarget (folder ++ "/" ++ file) target =
          resolveTarget (folder ++ "/" ++ file) ("/" ++ folder ++ "/" ++ target) ↔
        ∀ s ∈ Path.segments target, ¬ IsDots s) := by
  rw [forall_mem_segments] at hfolder htarget
  have hnames : ∀ s ∈ (folder.toList.splitOn '/').reverse, IsName s := fun s hs =>
    have hs := List.mem_reverse.mp hs
    isName_of_mem_splitOn hs (hfolder s hs).1 (hfolder s hs).2
  have hstart : target.toList.head? ≠ some '/' := by
    intro h
    obtain ⟨rest, hrest⟩ := List.head?_eq_some_iff.mp h
    have hempty : [] ∈ target.toList.splitOn '/' := by
      rw [hrest, List.splitOn_cons_eq_if_modifyHead, if_pos (by decide)]
      exact List.mem_cons_self
    exact htarget [] hempty rfl
  have habsolute : resolveTarget (folder ++ "/" ++ file) ("/" ++ folder ++ "/" ++ target) =
      folder ++ "/" ++ target := by
    have hlist : "/" ++ folder ++ "/" ++ target =
        String.ofList ('/' :: (folder ++ "/" ++ target).toList) := by
      apply String.toList_inj.mp
      simp
    rw [hlist, resolveTarget_absolute, String.ofList_toList]
  have hwritten : (folder ++ "/" ++ target).toList.splitOn '/' =
      folder.toList.splitOn '/' ++ target.toList.splitOn '/' := by
    rw [String.toList_append, String.toList_append, List.append_assoc]
    exact List.splitOn_append_cons_self folder.toList target.toList
  have hrelative : ∀ s ∈ Path.segments (resolveTarget (folder ++ "/" ++ file) target), ¬ IsDots s := by
    rw [resolveTarget_relative hfile hstart]
    refine not_isDots_of_names fun s hs => ?_
    exact foldl_followSegment_kept hnames (fun s hs => slash_not_mem_splitOn hs) s
      (List.mem_reverse.mp hs)
  refine ⟨hrelative, habsolute, ?_⟩
  rw [habsolute]
  constructor
  · intro hsame
    rw [hsame, forall_mem_segments, hwritten] at hrelative
    rw [forall_mem_segments]
    exact fun s hs => hrelative s (List.mem_append_right _ hs)
  · intro hdots
    rw [forall_mem_segments] at hdots
    have hfollowed := @foldl_followSegment_names (folder.toList.splitOn '/').reverse _
      fun s hs => isName_of_mem_splitOn hs (htarget s hs) (hdots s hs)
    rw [resolveTarget_relative hfile hstart, hfollowed, List.reverse_append, List.reverse_reverse,
      List.reverse_reverse, ← hwritten, List.intercalate_splitOn, String.ofList_toList]

theorem targets_agree_iff_media :
    (∀ s ∈ Path.segments (resolveTarget "xl/richData/richValueRel.xml" "../media/image1.png"),
        ¬ IsDots s) ∧
      resolveTarget "xl/richData/richValueRel.xml" "/xl/richData/../media/image1.png" =
        "xl/richData/../media/image1.png" ∧
      resolveTarget "xl/workbook.xml" "worksheets/sheet1.xml" =
        resolveTarget "xl/workbook.xml" "/xl/worksheets/sheet1.xml" := by
  obtain ⟨hrelative, habsolute, -⟩ := @targets_agree_iff "xl/richData" "richValueRel.xml"
    "../media/image1.png" (by decide) (by decide) (by decide)
  obtain ⟨-, -, hagree⟩ := @targets_agree_iff "xl" "workbook.xml" "worksheets/sheet1.xml"
    (by decide) (by decide) (by decide)
  exact ⟨hrelative, habsolute, hagree.mpr (by decide)⟩

/-- From the root a target keeps its dots, and so it does not name the part that it names from the
folder. -/
theorem targets_differ :
    (∀ s ∈ Path.segments "xl", s ≠ "" ∧ ¬ IsDots s) ∧
      (∀ s ∈ Path.segments "../xl/worksheets/doc.xml", s ≠ "") ∧
      resolveTarget "xl/workbook.xml" "../xl/worksheets/doc.xml" = "xl/worksheets/doc.xml" ∧
      resolveTarget "xl/workbook.xml" "/xl/../xl/worksheets/doc.xml" =
        "xl/../xl/worksheets/doc.xml" ∧
      ∃ s ∈ Path.segments "xl/../xl/worksheets/doc.xml", IsDots s := by
  decide

end SheetMarkup.Workbook
