import SheetMarkup.Proofs.Files.Listing

/-!
# Paths into a folder

What lies in a folder has the path of the folder with the names on the way behind it. Such a path
leads there, as long as it is short enough, and no two places have one path.

* `Path.segments_join`, `Path.segments_intercalate`: the segments of such a path;
* `checkPath_join`: it is a valid path;
* `IsFileName`, `WellNamed`: the names that a file system gives;
* `foldlM_names`, **`follow_join`**, **`read_join`**: where it leads;
* `join_injective`: different places have different paths.
-/

namespace SheetMarkup

open Outcome

/-! ## Segments -/

namespace Path

theorem segments_name {name : String} (h : '/' ∉ name.toList) : segments name = [name] := by
  rw [segments, List.splitOn_eq_singleton h, List.map_singleton, String.ofList_toList]

/-- A path from a folder has the segments of the folder and its own behind them. -/
theorem segments_join (folder : String) : ∃ outer,
    (segments folder = outer ∨ segments folder = outer ++ [""]) ∧
      ∀ path, isAbsolute path = false → segments (join folder path) = outer ++ segments path := by
  have hslash : ∀ (front : List Char) (path : String),
      ((front ++ '/' :: path.toList).splitOn '/').map String.ofList =
        (front.splitOn '/').map String.ofList ++ segments path := fun front path => by
    rw [List.splitOn_append_cons_self, List.map_append, ← segments]
  unfold join
  by_cases he : folder.isEmpty = true
  · refine ⟨[], .inr ?_, fun path h => by rw [he, Bool.or_true, if_pos rfl, List.nil_append]⟩
    rw [String.isEmpty_iff.mp he]
    decide
  · by_cases hl : folder.toList.getLast? = some '/'
    · obtain ⟨front, hfront⟩ := List.getLast?_eq_some_iff.mp hl
      refine ⟨(front.splitOn '/').map String.ofList, .inr ?_, fun path h => ?_⟩
      · rw [segments, hfront]
        exact hslash front ""
      · rw [h, Bool.false_or, if_neg he, if_pos (beq_iff_eq.mpr hl), segments, String.toList_append,
          hfront, List.append_assoc, List.singleton_append, hslash front path]
    · refine ⟨segments folder, .inl rfl, fun path h => ?_⟩
      rw [h, Bool.false_or, if_neg he, if_neg fun hb => hl (beq_iff_eq.mp hb), segments,
        String.toList_append, String.toList_append, List.append_assoc]
      exact hslash folder.toList path

theorem segments_join_name (folder : String) : ∃ outer, ∀ name : String, '/' ∉ name.toList →
    segments (join folder name) = outer ++ [name] := by
  obtain ⟨outer, -, hjoin⟩ := segments_join folder
  refine ⟨outer, fun name h => ?_⟩
  have hrelative : isAbsolute name = false := by
    rw [isAbsolute, beq_eq_false_iff_ne]
    exact fun he => h (List.mem_of_head? he)
  rw [hjoin name hrelative, segments_name h]

theorem segments_intercalate {names : List String} (hne : names ≠ [])
    (h : ∀ name ∈ names, '/' ∉ name.toList) : segments ("/".intercalate names) = names := by
  have hslash : "/".toList = ['/'] := by decide
  have hnone : ∀ cs ∈ names.map String.toList, '/' ∉ cs := List.forall_mem_map.mpr h
  rw [segments, String.toList_intercalate, hslash,
    List.splitOn_intercalate '/' hnone (mt List.map_eq_nil_iff.mp hne), List.map_map]
  exact List.map_id'' (fun _ => String.ofList_toList) names

theorem mem_intercalate {names : List String} {c : Char}
    (h : c ∈ ("/".intercalate names).toList) : c = '/' ∨ ∃ name ∈ names, c ∈ name.toList := by
  have hslash : "/".toList = ['/'] := by decide
  induction names with
  | nil => cases h
  | cons name names ih =>
    cases names with
    | nil => exact .inr ⟨name, List.mem_singleton_self _, by rwa [String.intercalate_singleton] at h⟩
    | cons next names =>
      rw [String.intercalate_cons_cons, String.toList_append, String.toList_append, hslash,
        List.mem_append, List.mem_append, List.mem_singleton] at h
      obtain (hname | rfl) | hrest := h
      · exact .inr ⟨name, List.mem_cons_self, hname⟩
      · exact .inl rfl
      · exact (ih hrest).imp_right fun ⟨other, hother, hc⟩ =>
          ⟨other, List.mem_cons_of_mem _ hother, hc⟩

theorem isAbsolute_intercalate {name : String} (hne : name ≠ "") (h : '/' ∉ name.toList)
    (names : List String) : isAbsolute ("/".intercalate (name :: names)) = false := by
  have hhead : ("/".intercalate (name :: names)).toList.head? = name.toList.head? := by
    cases names with
    | nil => rw [String.intercalate_singleton]
    | cons next names =>
      rw [String.intercalate_cons_cons, String.append_assoc, String.toList_append]
      exact List.head?_append_of_ne_nil _ (mt String.toList_eq_nil_iff.mp hne)
  rw [isAbsolute, hhead, beq_eq_false_iff_ne]
  exact fun he => h (List.mem_of_head? he)

theorem toList_join {folder path : String} (hfolder : folder ≠ "") (h : isAbsolute path = false) :
    ∃ rest, (join folder path).toList = folder.toList ++ rest ∧
      ∀ c ∈ rest, c = '/' ∨ c ∈ path.toList := by
  have hslash : "/".toList = ['/'] := by decide
  unfold join
  rw [h, Bool.false_or, if_neg (mt String.isEmpty_iff.mp hfolder)]
  split_ifs
  · exact ⟨path.toList, String.toList_append, fun c => .inr⟩
  · refine ⟨'/' :: path.toList, ?_, fun c hc => List.mem_cons.mp hc⟩
    rw [String.toList_append, String.toList_append, hslash, List.append_assoc]
    rfl

end Path

namespace FolderTree

variable {α : Type}

/-! ## Paths that are valid -/

theorem checkPath_eq_ok {path : String} : checkPath path = .ok () ↔
    '\x00' ∉ path.toList ∧ path ≠ "" ∧ path.utf8ByteSize < pathLimit ∧
      Path.isAbsolute path = false := by
  unfold checkPath
  simp only [List.contains_iff_mem, String.isEmpty_iff, ne_eq]
  split_ifs <;> grind

theorem checkPath_join {folder path : String} (hfolder : checkPath folder = .ok ())
    (hpath : '\x00' ∉ path.toList) (hrelative : Path.isAbsolute path = false)
    (hshort : (Path.join folder path).utf8ByteSize < pathLimit) :
    checkPath (Path.join folder path) = .ok () := by
  obtain ⟨hnul, hne, -, habsolute⟩ := checkPath_eq_ok.mp hfolder
  have hchars : folder.toList ≠ [] := mt String.toList_eq_nil_iff.mp hne
  obtain ⟨rest, hjoin, hrest⟩ := Path.toList_join hne hrelative
  refine checkPath_eq_ok.mpr ⟨fun h => ?_, fun h => ?_, hshort, ?_⟩
  · rw [hjoin] at h
    obtain h | h := List.mem_append.mp h
    · exact hnul h
    · exact (hrest _ h).elim (by decide) hpath
  · rw [← String.toList_eq_nil_iff, hjoin] at h
    exact hchars (List.append_eq_nil_iff.mp h).1
  · rw [Path.isAbsolute, hjoin, List.head?_append_of_ne_nil _ hchars]
    exact habsolute

/-! ## Names that a file system gives -/

/-- A name that a file system gives to a file or a folder. -/
structure IsFileName (name : String) : Prop extends IsEntryName name where
  noSlash : '/' ∉ name.toList
  noNul : '\x00' ∉ name.toList

instance (name : String) : Decidable (IsFileName name) :=
  decidable_of_iff (((¬ (name == "" || name == ".") = true) ∧ (¬ (name == "..") = true) ∧
      ¬ nameLimit < name.utf8ByteSize) ∧ '/' ∉ name.toList ∧ '\x00' ∉ name.toList)
    ⟨fun ⟨⟨hmark, hup, hshort⟩, hslash, hnul⟩ => ⟨⟨hmark, hup, hshort⟩, hslash, hnul⟩,
      fun ⟨⟨hmark, hup, hshort⟩, hslash, hnul⟩ => ⟨⟨hmark, hup, hshort⟩, hslash, hnul⟩⟩

/-- All names in a tree are those of a file system, which gives no two entries of a folder one
name. -/
structure WellNamed (t : FolderTree α) : Prop where
  distinct : t.Distinct
  isFileName : ∀ place es, at? place t = some (folder es) → ∀ e ∈ es, IsFileName e.1

theorem wellNamed_file (content : α) : (file content).WellNamed := by
  have hnone : ∀ place es, at? place (file content) ≠ some (folder es) := fun place es h => by
    cases place <;> cases h
  exact ⟨fun place es h => absurd h (hnone place es), fun place es h => absurd h (hnone place es)⟩

theorem wellNamed_folder {es : List (String × FolderTree α)} (hnodup : (es.map Prod.fst).Nodup)
    (hnames : ∀ e ∈ es, IsFileName e.1) (h : ∀ e ∈ es, e.2.WellNamed) :
    (folder es).WellNamed := by
  have hinner : ∀ name place es', at? (name :: place) (folder es) = some (folder es') →
      ∃ e ∈ es, at? place e.2 = some (folder es') := by
    intro name place es' he
    obtain ⟨inner, hchild, he⟩ := Option.bind_eq_some_iff.mp he
    obtain ⟨e, hfind, rfl⟩ := Option.map_eq_some_iff.mp hchild
    exact ⟨e, List.mem_of_find?_eq_some hfind, he⟩
  refine ⟨fun place es' he => ?_, fun place es' he => ?_⟩
  · cases place with
    | nil =>
      cases he
      exact hnodup
    | cons name place =>
      obtain ⟨e, hmem, he⟩ := hinner name place es' he
      exact (h e hmem).distinct place es' he
  · cases place with
    | nil =>
      cases he
      exact hnames
    | cons name place =>
      obtain ⟨e, hmem, he⟩ := hinner name place es' he
      exact (h e hmem).isFileName place es' he

theorem WellNamed.place {t : FolderTree α} (h : t.WellNamed) {place : List String}
    {u : FolderTree α} (hu : at? place t = some u) : ∀ name ∈ place, IsFileName name := by
  intro name hname
  obtain ⟨front, back, rfl⟩ := List.append_of_mem hname
  rw [at?_append] at hu
  obtain ⟨outer, houter, hu⟩ := Option.bind_eq_some_iff.mp hu
  cases outer with
  | file content => cases hu
  | folder es =>
    obtain ⟨e, he, rfl⟩ := List.mem_map.mp (mem_of_at?_eq_some hu)
    exact h.isFileName front es houter e he

theorem isAbsolute_names {names : List String} (hne : names ≠ [])
    (h : ∀ name ∈ names, IsFileName name) : Path.isAbsolute ("/".intercalate names) = false := by
  cases names with
  | nil => exact absurd rfl hne
  | cons name names =>
    obtain ⟨hname, -⟩ := List.forall_mem_cons.mp h
    refine Path.isAbsolute_intercalate ?_ hname.noSlash names
    rintro rfl
    exact hname.notMark rfl

/-! ## Where the paths lead -/

theorem foldlM_names {t u : FolderTree α} {outer place : List String}
    {es : List (String × FolderTree α)} (ho : at? outer.reverse t = some (folder es))
    (hu : at? place (folder es) = some u) (hn : ∀ name ∈ place, IsEntryName name) :
    place.foldlM (followSegment t) outer = .ok (place.reverse ++ outer) := by
  induction place generalizing outer es with
  | nil => rfl
  | cons name place ih =>
    obtain ⟨hname, hplace⟩ := List.forall_mem_cons.mp hn
    obtain ⟨inner, hinner, hu⟩ := Option.bind_eq_some_iff.mp hu
    have hat : at? (outer.reverse ++ [name]) t = some inner := by
      rw [at?_append, ho, Option.bind_some, at?, hinner]
      rfl
    rw [List.foldlM_cons]
    refine bind_eq_ok.mpr ⟨name :: outer, ?_, ?_⟩
    · rw [followSegment_of_isEntryName ho hname, hat]
      rfl
    · cases place with
      | nil => rfl
      | cons next place =>
        -- something stands in what the name leads to, so it is a folder
        cases inner with
        | file content => cases hu
        | folder es' =>
          rw [List.reverse_cons, List.append_assoc]
          exact ih (by rwa [List.reverse_cons]) hu hplace

theorem get_eq_ok {t u : FolderTree α} {path : String} :
    t.get path = .ok u ↔ ∃ found, t.follow path = .ok found ∧ at? found.reverse t = some u := by
  unfold get
  rw [bind_eq_ok]
  refine exists_congr fun found => and_congr_right fun _ => ?_
  cases at? found.reverse t <;> simp

section Join

variable {t u : FolderTree α} {path : String} {es : List (String × FolderTree α)}
  {place : List String}

/-- **The path of something in a folder leads there.** -/
theorem follow_join (hpath : t.get path = .ok (folder es)) (hu : at? place (folder es) = some u)
    (hne : place ≠ []) (hn : ∀ name ∈ place, IsFileName name)
    (hshort : (Path.join path ("/".intercalate place)).utf8ByteSize < pathLimit) :
    ∃ outer, at? outer.reverse t = some (folder es) ∧
      t.follow (Path.join path ("/".intercalate place)) = .ok (place.reverse ++ outer) := by
  obtain ⟨outer, hfollow, houter⟩ := get_eq_ok.mp hpath
  obtain ⟨⟨⟩, hvalid, hway⟩ := bind_eq_ok.mp hfollow
  have hrelative := isAbsolute_names hne hn
  have hnul : '\x00' ∉ ("/".intercalate place).toList := fun h =>
    (Path.mem_intercalate h).elim (by decide) fun ⟨name, hname, hc⟩ => (hn name hname).noNul hc
  obtain ⟨front, hfront, hjoin⟩ := Path.segments_join path
  have hfront : front.foldlM (followSegment t) [] = .ok outer := by
    obtain hfront | hfront := hfront
    · rwa [hfront] at hway
    · -- the empty segment stays where the others lead
      rw [hfront, List.foldlM_append] at hway
      obtain ⟨place', hplace', hlast⟩ := bind_eq_ok.mp hway
      obtain ⟨found, hfound, hend⟩ := bind_eq_ok.mp hlast
      cases hend
      obtain ⟨-, -, ⟨-, rfl⟩ | ⟨hup, -⟩ | ⟨hname, -⟩⟩ := followSegment_eq_ok hfound
      · exact hplace'
      · cases hup
      · exact absurd rfl hname.notMark
  refine ⟨outer, houter, bind_eq_ok.mpr ⟨(), checkPath_join hvalid hnul hrelative hshort, ?_⟩⟩
  rw [hjoin _ hrelative, Path.segments_intercalate hne fun name hname => (hn name hname).noSlash,
    List.foldlM_append]
  exact bind_eq_ok.mpr ⟨outer, hfront, foldlM_names houter hu fun name hname =>
    (hn name hname).toIsEntryName⟩

/-- **A file in a folder is read under its path.** -/
theorem read_join {content : α} (hpath : t.get path = .ok (folder es)) (hes : (folder es).WellNamed)
    (hfile : at? place (folder es) = some (file content))
    (hshort : (Path.join path ("/".intercalate place)).utf8ByteSize < pathLimit) :
    t.read (Path.join path ("/".intercalate place)) = .ok content := by
  have hne : place ≠ [] := by
    rintro rfl
    cases hfile
  obtain ⟨outer, houter, hfollow⟩ := follow_join hpath hfile hne (hes.place hfile) hshort
  refine read_eq_ok.mpr ⟨_, hfollow, ?_⟩
  rw [List.reverse_append, List.reverse_reverse, at?_append, houter]
  exact hfile

end Join

/-- Different places in a folder have different paths. -/
theorem join_injective {path : String} {place place' : List String} (hne : place ≠ [])
    (hne' : place' ≠ []) (hn : ∀ name ∈ place, IsFileName name)
    (hn' : ∀ name ∈ place', IsFileName name)
    (h : Path.join path ("/".intercalate place) = Path.join path ("/".intercalate place')) :
    place = place' := by
  obtain ⟨outer, -, hjoin⟩ := Path.segments_join path
  have hsegments : ∀ names : List String, names ≠ [] → (∀ name ∈ names, IsFileName name) →
      Path.segments (Path.join path ("/".intercalate names)) = outer ++ names := by
    intro names hnames hfile
    rw [hjoin _ (isAbsolute_names hnames hfile),
      Path.segments_intercalate hnames fun name hname => (hfile name hname).noSlash]
  have hboth := congrArg Path.segments h
  rwa [hsegments place hne hn, hsegments place' hne' hn', List.append_cancel_left_eq] at hboth

end FolderTree

end SheetMarkup
