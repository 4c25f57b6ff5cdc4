import SheetMarkup.Files.Tree
import SheetMarkup.Proofs.Outcome

/-!
# Files that are written

A file that was written can be read, and written again: the ways through the tree lead where they
led before.

* `at?_set_self`, **`at?_set_of_ne`**: what is put at a place stands there, and files at other
  places stay;
* `Keeps`, **`keeps_set`**: all other places are kept;
* `followSegment_of_keeps`, `foldlM_of_keeps`: paths lead where they led before;
* `IsTarget`, **`write_eq_ok`**: where a file is written;
* **`read_of_write`**, `write_of_write`: what was written is there;
* **`read_of_write_other`**: other files are as they were.
-/

namespace SheetMarkup.FolderTree

open Outcome

variable {α : Type}

/-! ## Places -/

theorem find?_replace {entries : List (String × FolderTree α)} {name : String}
    (h : entries.any (·.1 == name) = true) (n : String) (t : FolderTree α) :
    ((entries.map fun e => if e.1 == name then (name, t) else e).find? (·.1 == n)).map Prod.snd =
      if n = name then some t else (entries.find? (·.1 == n)).map Prod.snd := by
  by_cases hn : n = name
  · subst hn
    obtain ⟨e, he, hname⟩ := List.any_eq_true.mp h
    have hmem : (n, t) ∈ entries.map fun e => if e.1 == n then (n, t) else e :=
      List.mem_map.mpr ⟨e, he, if_pos hname⟩
    obtain ⟨u, hu⟩ := Option.isSome_iff_exists.mp (List.find?_isSome (p := (·.1 == n)).mpr
      ⟨(n, t), hmem, beq_self_eq_true n⟩)
    -- the entry that is found has the name, so it is the new one
    obtain ⟨e', -, rfl⟩ := List.mem_map.mp (List.mem_of_find?_eq_some hu)
    have hfound := List.find?_some hu
    by_cases he' : (e'.1 == n) = true
    · rw [hu, if_pos he', if_pos rfl]
      rfl
    · rw [if_neg he'] at hfound
      exact absurd hfound he'
  · have hother : (name == n) = false := beq_eq_false_iff_ne.mpr (Ne.symm hn)
    rw [if_neg hn]
    clear h
    induction entries with
    | nil => rfl
    | cons e entries ih =>
      rw [List.map_cons, List.find?_cons, List.find?_cons]
      by_cases he : (e.1 == name) = true
      · rw [if_pos he, beq_iff_eq.mp he, hother]
        exact ih
      · rw [if_neg he]
        cases e.1 == n with
        | true => rfl
        | false => exact ih

theorem child?_put (entries : List (String × FolderTree α)) (name n : String) (t : FolderTree α) :
    (folder (put entries name t)).child? n =
      if n = name then some t else (folder entries).child? n := by
  unfold put child?
  by_cases h : entries.any (·.1 == name) = true
  · simp only [if_pos h]
    exact find?_replace h n t
  · have hnone : entries.find? (·.1 == name) = none := by
      rw [← Option.not_isSome_iff_eq_none, List.find?_isSome]
      exact fun hm => h (List.any_eq_true.mpr hm)
    simp only [if_neg h]
    rw [List.find?_append]
    by_cases hn : n = name
    · rw [if_pos hn, hn, hnone]
      simp
    · rw [if_neg hn]
      simp [Ne.symm hn]

theorem set_cons_folder (new : FolderTree α) (name : String) (names : List String)
    (entries : List (String × FolderTree α)) : set new (name :: names) (folder entries) =
      match (folder entries).child? name with
      | some inner => folder (put entries name (set new names inner))
      | none => if names.isEmpty then folder (put entries name new) else folder entries := rfl

theorem at?_set_self {place : List String} {t : FolderTree α}
    {entries : List (String × FolderTree α)} (h : at? place t = some (folder entries))
    (name : String) (new : FolderTree α) :
    at? (place ++ [name]) (set new (place ++ [name]) t) = some new := by
  induction place generalizing t with
  | nil =>
    cases h
    have hput : set new [name] (folder entries) = folder (put entries name new) := by
      rw [set_cons_folder]
      cases (folder entries).child? name <;> rfl
    rw [List.nil_append, hput, at?, child?_put, if_pos rfl]
    rfl
  | cons n place ih =>
    obtain ⟨inner, hc, hi⟩ := Option.bind_eq_some_iff.mp h
    cases t with
    | file content => cases hc
    | folder es =>
      rw [List.cons_append, set_cons_folder, hc, at?]
      simp only
      rw [child?_put, if_pos rfl]
      exact ih hi

/-- **A file at another place stays as it is** when something is put where no folder stands. -/
theorem at?_set_of_ne (new : FolderTree α) {place other : List String} {t : FolderTree α}
    {content : α} (hfree : ∀ entries, at? place t ≠ some (folder entries)) (hne : other ≠ place)
    (h : at? other t = some (file content)) :
    at? other (set new place t) = some (file content) := by
  induction place generalizing other t with
  | nil =>
    -- only the place itself exists in a file
    cases t with
    | folder es => exact absurd rfl (hfree es)
    | file old =>
      cases other with
      | nil => exact absurd rfl hne
      | cons m others => cases h
  | cons n place ih =>
    cases t with
    | file old => exact h
    | folder es =>
      cases other with
      | nil => cases h
      | cons m others =>
        have hput : ∀ u, (m = n → at? others u = some (file content)) →
            at? (m :: others) (folder (put es n u)) = some (file content) := by
          intro u hu
          rw [at?, child?_put]
          split_ifs with hm
          · exact hu hm
          · exact h
        rw [set_cons_folder]
        cases hc : (folder es).child? n with
        | some inner =>
          refine hput _ fun hm => ih (fun entries he => hfree entries ?_) ?_ ?_
          · rw [at?, hc]
            exact he
          · rintro rfl
            exact hne (by rw [hm])
          · subst hm
            rw [at?, hc] at h
            exact h
        | none =>
          simp only
          split_ifs
          · refine hput new fun hm => ?_
            subst hm
            rw [at?, hc] at h
            cases h
          · exact h

/-- Places that exist in the one tree exist in the other, and folders are folders there. -/
def Keeps (t u : FolderTree α) : Prop :=
  ∀ place, ((at? place t).isSome = true → (at? place u).isSome = true) ∧
    ∀ entries, at? place t = some (folder entries) →
      ∃ entries', at? place u = some (folder entries')

theorem Keeps.refl (t : FolderTree α) : Keeps t t := fun _ => ⟨id, fun entries h => ⟨entries, h⟩⟩

theorem keeps_file (content : α) (u : FolderTree α) : Keeps (file content) u := by
  intro place
  cases place with
  | nil => exact ⟨fun _ => rfl, nofun⟩
  | cons name names => exact ⟨nofun, nofun⟩

theorem keeps_folder {es es' : List (String × FolderTree α)}
    (h : ∀ name inner, (folder es).child? name = some inner →
      ∃ inner', (folder es').child? name = some inner' ∧ Keeps inner inner') :
    Keeps (folder es) (folder es') := by
  intro place
  cases place with
  | nil => exact ⟨fun _ => rfl, fun entries _ => ⟨es', rfl⟩⟩
  | cons name names =>
    rw [at?, at?]
    cases hc : (folder es).child? name with
    | none => exact ⟨nofun, nofun⟩
    | some inner =>
      obtain ⟨inner', hc', hk⟩ := h name inner hc
      rw [hc']
      exact hk names

/-- **What is put into a tree leaves its places as they are**, unless a folder was there. -/
theorem keeps_set (new : FolderTree α) {place : List String} {t : FolderTree α}
    (h : ∀ entries, at? place t ≠ some (folder entries)) : Keeps t (set new place t) := by
  induction place generalizing t with
  | nil =>
    cases t with
    | file content => exact keeps_file content new
    | folder entries => exact absurd rfl (h entries)
  | cons name names ih =>
    cases t with
    | file content => exact keeps_file content _
    | folder es =>
      have hput : ∀ u, (∀ inner, (folder es).child? name = some inner → Keeps inner u) →
          Keeps (folder es) (folder (put es name u)) := by
        intro u hu
        refine keeps_folder fun n inner hc => ?_
        rw [child?_put]
        by_cases hn : n = name
        · subst hn
          exact ⟨u, if_pos rfl, hu inner hc⟩
        · exact ⟨inner, by rw [if_neg hn, hc], Keeps.refl inner⟩
      rw [set_cons_folder]
      cases hc : (folder es).child? name with
      | some inner =>
        refine hput _ fun inner' hc' => ?_
        obtain rfl := Option.some.inj (hc.symm.trans hc')
        refine ih fun entries he => h entries ?_
        rw [at?, hc]
        exact he
      | none =>
        simp only
        split_ifs
        · exact hput new fun inner' hc' => by rw [hc] at hc'; cases hc'
        · exact Keeps.refl _

/-! ## Paths -/

theorem at?_append (front back : List String) (t : FolderTree α) :
    at? (front ++ back) t = (at? front t).bind (at? back) := by
  induction front generalizing t with
  | nil => rfl
  | cons name front ih =>
    rw [List.cons_append, at?, at?]
    cases t.child? name with
    | none => rfl
    | some inner => exact ih inner

/-- The segment is a name, and not a mark for this folder or the outer one. -/
structure IsEntryName (segment : String) : Prop where
  notMark : ¬ (segment == "" || segment == ".") = true
  notUp : ¬ (segment == "..") = true
  short : ¬ nameLimit < segment.utf8ByteSize

theorem followSegment_of_isEntryName {t : FolderTree α} {place : List String}
    {entries : List (String × FolderTree α)} (hp : at? place.reverse t = some (folder entries))
    {name : String} (hn : IsEntryName name) : followSegment t place name =
      if (at? (place.reverse ++ [name]) t).isSome then .ok (name :: place)
      else .error .notFound := by
  unfold followSegment
  rw [hp, if_neg hn.notMark, if_neg hn.notUp, if_neg hn.short, List.reverse_cons]
  cases at? (place.reverse ++ [name]) t <;> rfl

theorem followSegment_eq_ok {t : FolderTree α} {place found : List String} {segment : String}
    (h : followSegment t place segment = .ok found) :
    ∃ entries, at? place.reverse t = some (folder entries) ∧
      ((segment == "" || segment == ".") = true ∧ found = place ∨
        (segment == "..") = true ∧ (∃ name, place = name :: found) ∨
        IsEntryName segment ∧ found = segment :: place ∧
          (at? (place.reverse ++ [segment]) t).isSome = true) := by
  unfold followSegment at h
  split at h
  · cases h
  · cases h
  · next entries hat =>
    refine ⟨entries, hat, ?_⟩
    split_ifs at h with hmark hup hlong
    · cases h
      exact Or.inl ⟨hmark, rfl⟩
    · split at h
      · cases h
      · cases h
        exact Or.inr (Or.inl ⟨hup, _, rfl⟩)
    · split at h
      · next inner hi =>
        cases h
        rw [List.reverse_cons] at hi
        exact Or.inr (Or.inr ⟨⟨hmark, hup, hlong⟩, rfl, by rw [hi]; rfl⟩)
      · cases h

theorem isSome_of_followSegment {t : FolderTree α} {place found : List String} {segment : String}
    (h : followSegment t place segment = .ok found) : (at? found.reverse t).isSome = true := by
  obtain ⟨entries, hp, ⟨-, rfl⟩ | ⟨-, name, rfl⟩ | ⟨-, rfl, hs⟩⟩ := followSegment_eq_ok h
  · rw [hp]
    rfl
  · rw [List.reverse_cons, at?_append] at hp
    obtain ⟨outer, ho, -⟩ := Option.bind_eq_some_iff.mp hp
    rw [ho]
    rfl
  · rwa [List.reverse_cons]

theorem isSome_of_foldlM {t : FolderTree α} {segments place found : List String}
    (hp : (at? place.reverse t).isSome = true)
    (h : segments.foldlM (followSegment t) place = .ok found) :
    (at? found.reverse t).isSome = true := by
  induction segments generalizing place with
  | nil =>
    cases h
    exact hp
  | cons segment segments ih =>
    rw [List.foldlM_cons] at h
    obtain ⟨next, hn, h⟩ := bind_eq_ok.mp h
    exact ih (isSome_of_followSegment hn) h

/-- **A segment leads where it led before.** -/
theorem followSegment_of_keeps {t u : FolderTree α} (hk : Keeps t u) {place found : List String}
    {segment : String} (h : followSegment t place segment = .ok found) :
    followSegment u place segment = .ok found := by
  obtain ⟨entries, hp, hcases⟩ := followSegment_eq_ok h
  obtain ⟨entries', hp'⟩ := (hk place.reverse).2 entries hp
  rcases hcases with ⟨hmark, rfl⟩ | ⟨hup, name, rfl⟩ | ⟨hname, rfl, hs⟩
  · unfold followSegment
    rw [hp', if_pos hmark]
  · have hmark : ¬ (segment == "" || segment == ".") = true := by
      rw [beq_iff_eq.mp hup]
      decide
    unfold followSegment
    rw [hp', if_neg hmark, if_pos hup]
  · rw [followSegment_of_isEntryName hp' hname, if_pos ((hk _).1 hs)]

theorem foldlM_of_keeps {t u : FolderTree α} (hk : Keeps t u) {segments place found : List String}
    (h : segments.foldlM (followSegment t) place = .ok found) :
    segments.foldlM (followSegment u) place = .ok found := by
  induction segments generalizing place with
  | nil => exact h
  | cons segment segments ih =>
    rw [List.foldlM_cons] at h ⊢
    obtain ⟨next, hn, h⟩ := bind_eq_ok.mp h
    exact bind_eq_ok.mpr ⟨next, followSegment_of_keeps hk hn, ih h⟩

theorem followSegment_eq_notFound {t : FolderTree α} {place : List String} {segment : String}
    (hp : (at? place.reverse t).isSome = true) (hup : ¬ (segment == "..") = true)
    (h : followSegment t place segment = .error .notFound) :
    ∃ entries, at? place.reverse t = some (folder entries) ∧ IsEntryName segment ∧
      at? (place.reverse ++ [segment]) t = none := by
  unfold followSegment at h
  split at h
  · next hat =>
    rw [hat] at hp
    cases hp
  · cases h
  · next entries hat =>
    split_ifs at h with hmark hlong
    · cases h
    · split at h
      · cases h
      · next hnone =>
        rw [List.reverse_cons] at hnone
        exact ⟨entries, hat, ⟨hmark, hup, hlong⟩, hnone⟩

theorem followSegment_of_file {t : FolderTree α} {place found : List String} {segment : String}
    {content : α} (h : followSegment t place segment = .ok found)
    (hf : at? found.reverse t = some (file content)) :
    (∃ entries, at? place.reverse t = some (folder entries)) ∧ IsEntryName segment ∧
      found = segment :: place := by
  obtain ⟨entries, hp, ⟨-, rfl⟩ | ⟨-, name, rfl⟩ | ⟨hname, rfl, -⟩⟩ := followSegment_eq_ok h
  · rw [hp] at hf
    cases hf
  · -- a folder does not lie in a file
    rw [List.reverse_cons, at?_append, hf] at hp
    cases hp
  · exact ⟨⟨entries, hp⟩, hname, rfl⟩

theorem read_eq_ok {t : FolderTree α} {path : String} {content : α} :
    t.read path = .ok content ↔
      ∃ found, t.follow path = .ok found ∧ at? found.reverse t = some (file content) := by
  unfold read get
  rw [bind_eq_ok]
  constructor
  · rintro ⟨u, hget, hread⟩
    obtain ⟨found, hfollow, hat⟩ := bind_eq_ok.mp hget
    split at hat
    · next v hv =>
      cases hat
      cases u with
      | file old =>
        cases hread
        exact ⟨found, hfollow, hv⟩
      | folder entries => cases hread
    · cases hat
  · rintro ⟨found, hfollow, hat⟩
    refine ⟨file content, bind_eq_ok.mpr ⟨found, hfollow, ?_⟩, rfl⟩
    rw [hat]

/-- A file stands under the last segment of its path. -/
theorem follow_of_read {t : FolderTree α} {path name : String} {outer : List String} {content : α}
    (hs : Path.segments path = outer ++ [name]) (h : t.read path = .ok content) :
    ∃ place, t.follow path = .ok (name :: place) := by
  obtain ⟨found, hfollow, hat⟩ := read_eq_ok.mp h
  obtain ⟨⟨⟩, -, hway⟩ := bind_eq_ok.mp hfollow
  rw [hs, List.foldlM_append] at hway
  obtain ⟨place, -, hlast⟩ := bind_eq_ok.mp hway
  rw [List.foldlM_cons] at hlast
  obtain ⟨next, hnext, hend⟩ := bind_eq_ok.mp hlast
  cases hend
  obtain ⟨-, -, rfl⟩ := followSegment_of_file hnext hat
  exact ⟨place, hfollow⟩

/-! ## Writing -/

/-- A file can be written under a path: at a name in a folder, where no folder stands. -/
structure IsTarget (t : FolderTree α) (path : String) (outer place : List String)
    (name : String) : Prop where
  valid : checkPath path = .ok ()
  split : split path = (outer, name, false)
  way : outer.foldlM (followSegment t) [] = .ok place
  inFolder : ∃ entries, at? place.reverse t = some (folder entries)
  isName : IsEntryName name
  free : ∀ entries, at? (place.reverse ++ [name]) t ≠ some (folder entries)

theorem segments_of_split {path name : String} {outer : List String}
    (h : split path = (outer, name, false)) : Path.segments path = outer ++ [name] := by
  unfold split at h
  cases hr : (Path.segments path).reverse with
  | nil =>
    rw [hr] at h
    cases h
  | cons last front =>
    have hs : Path.segments path = front.reverse ++ [last] := by
      rw [← List.reverse_reverse (Path.segments path), hr, List.reverse_cons]
    rw [hr] at h
    simp only at h
    by_cases hl : (last == "") = true
    · -- then a slash follows the last name
      rw [beq_iff_eq.mp hl] at h
      split at h <;> cases h
    · rw [List.dropWhile_cons_of_neg (p := (· == "")) hl] at h
      obtain ⟨ho, h⟩ := Prod.mk.inj h
      rw [hs, ho, (Prod.mk.inj h).1]

/-- **Where a file is written.** -/
theorem write_eq_ok {t t' : FolderTree α} {path : String} {content : α}
    (h : t.write path content = .ok t') : ∃ outer place name, IsTarget t path outer place name ∧
      t' = set (file content) (place.reverse ++ [name]) t := by
  obtain ⟨⟨⟩, hvalid, hrest⟩ := bind_eq_ok.mp h
  rcases hs : split path with ⟨outer, name, slash⟩
  rw [hs] at hrest
  obtain ⟨place, hway, hput⟩ := bind_eq_ok.mp hrest
  clear h hrest
  have hplace : (at? place.reverse t).isSome = true :=
    isSome_of_foldlM (show (at? [].reverse t).isSome = true from rfl) hway
  split at hput
  · next found hfound =>
    split at hput
    · next hold =>
      cases hput
      obtain ⟨hfolder, hname, rfl⟩ := followSegment_of_file hfound hold
      rw [List.reverse_cons] at hold ⊢
      refine ⟨outer, place, name, ⟨hvalid, hs, hway, hfolder, hname, fun entries he => ?_⟩, rfl⟩
      rw [hold] at he
      cases he
    · cases hput
  · next hnone =>
    split_ifs at hput with hbad
    cases hput
    rw [Bool.or_eq_true, not_or] at hbad
    obtain ⟨entries, hfolder, hname, hat⟩ := followSegment_eq_notFound hplace hbad.2 hnone
    rw [Bool.eq_false_iff.mpr hbad.1] at hs
    rw [List.reverse_cons]
    refine ⟨outer, place, name, ⟨hvalid, hs, hway, ⟨entries, hfolder⟩, hname, fun entries he => ?_⟩,
      rfl⟩
    rw [hat] at he
    cases he
  · cases hput

section Target

variable {t : FolderTree α} {path : String} {outer place : List String} {name : String}
  (h : IsTarget t path outer place name)

include h

theorem IsTarget.of_set (content : α) :
    IsTarget (set (file content) (place.reverse ++ [name]) t) path outer place name ∧
      at? (place.reverse ++ [name]) (set (file content) (place.reverse ++ [name]) t) =
        some (file content) := by
  obtain ⟨entries, hfolder⟩ := h.inFolder
  have hself := at?_set_self hfolder name (file content)
  have hk := keeps_set (file content) h.free
  refine ⟨⟨h.valid, h.split, foldlM_of_keeps hk h.way, (hk _).2 entries hfolder, h.isName, ?_⟩,
    hself⟩
  intro entries' he
  rw [hself] at he
  cases he

theorem IsTarget.followSegment {content : α}
    (hf : at? (place.reverse ++ [name]) t = some (file content)) :
    FolderTree.followSegment t place name = .ok (name :: place) := by
  obtain ⟨entries, hfolder⟩ := h.inFolder
  rw [followSegment_of_isEntryName hfolder h.isName, hf]
  rfl

theorem IsTarget.follow {content : α}
    (hf : at? (place.reverse ++ [name]) t = some (file content)) :
    FolderTree.follow t path = .ok (name :: place) := by
  rw [FolderTree.follow, h.valid, segments_of_split h.split, List.foldlM_append]
  refine bind_eq_ok.mpr ⟨(), rfl, bind_eq_ok.mpr ⟨place, h.way, ?_⟩⟩
  rw [List.foldlM_cons]
  exact bind_eq_ok.mpr ⟨_, h.followSegment hf, rfl⟩

theorem IsTarget.read {content : α}
    (hf : at? (place.reverse ++ [name]) t = some (file content)) :
    FolderTree.read t path = .ok content := by
  refine read_eq_ok.mpr ⟨_, h.follow hf, ?_⟩
  rwa [List.reverse_cons]

theorem IsTarget.write {old : α} (hf : at? (place.reverse ++ [name]) t = some (file old))
    (content : α) :
    FolderTree.write t path content = .ok (set (file content) (place.reverse ++ [name]) t) := by
  refine bind_eq_ok.mpr ⟨(), h.valid, ?_⟩
  rw [h.split]
  refine bind_eq_ok.mpr ⟨place, h.way, ?_⟩
  rw [h.followSegment hf]
  simp only [List.reverse_cons, hf]

end Target

theorem read_of_write {t t' : FolderTree α} {path : String} {content : α}
    (h : t.write path content = .ok t') : t'.read path = .ok content := by
  obtain ⟨outer, place, name, htarget, rfl⟩ := write_eq_ok h
  obtain ⟨htarget', hf⟩ := htarget.of_set content
  exact htarget'.read hf

/-- A file that was written can be written again. -/
theorem write_of_write {t t' : FolderTree α} {path : String} {content : α}
    (h : t.write path content = .ok t') (new : α) : ∃ t'', t'.write path new = .ok t'' := by
  obtain ⟨outer, place, name, htarget, rfl⟩ := write_eq_ok h
  obtain ⟨htarget', hf⟩ := htarget.of_set content
  exact ⟨_, htarget'.write hf new⟩

theorem follow_of_keeps {t u : FolderTree α} (hk : Keeps t u) {path : String} {found : List String}
    (h : t.follow path = .ok found) : u.follow path = .ok found := by
  obtain ⟨⟨⟩, hvalid, hway⟩ := bind_eq_ok.mp h
  exact bind_eq_ok.mpr ⟨(), hvalid, foldlM_of_keeps hk hway⟩

/-- **A file is read as before after another one was written.** -/
theorem read_of_write_other {t t' : FolderTree α} {path other : String} {content old : α}
    (h : t.write path content = .ok t') (ho : t.read other = .ok old)
    (hne : t'.follow path ≠ t.follow other) : t'.read other = .ok old := by
  obtain ⟨outer, place, name, htarget, rfl⟩ := write_eq_ok h
  obtain ⟨htarget', hf⟩ := htarget.of_set content
  obtain ⟨found, hfollow, hat⟩ := read_eq_ok.mp ho
  rw [htarget'.follow hf, hfollow] at hne
  refine read_eq_ok.mpr ⟨found, follow_of_keeps (keeps_set _ htarget.free) hfollow, ?_⟩
  refine at?_set_of_ne _ htarget.free (fun he => hne ?_) hat
  rw [← List.reverse_reverse found, he, List.reverse_append, List.reverse_reverse]
  rfl

end SheetMarkup.FolderTree
