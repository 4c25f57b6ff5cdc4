import Mathlib.Data.List.Nodup
import SheetMarkup.Files.System
import SheetMarkup.Proofs.Files.Tree

/-!
# What a folder lists

A folder lists the entries in it and in the folders in it, without the content of files. A name
leads to one entry, since no two entries of a folder have one name.

* `at?_names`, `at?_names_eq_file`: a tree and its names have the same places;
* `listing_eq`: what is listed under the path of a folder;
* `Distinct`, **`Distinct.of_cons`**: entries with different names, one by one;
* `Rearranged`: a folder whose entries are listed in another order.
-/

namespace SheetMarkup.FolderTree

variable {α : Type}

/-! ## Names -/

theorem entryNames_eq_map (es : List (String × FolderTree α)) :
    entryNames es = es.map fun e => (e.1, e.2.names) := by
  induction es with
  | nil => rfl
  | cons e es ih => rw [entryNames, List.map_cons, ih]

theorem map_fst_entryNames (es : List (String × FolderTree α)) :
    (entryNames es).map Prod.fst = es.map Prod.fst := by
  rw [entryNames_eq_map, List.map_map]
  rfl

theorem child?_names (t : FolderTree α) (name : String) :
    t.names.child? name = (t.child? name).map names := by
  cases t with
  | file content => rfl
  | folder es =>
    rw [names, child?, child?, entryNames_eq_map, List.find?_map, Option.map_map, Option.map_map]
    rfl

theorem at?_names (place : List String) (t : FolderTree α) :
    at? place t.names = (at? place t).map names := by
  induction place generalizing t with
  | nil => rfl
  | cons name place ih =>
    rw [at?, at?, child?_names]
    cases t.child? name with
    | none => rfl
    | some inner => exact ih inner

theorem at?_names_eq_file {place : List String} {t : FolderTree α} :
    at? place t.names = some (file ()) ↔ ∃ content, at? place t = some (file content) := by
  rw [at?_names, Option.map_eq_some_iff]
  constructor
  · rintro ⟨u, hu, hfile⟩
    cases u with
    | file content => exact ⟨content, hu⟩
    | folder es => cases hfile
  · rintro ⟨content, hu⟩
    exact ⟨_, hu, rfl⟩

theorem listing_eq {root : FolderTree α} {path : String} {es : List (String × FolderTree α)}
    (h : root.get path = .ok (folder es)) : root.listing path = entryNames es := by
  rw [listing, h]

/-! ## Distinct names -/

/-- No two entries of a folder in the tree have one name. -/
def Distinct (t : FolderTree α) : Prop :=
  ∀ place es, at? place t = some (folder es) → (es.map Prod.fst).Nodup

theorem Distinct.names {t : FolderTree α} (h : t.Distinct) : t.names.Distinct := by
  intro place es he
  rw [at?_names, Option.map_eq_some_iff] at he
  obtain ⟨u, hu, hfolder⟩ := he
  cases u with
  | file content => cases hfolder
  | folder es' =>
    cases hfolder
    rw [map_fst_entryNames]
    exact h place es' hu

section Entries

variable {e : String × FolderTree α} {es : List (String × FolderTree α)}

theorem at?_head (place : List String) :
    at? (e.1 :: place) (folder (e :: es)) = at? place e.2 := by
  rw [at?, child?, List.find?_cons, beq_self_eq_true]
  rfl

theorem at?_tail {name : String} (h : name ≠ e.1) (place : List String) :
    at? (name :: place) (folder (e :: es)) = at? (name :: place) (folder es) := by
  rw [at?, at?, child?, child?, List.find?_cons, beq_eq_false_iff_ne.mpr h.symm]

theorem mem_of_at?_eq_some {name : String} {place : List String} {t : FolderTree α}
    (h : at? (name :: place) (folder es) = some t) : name ∈ es.map Prod.fst := by
  obtain ⟨inner, hchild, -⟩ := Option.bind_eq_some_iff.mp h
  obtain ⟨f, hf, -⟩ := Option.map_eq_some_iff.mp hchild
  have hname := List.find?_some hf
  exact List.mem_map.mpr ⟨f, List.mem_of_find?_eq_some hf, beq_iff_eq.mp hname⟩

/-- **In a folder with distinct names** the first entry has a name of its own, and both the first
entry and the others have distinct names. -/
theorem Distinct.of_cons (h : (folder (e :: es)).Distinct) :
    e.1 ∉ es.map Prod.fst ∧ e.2.Distinct ∧ (folder es).Distinct := by
  have hnodup := h [] _ rfl
  rw [List.map_cons, List.nodup_cons] at hnodup
  refine ⟨hnodup.1, fun place es' he => h (e.1 :: place) es' ((at?_head place).trans he), ?_⟩
  intro place es' he
  cases place with
  | nil =>
    cases he
    exact hnodup.2
  | cons name place =>
    have hne : name ≠ e.1 := fun heq => hnodup.1 (heq ▸ mem_of_at?_eq_some he)
    exact h (name :: place) es' ((at?_tail hne place).trans he)

end Entries

/-- The entries of a folder, and of the folders in it, listed in another order. -/
inductive Rearranged : List (String × FolderTree α) → List (String × FolderTree α) → Prop
  | nil : Rearranged [] []
  | cons (e : String × FolderTree α) {es es' : List (String × FolderTree α)} :
      Rearranged es es' → Rearranged (e :: es) (e :: es')
  | swap (e f : String × FolderTree α) (es : List (String × FolderTree α)) :
      Rearranged (e :: f :: es) (f :: e :: es)
  | inner (name : String) {inner inner' es : List (String × FolderTree α)} :
      Rearranged inner inner' → Rearranged ((name, folder inner) :: es) ((name, folder inner') :: es)
  | trans {es es' es'' : List (String × FolderTree α)} :
      Rearranged es es' → Rearranged es' es'' → Rearranged es es''

end SheetMarkup.FolderTree
