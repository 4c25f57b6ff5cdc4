import SheetMarkup.Fixture.Category
import SheetMarkup.Proofs.Files.Listing

/-!
# The fixtures of a folder

All files of a folder with the ending of a fixture are found, each once. In which order the folder
lists its entries only changes the order in which they are found.

* `Location.place`: where a fixture lies, by the names on the way;
* **`mem_fixturesIn`**, **`nodup_fixturesIn`**: what is found;
* `perm_fixturesIn`: what is found in a folder that is listed in another order.
-/

namespace SheetMarkup.Fixture

open FolderTree

/-- The names on the way to a fixture, and its own. -/
def Location.place (l : Location) : List String := l.folders ++ [l.name]

theorem Location.place_injective {l l' : Location} (h : l.place = l'.place) : l = l' := by
  obtain ⟨hfolders, hname⟩ := List.append_inj' h rfl
  obtain ⟨folders, name⟩ := l
  cases hfolders
  cases hname
  rfl

theorem exists_cons_of_file {α : Type} {place : List String} {content : α}
    {es : List (String × FolderTree α)} (h : at? place (folder es) = some (file content)) :
    ∃ name rest, place = name :: rest ∧ name ∈ es.map Prod.fst := by
  cases place with
  | nil => cases h
  | cons name rest => exact ⟨name, rest, rfl, mem_of_at?_eq_some h⟩

/-- The files of a folder are those of its first entry and those of the others. -/
theorem exists_file_cons_iff {e : String × FolderTree Unit} {es : List (String × FolderTree Unit)}
    (hnew : e.1 ∉ es.map Prod.fst) (p : List String → Prop) :
    (∃ rest, p rest ∧ at? rest (folder (e :: es)) = some (file ())) ↔
      (∃ rest, p (e.1 :: rest) ∧ at? rest e.2 = some (file ())) ∨
        ∃ rest, p rest ∧ at? rest (folder es) = some (file ()) := by
  constructor
  · rintro ⟨rest, hp, hfile⟩
    obtain ⟨name, rest, rfl, -⟩ := exists_cons_of_file hfile
    by_cases hname : name = e.1
    · subst hname
      exact .inl ⟨rest, hp, (at?_head rest).symm.trans hfile⟩
    · exact .inr ⟨_, hp, (at?_tail hname rest).symm.trans hfile⟩
  · rintro (⟨rest, hp, hfile⟩ | ⟨rest, hp, hfile⟩)
    · exact ⟨_, hp, (at?_head rest).trans hfile⟩
    · obtain ⟨name, rest, rfl, hmem⟩ := exists_cons_of_file hfile
      have hname : name ≠ e.1 := fun heq => hnew (heq ▸ hmem)
      exact ⟨_, hp, (at?_tail hname rest).trans hfile⟩

variable {l : Location}

mutual

theorem mem_fixturesAt (folders : List String) (name : String) :
    (t : FolderTree Unit) → t.Distinct → (l ∈ fixturesAt folders name t ↔
      isFixtureName l.name = true ∧
        ∃ rest, l.place = folders ++ name :: rest ∧ at? rest t = some (file ()))
  | file (), _ => by
    have hrest : ∀ rest, at? rest (file ()) = some (file ()) ↔ rest = [] := fun rest => by
      cases rest with
      | nil => exact iff_of_true rfl rfl
      | cons name rest => exact iff_of_false nofun (List.cons_ne_nil _ _)
    have hplace : l.place = folders ++ [name] ↔ l = ⟨folders, name⟩ :=
      ⟨fun h => Location.place_injective h, fun h => h ▸ rfl⟩
    simp only [hrest, exists_eq_right, hplace]
    rw [fixturesAt]
    split_ifs with hname
    · rw [List.mem_singleton]
      exact (and_iff_right_of_imp fun h => h ▸ hname).symm
    · refine iff_of_false List.not_mem_nil ?_
      rintro ⟨hfixture, rfl⟩
      exact hname hfixture
  | folder es, h => by
    rw [fixturesAt, mem_fixturesIn (folders ++ [name]) es h]
    simp only [List.append_assoc, List.singleton_append]

/-- **What is found in a folder** are the files in it with the ending of a fixture. -/
theorem mem_fixturesIn (folders : List String) :
    (es : List (String × FolderTree Unit)) → (folder es).Distinct → (l ∈ fixturesIn folders es ↔
      isFixtureName l.name = true ∧
        ∃ rest, l.place = folders ++ rest ∧ at? rest (folder es) = some (file ()))
  | [], _ => by
    refine iff_of_false List.not_mem_nil ?_
    rintro ⟨-, rest, -, hfile⟩
    obtain ⟨name, rest, -, hmem⟩ := exists_cons_of_file hfile
    cases hmem
  | e :: es, h => by
    obtain ⟨hnew, hentry, hrest⟩ := h.of_cons
    rw [fixturesIn, List.mem_append, mem_fixturesAt folders e.1 e.2 hentry,
      mem_fixturesIn folders es hrest, ← and_or_left,
      exists_file_cons_iff hnew (fun rest => l.place = folders ++ rest)]

end

mutual

theorem nodup_fixturesAt (folders : List String) (name : String) :
    (t : FolderTree Unit) → t.Distinct → (fixturesAt folders name t).Nodup
  | file (), _ => by
    rw [fixturesAt]
    split_ifs
    · exact List.nodup_singleton _
    · exact List.nodup_nil
  | folder es, h => nodup_fixturesIn (folders ++ [name]) es h

theorem nodup_fixturesIn (folders : List String) :
    (es : List (String × FolderTree Unit)) → (folder es).Distinct → (fixturesIn folders es).Nodup
  | [], _ => List.nodup_nil
  | e :: es, h => by
    obtain ⟨hnew, hentry, hrest⟩ := h.of_cons
    refine List.nodup_append.mpr ⟨nodup_fixturesAt folders e.1 e.2 hentry,
      nodup_fixturesIn folders es hrest, fun l hl l' hl' heq => hnew ?_⟩
    subst heq
    -- the first name after the folders tells the entries apart
    obtain ⟨-, rest, hplace, -⟩ := (mem_fixturesAt folders e.1 e.2 hentry).mp hl
    obtain ⟨-, rest', hplace', hfile⟩ := (mem_fixturesIn folders es hrest).mp hl'
    obtain ⟨name, rest', rfl, hmem⟩ := exists_cons_of_file hfile
    rw [hplace, List.append_cancel_left_eq] at hplace'
    exact (List.cons.inj hplace').1 ▸ hmem

end

/-- A folder that is listed in another order gives the same fixtures in another order. -/
theorem perm_fixturesIn {es es' : List (String × FolderTree Unit)} (h : Rearranged es es')
    (folders : List String) : (fixturesIn folders es).Perm (fixturesIn folders es') := by
  induction h generalizing folders with
  | nil => exact List.Perm.refl _
  | cons e h ih => exact (ih folders).append_left _
  | swap e f es =>
    simp only [fixturesIn]
    rw [← List.append_assoc, ← List.append_assoc]
    exact List.perm_append_comm.append_right _
  | inner name h ih => exact (ih (folders ++ [name])).append_right _
  | trans h h' ih ih' => exact (ih folders).trans (ih' folders)

end SheetMarkup.Fixture
