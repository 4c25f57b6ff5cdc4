import Mathlib.Data.List.Lex
import Mathlib.Data.List.Nodup
import SheetMarkup.Proofs.Fixture.Discovery
import SheetMarkup.Proofs.Text.Order

/-!
# The selection of fixtures

The fixtures of a folder are grouped by category and sorted, and requests select categories with
all categories in them. What is selected only depends on the files and on the categories that are
asked for.

* `namesLe_iff`, `Location.le_iff`: the order of fixtures is that of the names on the way to them;
* `mem_categories`, **`categories_perm`**: the groups of fixtures that were found in any order;
* `Within`, `selects_iff`: the categories that a request selects;
* `mem_fixtures_selection`, `nodup_fixtures_selection`, `IsSelection`, **`isSelection`**: what is
  selected;
* **`selection_congr`**: requests and folders that select the same.
-/

namespace SheetMarkup.Fixture

open FolderTree

/-! ## The order of fixtures -/

theorem namesLe_iff {xs ys : List String} :
    Location.namesLe xs ys = true ↔ xs = ys ∨ xs < ys := by
  induction xs generalizing ys with
  | nil =>
    cases ys with
    | nil => exact iff_of_true rfl (.inl rfl)
    | cons y ys => exact iff_of_true rfl (.inr List.Lex.nil)
  | cons x xs ih =>
    cases ys with
    | nil =>
      refine iff_of_false Bool.false_ne_true ?_
      rintro (h | h) <;> cases h
    | cons y ys =>
      rw [Location.namesLe, Bool.or_eq_true, Bool.and_eq_true, Text.precedes_iff, beq_iff_eq, ih,
        List.cons_lt_cons_iff, List.cons.injEq, and_or_left, or_left_comm]

namespace Location

theorem le_iff {l l' : Location} : l.le l' = true ↔ l = l' ∨ l.place < l'.place := by
  rw [le, namesLe_iff]
  exact or_congr_left ⟨place_injective, fun h => h ▸ rfl⟩

theorem le_trans (a b c : Location) (hab : a.le b = true) (hbc : b.le c = true) :
    a.le c = true := by
  rw [le_iff] at hab hbc ⊢
  obtain rfl | hab := hab
  · exact hbc
  · obtain rfl | hbc := hbc
    · exact .inr hab
    · exact .inr (hab.trans hbc)

theorem le_total (a b : Location) : (a.le b || b.le a) = true := by
  rw [Bool.or_eq_true, le_iff, le_iff]
  obtain h | h | h := lt_trichotomy a.place b.place
  · exact .inl (.inr h)
  · exact .inl (.inl (place_injective h))
  · exact .inr (.inr h)

theorem le_antisymm {a b : Location} (hab : a.le b = true) (hba : b.le a = true) : a = b := by
  rw [le_iff] at hab hba
  obtain rfl | hab := hab
  · rfl
  · obtain rfl | hba := hba
    · rfl
    · exact absurd hba (lt_asymm hab)

end Location

theorem pairwise_mergeSort {found : List Location} (h : found.Nodup) :
    (found.mergeSort Location.le).Pairwise fun l l' => l.place < l'.place := by
  have hnodup := (List.mergeSort_perm found Location.le).nodup_iff.mpr h
  refine (List.pairwise_mergeSort Location.le_trans Location.le_total found).imp₂ ?_ hnodup
  exact fun l l' hle hne => (Location.le_iff.mp hle).resolve_left hne

theorem mergeSort_congr {found found' : List Location} (h : found.Perm found') :
    found.mergeSort Location.le = found'.mergeSort Location.le := by
  refine List.Perm.eq_of_pairwise (fun a b _ _ => Location.le_antisymm)
    (List.pairwise_mergeSort Location.le_trans Location.le_total found)
    (List.pairwise_mergeSort Location.le_trans Location.le_total found') ?_
  exact (List.mergeSort_perm found _).trans (h.trans (List.mergeSort_perm found' _).symm)

/-! ## Categories -/

theorem mem_categories {found : List Location} {c : Category} : c ∈ categories found ↔
    c.name ∈ found.map Location.category ∧
      c.fixtures = (found.filter (·.category == c.name)).mergeSort Location.le := by
  rw [categories, List.mem_map]
  simp only [Text.mem_sortedDistinct]
  constructor
  · rintro ⟨name, hname, rfl⟩
    exact ⟨hname, rfl⟩
  · rintro ⟨hname, hfixtures⟩
    exact ⟨c.name, hname, by rw [← hfixtures]⟩

theorem mem_fixtures_iff {found : List Location} {c : Category} (h : c ∈ categories found)
    {l : Location} : l ∈ c.fixtures ↔ l ∈ found ∧ l.category = c.name := by
  rw [(mem_categories.mp h).2, List.mem_mergeSort, List.mem_filter, beq_iff_eq]

theorem exists_category {found : List Location} {l : Location} (h : l ∈ found) :
    ∃ c ∈ categories found, l.category = c.name :=
  ⟨_, List.mem_map_of_mem (Text.mem_sortedDistinct.mpr (List.mem_map_of_mem h)), rfl⟩

theorem fixtures_ne_nil {found : List Location} {c : Category} (h : c ∈ categories found) :
    c.fixtures ≠ [] := by
  obtain ⟨l, hl, hcategory⟩ := List.mem_map.mp (mem_categories.mp h).1
  exact List.ne_nil_of_mem ((mem_fixtures_iff h).mpr ⟨hl, hcategory⟩)

theorem pairwise_categories (found : List Location) :
    (categories found).Pairwise fun c c' => c.name < c'.name :=
  List.pairwise_map.mpr (Text.pairwise_sortedDistinct _)

/-- **The groups do not depend on the order in which the fixtures are found.** -/
theorem categories_perm {found found' : List Location} (h : found.Perm found') :
    categories found = categories found' := by
  have hnames : Text.sortedDistinct (found.map Location.category) =
      Text.sortedDistinct (found'.map Location.category) :=
    Text.sortedDistinct_congr fun s => (h.map Location.category).mem_iff
  rw [categories, categories, hnames]
  exact List.map_congr_left fun name _ =>
    congrArg (Category.mk name) (mergeSort_congr (h.filter _))

/-! ## Requests -/

/-- The category is the one that is named or lies in it. -/
def Within (name category : String) : Prop :=
  category = name ∨ ∃ rest, category = name ++ "/" ++ rest

theorem selects_iff {request : String} {c : Category} :
    selects request c = true ↔ Within (requested request) c.name := by
  have hslash : "/".toList = ['/'] := by decide
  rw [selects, Bool.or_eq_true, beq_iff_eq, List.isPrefixOf_iff_prefix]
  refine or_congr_right ⟨?_, ?_⟩
  · rintro ⟨rest, hrest⟩
    refine ⟨String.ofList rest, ?_⟩
    rw [← String.toList_inj, String.toList_append, String.toList_append, hslash,
      String.toList_ofList, hrest]
  · rintro ⟨rest, hrest⟩
    exact ⟨rest.toList, by rw [hrest, String.toList_append, String.toList_append, hslash]⟩

theorem any_selects_iff {requests : List String} {c : Category} :
    requests.any (selects · c) = true ↔ ∃ name ∈ requests.map requested, Within name c.name := by
  simp only [List.any_eq_true, selects_iff, List.mem_map, exists_exists_and_eq_and]

/-! ## Selections -/

/-- What is selected in a folder with some entries. -/
def selection (entries : List (String × FolderTree Unit)) (requests : List String) :
    List Category :=
  select (categories (fixturesIn [] entries)) requests

/-- What is selected in a folder when these categories are asked for. -/
structure IsSelection {α : Type} (entries : List (String × FolderTree α)) (requests : List String)
    (selected : List Category) : Prop where
  /-- The fixtures are the files with their ending in the categories that are asked for. -/
  mem : ∀ l, l ∈ selected.flatMap Category.fixtures ↔
    (∃ content, at? l.place (folder entries) = some (file content)) ∧
      ending.toList <:+ l.name.toList ∧ ∃ r ∈ requests, Within (requested r) l.category
  once : (selected.flatMap Category.fixtures).Nodup
  grouped : ∀ c ∈ selected, c.fixtures ≠ [] ∧ ∀ l ∈ c.fixtures, l.category = c.name
  sorted : selected.Pairwise fun c c' => c.name < c'.name
  sortedFixtures : ∀ c ∈ selected, c.fixtures.Pairwise fun l l' => l.place < l'.place

theorem mem_selection {entries : List (String × FolderTree Unit)} {requests : List String}
    (hne : requests ≠ []) {c : Category} : c ∈ selection entries requests ↔
      c ∈ categories (fixturesIn [] entries) ∧ ∃ r ∈ requests, Within (requested r) c.name := by
  rw [selection, select, if_neg (by rwa [List.isEmpty_iff]), List.mem_filter, List.any_eq_true]
  simp only [selects_iff]

theorem sublist_selection (entries : List (String × FolderTree Unit)) (requests : List String) :
    (selection entries requests).Sublist (categories (fixturesIn [] entries)) := by
  rw [selection, select]
  split_ifs
  · exact List.Sublist.refl _
  · exact List.filter_sublist

/-- Something is selected when a fixture is. -/
theorem selection_eq_nil_iff {entries : List (String × FolderTree Unit)} {requests : List String} :
    selection entries requests = [] ↔ (selection entries requests).flatMap Category.fixtures = [] := by
  rw [List.flatMap_eq_nil_iff, List.eq_nil_iff_forall_not_mem]
  exact forall₂_congr fun c hc => iff_of_false not_false
    (fixtures_ne_nil ((sublist_selection entries requests).subset hc))

theorem mem_fixtures_selection {entries : List (String × FolderTree Unit)} {requests : List String}
    (hne : requests ≠ []) {l : Location} :
    l ∈ (selection entries requests).flatMap Category.fixtures ↔
      l ∈ fixturesIn [] entries ∧ ∃ r ∈ requests, Within (requested r) l.category := by
  rw [List.mem_flatMap]
  constructor
  · rintro ⟨c, hc, hl⟩
    obtain ⟨hcategories, hrequest⟩ := (mem_selection hne).mp hc
    obtain ⟨hfound, hcategory⟩ := (mem_fixtures_iff hcategories).mp hl
    exact ⟨hfound, hcategory ▸ hrequest⟩
  · rintro ⟨hfound, hrequest⟩
    obtain ⟨c, hc, hcategory⟩ := exists_category hfound
    rw [hcategory] at hrequest
    exact ⟨c, (mem_selection hne).mpr ⟨hc, hrequest⟩,
      (mem_fixtures_iff hc).mpr ⟨hfound, hcategory⟩⟩

theorem nodup_fixtures_selection {entries : List (String × FolderTree Unit)}
    (hnodup : (fixturesIn [] entries).Nodup) (requests : List String) :
    ((selection entries requests).flatMap Category.fixtures).Nodup := by
  have hsub := sublist_selection entries requests
  have hcategory : ∀ c ∈ selection entries requests, ∀ l ∈ c.fixtures, l.category = c.name :=
    fun c hc l hl => ((mem_fixtures_iff (hsub.subset hc)).mp hl).2
  refine List.nodup_flatMap.mpr ⟨fun c hc => ?_, ?_⟩
  · rw [(mem_categories.mp (hsub.subset hc)).2]
    exact (List.mergeSort_perm _ Location.le).nodup_iff.mpr (hnodup.filter _)
  · -- a fixture has one category
    refine List.Pairwise.imp_of_mem (fun {c c'} hc hc' hlt l hl hl' => hlt.ne ?_)
      ((pairwise_categories _).sublist hsub)
    rw [← hcategory c hc l hl, hcategory c' hc' l hl']

/-- **Requests select each fixture in their categories once.** -/
theorem isSelection {α : Type} {entries : List (String × FolderTree α)} {requests : List String}
    (hdistinct : (folder entries).Distinct) (hne : requests ≠ []) :
    IsSelection entries requests (selection (entryNames entries) requests) := by
  have hnames : (folder (entryNames entries)).Distinct := hdistinct.names
  have hnodup := nodup_fixturesIn [] _ hnames
  have hsub := sublist_selection (entryNames entries) requests
  refine ⟨fun l => ?_, nodup_fixtures_selection hnodup requests, fun c hc => ⟨?_, fun l hl => ?_⟩,
    (pairwise_categories _).sublist hsub, fun c hc => ?_⟩
  · rw [mem_fixtures_selection hne, mem_fixturesIn [] _ hnames, isFixtureName,
      List.isSuffixOf_iff_suffix, and_comm (a := ending.toList <:+ _), and_assoc]
    simp only [List.nil_append, exists_eq_left']
    exact and_congr_left fun _ => at?_names_eq_file (t := folder entries)
  · exact fixtures_ne_nil (hsub.subset hc)
  · exact ((mem_fixtures_iff (hsub.subset hc)).mp hl).2
  · rw [(mem_categories.mp (hsub.subset hc)).2]
    exact pairwise_mergeSort (hnodup.filter _)

/-- **The same files and the same categories give the same selection**, in whatever order they are
listed and asked for, and however often. -/
theorem selection_congr {entries entries' : List (String × FolderTree Unit)}
    {requests requests' : List String} (hentries : Rearranged entries entries')
    (hrequests : ∀ name, name ∈ requests.map requested ↔ name ∈ requests'.map requested) :
    selection entries requests = selection entries' requests' := by
  have hempty : requests.isEmpty = requests'.isEmpty := by
    rw [← List.isEmpty_map (f := requested), ← List.isEmpty_map (f := requested) (l := requests'),
      Bool.eq_iff_iff, List.isEmpty_iff, List.isEmpty_iff, List.eq_nil_iff_forall_not_mem,
      List.eq_nil_iff_forall_not_mem]
    exact forall_congr' fun name => not_congr (hrequests name)
  have hany : ∀ c : Category, requests.any (selects · c) = requests'.any (selects · c) :=
    fun c => by
      rw [Bool.eq_iff_iff, any_selects_iff, any_selects_iff]
      exact exists_congr fun name => and_congr_left fun _ => hrequests name
  rw [selection, selection, categories_perm (perm_fixturesIn hentries []), select, select, hempty]
  simp only [hany]

end SheetMarkup.Fixture
