import Mathlib.Data.String.Basic
import SheetMarkup.Text.Order

/-!
# Sorted lists

The order of texts is the one by their code points. Adding entries one after the other gives a list
that is sorted by its keys and has lost none of them.

* `precedes_iff`: the order is that of the code points;
* `SortedByKey`, **`sortedByKey_insertSorted`**: adding an entry keeps a list sorted;
* `insertSorted_perm`: an entry with a new key is added to all others;
* **`pairwise_sortedDistinct`**, `mem_sortedDistinct`, `sortedDistinct_congr`: the distinct texts of a
  list depend on what is in it only.
-/

namespace SheetMarkup.Text

theorem precedesChars_iff {cs ds : List Char} : precedesChars cs ds = true ↔ cs < ds := by
  induction cs generalizing ds with
  | nil =>
    cases ds with
    | nil => simp [precedesChars]
    | cons d ds => simp [precedesChars]
  | cons c cs ih =>
    cases ds with
    | nil => simp [precedesChars]
    | cons d ds =>
      rw [precedesChars, Bool.or_eq_true, Bool.and_eq_true, ih, decide_eq_true_eq, beq_iff_eq,
        List.cons_lt_cons_iff]
      rfl

theorem precedes_iff {s t : String} : precedes s t = true ↔ s < t := by
  rw [precedes, precedesChars_iff, String.lt_iff_toList_lt]

variable {α : Type}

/-- The keys rise strictly. -/
def SortedByKey (es : List (String × α)) : Prop := es.Pairwise fun e f => e.1 < f.1

theorem mem_insertSorted {key : String} {value : α} {es : List (String × α)} {e : String × α}
    (h : e ∈ insertSorted key value es) : e = (key, value) ∨ e ∈ es := by
  induction es with
  | nil => exact Or.inl (List.mem_singleton.mp h)
  | cons f es ih =>
    unfold insertSorted at h
    split_ifs at h
    · exact List.mem_cons.mp h
    · exact (List.mem_cons.mp h).imp_right (List.mem_cons_of_mem f)
    · rcases List.mem_cons.mp h with rfl | h
      · exact Or.inr List.mem_cons_self
      · exact (ih h).imp_right (List.mem_cons_of_mem f)

theorem sortedByKey_insertSorted {es : List (String × α)} (h : SortedByKey es) (key : String)
    (value : α) : SortedByKey (insertSorted key value es) := by
  induction es with
  | nil => exact List.pairwise_singleton _ _
  | cons e es ih =>
    obtain ⟨hfirst, hrest⟩ := List.pairwise_cons.mp h
    unfold insertSorted
    split_ifs with hbefore hsame
    · have hlt : key < e.1 := precedes_iff.mp hbefore
      refine List.pairwise_cons.mpr ⟨fun f hf => ?_, h⟩
      rcases List.mem_cons.mp hf with rfl | hf
      · exact hlt
      · exact hlt.trans (hfirst f hf)
    · rw [← beq_iff_eq.mp hsame] at hfirst
      exact List.pairwise_cons.mpr ⟨hfirst, hrest⟩
    · refine List.pairwise_cons.mpr ⟨fun f hf => ?_, ih hrest⟩
      rcases mem_insertSorted hf with rfl | hf
      · have hle : e.1 ≤ key := not_lt.mp fun hlt => hbefore (precedes_iff.mpr hlt)
        exact hle.lt_of_ne fun he => hsame (beq_iff_eq.mpr he.symm)
      · exact hfirst f hf

theorem insertSorted_perm {key : String} {es : List (String × α)} (h : key ∉ es.map Prod.fst)
    (value : α) : (insertSorted key value es).Perm ((key, value) :: es) := by
  induction es with
  | nil => exact List.Perm.refl _
  | cons e es ih =>
    rw [List.map_cons, List.mem_cons, not_or] at h
    unfold insertSorted
    split_ifs with hbefore hsame
    · exact List.Perm.refl _
    · exact absurd (beq_iff_eq.mp hsame) h.1
    · exact ((ih h.2).cons e).trans (List.Perm.swap _ _ _)

theorem mem_keys_insertSorted {key k : String} {value : α} {es : List (String × α)} :
    k ∈ (insertSorted key value es).map Prod.fst ↔ k = key ∨ k ∈ es.map Prod.fst := by
  induction es with
  | nil => simp [insertSorted]
  | cons e es ih =>
    unfold insertSorted
    split_ifs with hbefore hsame
    · rw [List.map_cons, List.mem_cons]
    · rw [List.map_cons, List.map_cons, List.mem_cons, List.mem_cons, ← beq_iff_eq.mp hsame,
        ← or_assoc, or_self]
    · rw [List.map_cons, List.map_cons, List.mem_cons, List.mem_cons, ih, or_left_comm]

/-! ## Distinct texts -/

theorem SortedByKey.foldl_insertSorted {β : Type} (key : β → String) (value : β → α) (xs : List β)
    {es : List (String × α)} (h : SortedByKey es) :
    SortedByKey (xs.foldl (fun es x => insertSorted (key x) (value x) es) es) := by
  induction xs generalizing es with
  | nil => exact h
  | cons x xs ih => exact ih (sortedByKey_insertSorted h (key x) (value x))

/-- **The distinct texts of a list rise strictly.** -/
theorem pairwise_sortedDistinct (texts : List String) :
    (sortedDistinct texts).Pairwise (· < ·) :=
  List.pairwise_map.mpr (SortedByKey.foldl_insertSorted id (fun _ => ()) texts List.Pairwise.nil)

theorem mem_sortedDistinct {texts : List String} {s : String} :
    s ∈ sortedDistinct texts ↔ s ∈ texts := by
  have hfold : ∀ es : List (String × Unit),
      s ∈ (texts.foldl (fun sorted t => insertSorted t () sorted) es).map Prod.fst ↔
        s ∈ texts ∨ s ∈ es.map Prod.fst := by
    induction texts with
    | nil => simp
    | cons t texts ih =>
      intro es
      rw [List.foldl_cons, ih, mem_keys_insertSorted, List.mem_cons, or_left_comm, or_assoc]
  rw [sortedDistinct, hfold, List.map_nil, or_iff_left List.not_mem_nil]

theorem sortedDistinct_congr {texts texts' : List String} (h : ∀ s, s ∈ texts ↔ s ∈ texts') :
    sortedDistinct texts = sortedDistinct texts' := by
  refine List.Perm.eq_of_pairwise ?_ (pairwise_sortedDistinct texts)
    (pairwise_sortedDistinct texts') ?_
  · exact fun a b _ _ hab hba => absurd hba (lt_asymm hab)
  · refine (List.perm_ext_iff_of_nodup ?_ ?_).mpr fun s => ?_
    · exact (pairwise_sortedDistinct texts).imp fun h => h.ne
    · exact (pairwise_sortedDistinct texts').imp fun h => h.ne
    · rw [mem_sortedDistinct, mem_sortedDistinct, h]

end SheetMarkup.Text
