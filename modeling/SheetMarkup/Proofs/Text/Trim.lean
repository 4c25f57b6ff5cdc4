import Mathlib.Data.List.DropRight
import SheetMarkup.Text.Blank

/-!
# Scans and trimming

A scan stops at the first element that is not of its class. What trimming does around an element
that stays, and which lists it leaves alone.

* `takeWhile_append_stop`, `dropWhile_append_stop`, `findIdx?_append_stop`: a scan up to its first
  stop;
* `mem_of_mem_splitOn`: what is in the pieces of a list;
* `trimWhile_append_cons`: on the two sides of an element that stays, each end is trimmed alone;
* `trimWhile_dropWhile`, `trimWhile_dropEndWhile`, `trimWhile_trimWhile`: trimming takes up what
  was already taken off;
* `exists_around`, `trimWhile_core`, `trimWhile_around`: what stands around the rest is taken off;
* `trimWhile_eq_self`: a list with nothing to take off at its ends stays;
* `trimWhile_map`: trimming and mapping;
* `Unpadded`, `unpadded_iff`: texts without blanks at their ends.
-/

namespace SheetMarkup.Text

variable {α β : Type} {p : α → Bool}

theorem takeWhile_append_stop {xs : List α} (h : ∀ x ∈ xs, p x = true) {y : α} (hy : p y = false)
    (ys : List α) : (xs ++ y :: ys).takeWhile p = xs := by
  rw [List.takeWhile_append_of_pos h, List.takeWhile_cons, hy]
  simp

theorem dropWhile_append_stop {xs : List α} (h : ∀ x ∈ xs, p x = true) {y : α} (hy : p y = false)
    (ys : List α) : (xs ++ y :: ys).dropWhile p = y :: ys := by
  rw [List.dropWhile_append_of_pos h, List.dropWhile_cons, hy]
  rfl

theorem findIdx?_append_stop {xs : List α} (h : ∀ x ∈ xs, p x = true) {y : α} (hy : p y = false)
    (ys : List α) : (xs ++ y :: ys).findIdx? (fun x => !p x) = some xs.length := by
  have hnone : xs.findIdx? (fun x => !p x) = none :=
    List.findIdx?_eq_none_iff.mpr fun x hx => by rw [h x hx]; rfl
  rw [List.findIdx?_append, hnone, Option.none_or, List.findIdx?_cons, hy]
  simp

theorem mem_of_mem_splitOn [BEq α] [LawfulBEq α] {sep x : α} {piece xs : List α}
    (h : piece ∈ xs.splitOn sep) (hx : x ∈ piece) : x ∈ xs ∧ x ≠ sep := by
  induction xs generalizing piece with
  | nil =>
    rw [List.splitOn_nil, List.mem_singleton] at h
    rw [h] at hx
    cases hx
  | cons y xs ih =>
    rw [List.splitOn_cons_eq_if_modifyHead] at h
    split_ifs at h with hy
    · rcases List.mem_cons.mp h with rfl | h
      · cases hx
      · exact ⟨List.mem_cons_of_mem y (ih h hx).1, (ih h hx).2⟩
    · -- the element joins the first piece
      obtain ⟨first, pieces, hp⟩ := List.exists_cons_of_ne_nil (List.splitOn_ne_nil sep xs)
      rw [hp, List.modifyHead_cons] at h
      have hin : ∀ p ∈ first :: pieces, x ∈ p → x ∈ y :: xs ∧ x ≠ sep := by
        intro p hpiece hxp
        obtain ⟨hmem, hne⟩ := ih (hp ▸ hpiece) hxp
        exact ⟨List.mem_cons_of_mem y hmem, hne⟩
      rcases List.mem_cons.mp h with rfl | h
      · rcases List.mem_cons.mp hx with rfl | hx
        · exact ⟨List.mem_cons_self, by simpa using hy⟩
        · exact hin first List.mem_cons_self hx
      · exact hin piece (List.mem_cons_of_mem first h) hx

theorem trimWhile_eq_rdropWhile (xs : List α) :
    trimWhile p xs = (xs.dropWhile p).rdropWhile p := rfl

theorem trimWhile_sublist (xs : List α) : (trimWhile p xs).Sublist xs :=
  (List.rdropWhile_prefix p (xs.dropWhile p)).sublist.trans (List.dropWhile_sublist p)

theorem dropWhile_append_cons {x : α} (hx : p x = false) (xs ys : List α) :
    (xs ++ x :: ys).dropWhile p = xs.dropWhile p ++ x :: ys := by
  induction xs with
  | nil => rw [List.nil_append, List.dropWhile_nil, List.nil_append, List.dropWhile_cons, hx]; rfl
  | cons y xs ih =>
    rw [List.cons_append, List.dropWhile_cons, List.dropWhile_cons]
    split_ifs
    · exact ih
    · rfl

theorem dropEndWhile_append_cons {x : α} (hx : p x = false) (xs ys : List α) :
    dropEndWhile p (xs ++ x :: ys) = xs ++ x :: dropEndWhile p ys := by
  have h : (xs ++ x :: ys).reverse = ys.reverse ++ x :: xs.reverse := by simp
  rw [dropEndWhile, h, dropWhile_append_cons hx, List.reverse_append, List.reverse_cons,
    List.reverse_reverse, List.append_assoc]
  rfl

/-- **Around an element that stays, each end is trimmed alone.** -/
theorem trimWhile_append_cons {x : α} (hx : p x = false) (xs ys : List α) :
    trimWhile p (xs ++ x :: ys) = xs.dropWhile p ++ x :: dropEndWhile p ys := by
  rw [trimWhile, dropWhile_append_cons hx, dropEndWhile_append_cons hx]

theorem trimWhile_dropWhile (xs : List α) : trimWhile p (xs.dropWhile p) = trimWhile p xs := by
  rw [trimWhile, List.dropWhile_idempotent, trimWhile]

theorem forall_or_exists_split (p : α → Bool) (xs : List α) :
    (∀ x ∈ xs, p x = true) ∨ ∃ ys x zs, xs = ys ++ x :: zs ∧ p x = false := by
  by_cases h : ∀ x ∈ xs, p x = true
  · exact Or.inl h
  · push Not at h
    obtain ⟨x, hx, hp⟩ := h
    obtain ⟨ys, zs, rfl⟩ := List.append_of_mem hx
    exact Or.inr ⟨ys, x, zs, rfl, by simpa using hp⟩

theorem trimWhile_dropEndWhile (xs : List α) :
    trimWhile p (dropEndWhile p xs) = trimWhile p xs := by
  rcases forall_or_exists_split p xs with h | ⟨ys, x, zs, rfl, hx⟩
  · have h' : dropEndWhile p xs = [] := List.rdropWhile_eq_nil_iff.mpr h
    rw [h', (trimWhile_eq_nil_iff p xs).mpr h]
    rfl
  · rw [dropEndWhile_append_cons hx, trimWhile_append_cons hx, trimWhile_append_cons hx]
    congr 2
    exact List.rdropWhile_idempotent p zs

theorem trimWhile_trimWhile (xs : List α) : trimWhile p (trimWhile p xs) = trimWhile p xs := by
  nth_rewrite 2 [trimWhile]
  rw [trimWhile_dropEndWhile, trimWhile_dropWhile]

theorem trimWhile_eq_self {xs : List α} (hd : ∀ x ∈ xs.head?, p x = false)
    (tl : ∀ x ∈ xs.getLast?, p x = false) : trimWhile p xs = xs := by
  cases xs with
  | nil => rfl
  | cons x xs =>
    have hx : (x :: xs).dropWhile p = x :: xs := by
      rw [List.dropWhile_cons, hd x rfl]; rfl
    rw [trimWhile_eq_rdropWhile, hx]
    refine List.rdropWhile_eq_self_iff.mpr fun hl => ?_
    rw [tl _ (List.getLast?_eq_some_getLast hl)]
    exact Bool.false_ne_true

theorem exists_around (p : α → Bool) (xs : List α) : ∃ before after,
    xs = before ++ trimWhile p xs ++ after ∧ ∀ x ∈ before ++ after, p x = true := by
  refine ⟨xs.takeWhile p, (xs.dropWhile p).rtakeWhile p, ?_, ?_⟩
  · rw [trimWhile_eq_rdropWhile, List.append_assoc, List.rdropWhile_append_rtakeWhile,
      List.takeWhile_append_dropWhile]
  · rw [List.forall_mem_append]
    exact ⟨fun x => List.mem_takeWhile_imp, fun x => List.mem_rtakeWhile_imp⟩

/-- **Trimming takes off what stands around a part whose ends stay.** -/
theorem trimWhile_core {before xs after : List α} (hd : ∃ x ∈ xs.head?, p x = false)
    (tl : ∃ x ∈ xs.getLast?, p x = false) (hout : ∀ x ∈ before ++ after, p x = true) :
    trimWhile p (before ++ xs ++ after) = xs := by
  rw [List.forall_mem_append] at hout
  have hfront : (before ++ xs ++ after).dropWhile p = xs ++ after := by
    obtain ⟨x, hx, hp⟩ := hd
    obtain ⟨ys, rfl⟩ := List.head?_eq_some_iff.mp hx
    rw [List.append_assoc]
    exact dropWhile_append_stop hout.1 hp (ys ++ after)
  have hend : dropEndWhile p (xs ++ after) = xs := by
    obtain ⟨x, hx, hp⟩ := tl
    obtain ⟨ys, rfl⟩ := List.getLast?_eq_some_iff.mp hx
    have hafter : dropEndWhile p after = [] := List.rdropWhile_eq_nil_iff.mpr hout.2
    rw [List.append_assoc, List.singleton_append, dropEndWhile_append_cons hp, hafter]
  rw [trimWhile, hfront, hend]

theorem trimWhile_around {before xs after : List α} (hne : xs ≠ []) (hin : ∀ x ∈ xs, p x = false)
    (hout : ∀ x ∈ before ++ after, p x = true) : trimWhile p (before ++ xs ++ after) = xs :=
  trimWhile_core ⟨xs.head hne, List.head?_eq_some_head hne, hin _ (List.head_mem hne)⟩
    ⟨xs.getLast hne, List.getLast?_eq_some_getLast hne, hin _ (List.getLast_mem hne)⟩ hout

theorem head?_trimWhile {xs : List α} {x : α} (h : x ∈ (trimWhile p xs).head?) : p x = false := by
  rcases forall_or_exists_split p xs with hp | ⟨ys, y, zs, rfl, hy⟩
  · rw [(trimWhile_eq_nil_iff p xs).mpr hp] at h
    cases h
  · rw [trimWhile_append_cons hy] at h
    cases hd : ys.dropWhile p with
    | nil =>
      rw [hd] at h
      cases h
      exact hy
    | cons z ws =>
      rw [hd] at h
      cases h
      have := List.head?_dropWhile_not p ys
      rw [hd] at this
      simpa using this

theorem getLast?_trimWhile {xs : List α} {x : α} (h : x ∈ (trimWhile p xs).getLast?) :
    p x = false := by
  have hne : trimWhile p xs ≠ [] := by
    rintro e
    rw [e] at h
    cases h
  rw [List.getLast?_eq_some_getLast hne] at h
  cases h
  exact Bool.eq_false_iff.mpr (List.rdropWhile_last_not p _ hne)

theorem trimWhile_map (f : α → β) (q : β → Bool) (xs : List α) :
    trimWhile q (xs.map f) = (trimWhile (fun x => q (f x)) xs).map f := by
  have h : ∀ ys : List α, (ys.map f).dropWhile q = (ys.dropWhile fun x => q (f x)).map f := by
    intro ys
    rw [List.dropWhile_map]
    rfl
  rw [trimWhile, trimWhile, dropEndWhile, dropEndWhile, h, ← List.map_reverse, h,
    ← List.map_reverse]

/-! ## Texts -/

@[simp] theorem trimChars_trimChars (cs : List Char) : trimChars (trimChars cs) = trimChars cs :=
  trimWhile_trimWhile cs

@[simp] theorem trim_trim (s : String) : trim (trim s) = trim s := by
  rw [trim, trim_toList, trimChars_trimChars, trim]

/-- No blank stands at either end of the text. -/
def Unpadded (s : String) : Prop :=
  ∀ c, s.toList.head? = some c ∨ s.toList.getLast? = some c → isBlank c = false

theorem unpadded_trim (s : String) : Unpadded (trim s) := by
  intro c hc
  rw [trim_toList] at hc
  rcases hc with hc | hc
  · exact head?_trimWhile hc
  · exact getLast?_trimWhile hc

/-- **The texts without blanks at their ends are those that trimming leaves alone.** -/
theorem unpadded_iff {s : String} : Unpadded s ↔ trim s = s := by
  constructor
  · intro h
    have hchars : trimChars s.toList = s.toList :=
      trimWhile_eq_self (fun c hc => h c (.inl hc)) (fun c hc => h c (.inr hc))
    rw [trim, hchars, String.ofList_toList]
  · intro h
    rw [← h]
    exact unpadded_trim s

end SheetMarkup.Text
