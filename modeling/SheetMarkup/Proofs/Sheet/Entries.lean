import SheetMarkup.Text.Number

/-!
# Entries at places

A sheet lists what it holds in the order of the places, and leaves places out. Spread out, every place
up to the last one has its value.

* `Entry`, `InOrder`, `Entries`: what is listed, at growing places;
* `Entries.spread`: one value for every place;
* **`Entries.spread_eq`**: the same, put together entry by entry with the gap before each of them.
-/

namespace SheetMarkup

variable {α β : Type}

/-- Something at a place that is counted from zero. The place may be told or left out. -/
structure Entry (α : Type) where
  place : Nat
  told : Bool
  item : α
  fits : place + 1 < Text.bound64

/-- The places grow, from `next` on, and one is left out only where it is the next one. -/
def InOrder : Nat → List (Entry α) → Prop
  | _, [] => True
  | next, e :: es =>
    next ≤ e.place ∧ (e.told = false → e.place = next) ∧ InOrder (e.place + 1) es

/-- Entries in the order of their places. -/
structure Entries (α : Type) where
  list : List (Entry α)
  inOrder : InOrder 0 list

/-- The place after the last one, or `next` where there is none. -/
def placeAfter (next : Nat) (es : List (Entry α)) : Nat :=
  (es.getLast?.map fun e => e.place + 1).getD next

def itemAt? (es : List (Entry α)) (i : Nat) : Option α :=
  (es.find? fun e => e.place == i).map Entry.item

/-- A value for every place up to the last one. -/
def Entries.spread (f : Nat → Option α → β) (es : Entries α) : List β :=
  (List.range (placeAfter 0 es.list)).map fun i => f i (itemAt? es.list i)

/-- The values from `next` on: for every entry those of the gap before it, then its own. -/
def spreadFrom (f : Nat → Option α → β) : Nat → List (Entry α) → List β
  | _, [] => []
  | next, e :: es =>
    (List.range' next (e.place - next)).map (f · none) ++
      f e.place (some e.item) :: spreadFrom f (e.place + 1) es

/-! ## Places -/

theorem placeAfter_cons (next : Nat) (e : Entry α) (es : List (Entry α)) :
    placeAfter next (e :: es) = placeAfter (e.place + 1) es := by
  cases h : es.getLast? <;> simp [placeAfter, List.getLast?_cons, h]

theorem InOrder.le_placeAfter {es : List (Entry α)} {next : Nat} (h : InOrder next es) :
    next ≤ placeAfter next es := by
  induction es generalizing next with
  | nil => exact Nat.le_refl next
  | cons e es ih =>
    have hrest := ih h.2.2
    have hle := h.1
    rw [placeAfter_cons]
    omega

theorem InOrder.le_place {es : List (Entry α)} {next : Nat} (h : InOrder next es) {e : Entry α}
    (he : e ∈ es) : next ≤ e.place := by
  induction es generalizing next with
  | nil => cases he
  | cons a es ih =>
    rcases List.mem_cons.mp he with rfl | he
    · exact h.1
    · have hrest := ih h.2.2 he
      have hle := h.1
      omega

theorem itemAt?_eq_none {es : List (Entry α)} {next i : Nat} (h : InOrder next es) (hi : i < next) :
    itemAt? es i = none := by
  rw [itemAt?, Option.map_eq_none_iff, List.find?_eq_none]
  intro e he
  have hle := h.le_place he
  rw [beq_iff_eq]
  omega

theorem itemAt?_cons (e : Entry α) (es : List (Entry α)) (i : Nat) :
    itemAt? (e :: es) i = if e.place = i then some e.item else itemAt? es i := by
  by_cases h : e.place = i
  · simp [itemAt?, h]
  · simp [itemAt?, h]

/-! ## Values -/

theorem range'_split {next place stop : Nat} (hle : next ≤ place) (hlt : place < stop) :
    List.range' next (stop - next) =
      List.range' next (place - next) ++ place :: List.range' (place + 1) (stop - (place + 1)) := by
  obtain ⟨k, rfl⟩ := Nat.exists_eq_add_of_le hle
  have happend := List.range'_append_1 (s := next) (m := k) (n := stop - (next + k + 1) + 1)
  rw [← List.range'_succ, Nat.add_sub_cancel_left, happend]
  congr 1
  omega

theorem map_range'_eq_spreadFrom {es : List (Entry α)} {next : Nat} (h : InOrder next es)
    (f : Nat → Option α → β) :
    (List.range' next (placeAfter next es - next)).map (fun i => f i (itemAt? es i)) =
      spreadFrom f next es := by
  induction es generalizing next with
  | nil => simp [placeAfter, spreadFrom]
  | cons e es ih =>
    obtain ⟨hle, -, hrest⟩ := h
    have hafter := hrest.le_placeAfter
    have hgap : ∀ i ∈ List.range' next (e.place - next), f i (itemAt? (e :: es) i) = f i none := by
      intro i hi
      have hlt := (List.mem_range'_1.mp hi).2
      rw [itemAt?_cons, if_neg (by omega), itemAt?_eq_none hrest (by omega)]
    have hlater : ∀ i ∈ List.range' (e.place + 1) (placeAfter (e.place + 1) es - (e.place + 1)),
        f i (itemAt? (e :: es) i) = f i (itemAt? es i) := by
      intro i hi
      have hlt := (List.mem_range'_1.mp hi).1
      rw [itemAt?_cons, if_neg (by omega)]
    rw [placeAfter_cons, range'_split hle hafter, List.map_append, List.map_cons,
      List.map_congr_left hgap, List.map_congr_left hlater, ih hrest, itemAt?_cons, if_pos rfl,
      spreadFrom]

/-- **Spread out, entries come one after the other with the gaps before them.** -/
theorem Entries.spread_eq (es : Entries α) (f : Nat → Option α → β) :
    es.spread f = spreadFrom f 0 es.list := by
  rw [← map_range'_eq_spreadFrom es.inOrder f, Nat.sub_zero, ← List.range_eq_range']
  rfl

end SheetMarkup
