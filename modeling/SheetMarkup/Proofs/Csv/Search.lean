import Mathlib.Data.List.Infix
import SheetMarkup.Proofs.Csv.Plain
import SheetMarkup.Proofs.Text.Slice

/-!
# Where fields are found

The reader looks for the text of each field behind the field that it found last. It takes the first
place where the text stands, and where it stands nowhere the whole record.

* `FirstBehind`, **`find?_eq_some`**, `find?_eq_none`: the first place of a text;
* `cellsFrom_cases`: one field (the step);
* `Cell.PlacedIn`, **`placedIn_cellsFrom`**: every cell has a place in its record, and its text stands
  there;
* `partPlaces`, **`pairwise_partPlaces`**: the places of a record come one behind the other (the run).
-/

namespace SheetMarkup

/-- The cell has a place in a stretch of the source. If its value is not blank, the value stands at that
place, or the place is the whole stretch. -/
def Cell.PlacedIn (source : List Char) (whole : Span) (c : Cell) : Prop :=
  ∃ s text, c.span = some s ∧ Text.StandsAt source text s.start s.stop ∧
    whole.start ≤ s.start ∧ s.stop ≤ whole.stop ∧
      (Text.isBlankText c.value = false → s = whole ∨ c.value = String.ofList text)

end SheetMarkup

namespace SheetMarkup.Csv

open Text (byteLength byteLength_cons byteLength_append StandsAt)

/-! ## The first place of a text -/

/-- Behind `front` the text is met for the first time. -/
def FirstBehind (text front : List Char) : Prop := ¬ text <:+: (front ++ text).dropLast

theorem firstBehind_nil {text : List Char} (hne : text ≠ []) : FirstBehind text [] := by
  intro h
  have hlength := h.length_le
  rw [List.nil_append, List.length_dropLast] at hlength
  have hpos := List.length_pos_of_ne_nil hne
  omega

variable {needle text tail : List Char}

theorem firstBehind_cons {c : Char} {front : List Char} (hne : needle ≠ []) :
    FirstBehind needle (c :: front) ↔
      ¬ needle <+: c :: (front ++ needle) ∧ FirstBehind needle front := by
  have hfull : front ++ needle ≠ [] := by simp [hne]
  have hpos := List.length_pos_of_ne_nil hne
  have hprefix : needle <+: c :: (front ++ needle).dropLast ↔ needle <+: c :: (front ++ needle) := by
    rw [← List.dropLast_cons_of_ne_nil hfull]
    refine ⟨fun h => h.trans (List.dropLast_prefix _), fun h => ?_⟩
    refine List.prefix_of_prefix_length_le h (List.dropLast_prefix _) ?_
    simp only [List.length_dropLast, List.length_cons, List.length_append]
    omega
  rw [FirstBehind, List.cons_append, List.dropLast_cons_of_ne_nil hfull, List.infix_cons_iff, hprefix,
    not_or, FirstBehind]

theorem find?_eq_none (hne : needle ≠ []) (before : Nat) :
    find? needle before text = none ↔ ¬ needle <:+: text := by
  induction text generalizing before with
  | nil => simp [find?, hne]
  | cons c cs ih =>
    rw [find?, List.infix_cons_iff, ← List.isPrefixOf_iff_prefix]
    split_ifs with hp
    · simp [hp]
    · rw [ih]
      simp [hp]

/-- **A text is found where it stands for the first time.** -/
theorem find?_eq_some (hne : needle ≠ []) {before start : Nat} :
    find? needle before text = some (start, tail) ↔ ∃ front, text = front ++ (needle ++ tail) ∧
      FirstBehind needle front ∧ start = before + byteLength front := by
  induction text generalizing before with
  | nil => simp [find?, hne]
  | cons c cs ih =>
    rw [find?]
    split_ifs with hp
    · -- the text stands here, so it is met nowhere else for the first time
      obtain ⟨rest, hrest⟩ := List.isPrefixOf_iff_prefix.mp hp
      rw [← hrest, List.drop_left, Option.some.injEq, Prod.mk.injEq]
      constructor
      · rintro ⟨rfl, rfl⟩
        exact ⟨[], rfl, firstBehind_nil hne, rfl⟩
      · rintro ⟨front, htext, hfirst, hstart⟩
        cases front with
        | nil =>
          rw [List.nil_append, List.append_cancel_left_eq] at htext
          exact ⟨hstart.symm, htext⟩
        | cons d front =>
          refine absurd ?_ ((firstBehind_cons hne).mp hfirst).1
          refine List.prefix_of_prefix_length_le ⟨rest, rfl⟩ ?_
            (?_ : _ ≤ (d :: (front ++ needle)).length)
          · exact ⟨tail, by rw [htext]; simp⟩
          · simp only [List.length_cons, List.length_append]
            omega
    · rw [ih]
      constructor
      · rintro ⟨front, rfl, hfirst, hstart⟩
        refine ⟨c :: front, rfl, (firstBehind_cons hne).mpr ⟨fun h => hp ?_, hfirst⟩, ?_⟩
        · refine List.isPrefixOf_iff_prefix.mpr (h.trans ?_)
          exact ⟨tail, by simp⟩
        · rw [hstart, byteLength_cons, Nat.add_assoc]
      · rintro ⟨front, htext, hfirst, hstart⟩
        cases front with
        | nil =>
          refine absurd (List.isPrefixOf_iff_prefix.mpr ?_) hp
          exact ⟨tail, htext.symm⟩
        | cons d front =>
          obtain ⟨rfl, rfl⟩ := List.cons.inj htext
          refine ⟨front, rfl, ((firstBehind_cons hne).mp hfirst).2, ?_⟩
          rw [hstart, byteLength_cons, Nat.add_assoc]

/-! ## Cells -/

variable (whole : Span) (cursor : Nat)

/-- **Where a field is found.** A field without a text, or whose text stands nowhere behind the cursor,
has the whole record as its place and leaves the cursor where it is. -/
theorem cellsFrom_cases (text field : List Char) (fields : List (List Char)) :
    ((field = [] ∨ ¬ field <:+: text) ∧ cellsFrom whole cursor text (field :: fields) =
      (cellOf field).withSpan whole :: cellsFrom whole cursor text fields) ∨
    (field ≠ [] ∧ ∃ front tail, text = front ++ (field ++ tail) ∧ FirstBehind field front ∧
      cellsFrom whole cursor text (field :: fields) =
        (cellOf field).withSpan ⟨cursor + byteLength front, cursor + byteLength (front ++ field)⟩ ::
          cellsFrom whole (cursor + byteLength (front ++ field)) tail fields) := by
  by_cases hne : field = []
  · subst hne
    exact .inl ⟨.inl rfl, cellsFrom_empty text cursor whole fields⟩
  cases hfind : find? field cursor text with
  | none =>
    refine .inl ⟨.inr ((find?_eq_none hne cursor).mp hfind), ?_⟩
    rw [cellsFrom, hfind]
    rfl
  | some found =>
    obtain ⟨start, tail⟩ := found
    obtain ⟨front, htext, hfirst, rfl⟩ := (find?_eq_some hne).mp hfind
    refine .inr ⟨hne, front, tail, htext, hfirst, ?_⟩
    rw [cellsFrom_found hne hfind, byteLength_append, Nat.add_assoc]

/-- The places of cells that are less than the whole record. -/
def partPlaces (cells : List Cell) : List Span := (cells.filterMap Cell.span).filter (· ≠ whole)

theorem partPlaces_cons_whole (c : Cell) (cells : List Cell) :
    partPlaces whole (c.withSpan whole :: cells) = partPlaces whole cells := by
  simp [partPlaces, Cell.withSpan]

theorem partPlaces_cons (c : Cell) (s : Span) (cells : List Cell) :
    partPlaces whole (c.withSpan s :: cells) = partPlaces whole cells ∨
      partPlaces whole (c.withSpan s :: cells) = s :: partPlaces whole cells := by
  by_cases hs : s = whole
  · subst hs
    exact .inl (partPlaces_cons_whole s c cells)
  · exact .inr (by simp [partPlaces, Cell.withSpan, hs])

theorem le_of_mem_partPlaces (text : List Char) (fields : List (List Char)) :
    ∀ s ∈ partPlaces whole (cellsFrom whole cursor text fields), cursor ≤ s.start := by
  induction fields generalizing cursor text with
  | nil => simp [partPlaces, cellsFrom]
  | cons field fields ih =>
    intro s hs
    rcases cellsFrom_cases whole cursor text field fields with
      ⟨-, hcells⟩ | ⟨-, front, tail, -, -, hcells⟩
    · rw [hcells, partPlaces_cons_whole] at hs
      exact ih cursor text s hs
    · rw [hcells] at hs
      have hrest : ∀ s ∈ partPlaces whole
          (cellsFrom whole (cursor + byteLength (front ++ field)) tail fields), cursor ≤ s.start :=
        fun s hs => (Nat.le_add_right _ _).trans (ih _ _ s hs)
      rcases partPlaces_cons whole (cellOf field)
        ⟨cursor + byteLength front, cursor + byteLength (front ++ field)⟩ _ with h | h
      · exact hrest s (h ▸ hs)
      · rw [h, List.mem_cons] at hs
        rcases hs with rfl | hs
        · exact Nat.le_add_right _ _
        · exact hrest s hs

/-- **The places in a record come one behind the other.** -/
theorem pairwise_partPlaces (text : List Char) (fields : List (List Char)) :
    (partPlaces whole (cellsFrom whole cursor text fields)).Pairwise
      fun s t => s.start < s.stop ∧ s.stop ≤ t.start := by
  induction fields generalizing cursor text with
  | nil => simp [partPlaces, cellsFrom]
  | cons field fields ih =>
    rcases cellsFrom_cases whole cursor text field fields with
      ⟨-, hcells⟩ | ⟨hne, front, tail, -, -, hcells⟩
    · rw [hcells, partPlaces_cons_whole]
      exact ih cursor text
    · rw [hcells]
      rcases partPlaces_cons whole (cellOf field)
        ⟨cursor + byteLength front, cursor + byteLength (front ++ field)⟩ _ with h | h
      · rw [h]
        exact ih _ _
      · obtain ⟨c, cs, rfl⟩ := List.exists_cons_of_ne_nil hne
        have hpos := c.utf8Size_pos
        rw [h, List.pairwise_cons]
        refine ⟨fun t ht => ⟨?_, le_of_mem_partPlaces whole _ _ _ t ht⟩, ih _ _⟩
        simp only [byteLength_append, byteLength_cons]
        omega

variable {whole} {source before behind : List Char}

/-- **Every cell has a place in its record, and its text stands there.** -/
theorem placedIn_cellsFrom (hsource : source = before ++ (text ++ behind))
    (hstart : whole.start ≤ byteLength before) (hstop : whole.stop = byteLength (before ++ text))
    {content : List Char} (hwhole : StandsAt source content whole.start whole.stop)
    (fields : List (List Char)) :
    ∀ c ∈ cellsFrom whole (byteLength before) text fields, c.PlacedIn source whole := by
  induction fields generalizing before text with
  | nil => simp [cellsFrom]
  | cons field fields ih =>
    rcases cellsFrom_cases whole (byteLength before) text field fields with
      ⟨-, hcells⟩ | ⟨-, front, tail, rfl, -, hcells⟩
    · rw [hcells, List.forall_mem_cons]
      refine ⟨?_, ih hsource hstart hstop⟩
      exact ⟨whole, content, rfl, hwhole, Nat.le_refl _, Nat.le_refl _, fun _ => .inl rfl⟩
    · have hstart' : byteLength before + byteLength front = byteLength (before ++ front) :=
        (byteLength_append before front).symm
      have hstop' : byteLength before + byteLength (front ++ field) =
          byteLength (before ++ (front ++ field)) := (byteLength_append before _).symm
      rw [hcells, hstart', hstop', List.forall_mem_cons]
      have hbound : whole.start ≤ byteLength (before ++ front) :=
        hstart.trans (hstart' ▸ Nat.le_add_right _ _)
      have hend : whole.stop = byteLength ((before ++ (front ++ field)) ++ tail) := by
        rw [hstop]
        simp
      constructor
      · refine ⟨_, field, rfl, ⟨before ++ front, tail ++ behind, ?_, rfl, ?_⟩, hbound, ?_, ?_⟩
        · rw [hsource]
          simp
        · rw [List.append_assoc]
        · rw [hend, byteLength_append _ tail]
          exact Nat.le_add_right _ _
        · intro hshown
          have hvalue : ∀ s, ((cellOf field).withSpan s).value = shown (String.ofList field) :=
            fun _ => value_cellOf field
          rw [hvalue, shown] at hshown ⊢
          split_ifs at hshown ⊢ with hblank
          · cases hshown
          · exact .inr rfl
      · refine ih ?_ ?_ hend
        · rw [hsource]
          simp
        · rw [← hstop']
          exact hstart.trans (Nat.le_add_right _ _)

end SheetMarkup.Csv
