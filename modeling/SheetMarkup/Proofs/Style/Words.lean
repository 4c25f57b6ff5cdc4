import Mathlib.Data.List.Induction
import SheetMarkup.Proofs.Style.Descriptor
import SheetMarkup.Proofs.Text.Ascii

/-!
# Identifiers as words

An identifier is made of the words of a name: its longest runs of ASCII letters and digits. Each of
them starts with a capital there and goes on in small letters, and nothing stands between them. So
the identifier of an identifier, which is one word, keeps only its first capital.

* `IsRun`, `words`, **`words_eq_append_cons_iff`**: the words of a text, each with the words before
  it and after it;
* `titled`, **`identifierFrom_eq_words`**: an identifier is its words in title case;
* `toIdentifier_toIdentifier_iff_capitals`, **`toIdentifier_toIdentifier_iff`**: the names whose
  identifier is its own identifier.
-/

namespace SheetMarkup

/-! ## Words -/

/-- The characters are a longest run of ASCII letters and digits between those before and after. -/
structure IsRun (before run after : List Char) : Prop where
  ne_nil : run ≠ []
  alphanum : ∀ c ∈ run, c.isAlphanum = true
  before : ∀ c ∈ before.getLast?, c.isAlphanum = false
  after : ∀ c ∈ after.head?, c.isAlphanum = false

/-- The texts between the characters that are no ASCII letters or digits, without the empty ones. -/
def words (cs : List Char) : List (List Char) :=
  (cs.splitOnP fun c => !c.isAlphanum).filter fun w => !w.isEmpty

theorem words_append_cons {sep : Char} (h : sep.isAlphanum = false) (cs ds : List Char) :
    words (cs ++ sep :: ds) = words cs ++ words ds := by
  rw [words, List.splitOnP_append_cons cs ds (by rw [h]; rfl), List.filter_append]
  rfl

theorem words_of_alphanum {run : List Char} (hne : run ≠ [])
    (h : ∀ c ∈ run, c.isAlphanum = true) : words run = [run] := by
  have hwhole : (run.splitOnP fun c => !c.isAlphanum) = [run] :=
    List.splitOnP_eq_singleton fun c hc => by rw [h c hc]; rfl
  rw [words, hwhole, List.filter_singleton, List.isEmpty_eq_false_iff.mpr hne]
  rfl

theorem words_cons {sep : Char} (h : sep.isAlphanum = false) (cs : List Char) :
    words (sep :: cs) = words cs :=
  words_append_cons h [] cs

theorem words_eq_nil {gap : List Char} (h : ∀ c ∈ gap, c.isAlphanum = false) : words gap = [] := by
  induction gap with
  | nil => rfl
  | cons c gap ih =>
    rw [List.forall_mem_cons] at h
    rw [words_cons h.1, ih h.2]

/-- **A run is a word between the words before and after it.** -/
theorem IsRun.words_eq {before run after : List Char} (h : IsRun before run after) :
    words (before ++ (run ++ after)) = words before ++ run :: words after := by
  have hback : words (run ++ after) = run :: words after := by
    cases after with
    | nil =>
      rw [List.append_nil, words_of_alphanum h.ne_nil h.alphanum]
      rfl
    | cons sep after =>
      rw [words_append_cons (h.after sep rfl), words_of_alphanum h.ne_nil h.alphanum,
        words_cons (h.after sep rfl)]
      rfl
  induction before using List.reverseRecOn with
  | nil => exact hback
  | append_singleton front sep _ =>
    have hsep : sep.isAlphanum = false := h.before sep List.getLast?_concat
    rw [List.append_assoc, List.singleton_append, words_append_cons hsep, hback,
      words_append_cons hsep]
    exact congrArg (· ++ _) (List.append_nil _).symm

theorem exists_first_run {cs : List Char} (h : ∃ c ∈ cs, c.isAlphanum = true) :
    ∃ gap run rest, cs = gap ++ (run ++ rest) ∧ (∀ c ∈ gap, c.isAlphanum = false) ∧
      IsRun gap run rest := by
  have hgap : ∀ c ∈ cs.takeWhile (fun c => !c.isAlphanum), c.isAlphanum = false := fun c hc => by
    simpa using List.mem_takeWhile_imp hc
  have hrest : cs.dropWhile (fun c => !c.isAlphanum) ≠ [] := by
    rw [ne_eq, List.dropWhile_eq_nil_iff]
    intro hall
    obtain ⟨c, hc, halphanum⟩ := h
    simpa [halphanum] using hall c hc
  obtain ⟨c, rest, hcut⟩ := List.exists_cons_of_ne_nil hrest
  have hc : c.isAlphanum = true := by
    simpa [hcut] using List.head?_dropWhile_not (fun c : Char => !c.isAlphanum) cs
  refine ⟨_, (c :: rest).takeWhile Char.isAlphanum, (c :: rest).dropWhile Char.isAlphanum, ?_, hgap,
    ?_, fun d hd => List.mem_takeWhile_imp hd, fun d hd => hgap d (List.mem_of_getLast? hd), ?_⟩
  · rw [List.takeWhile_append_dropWhile, ← hcut, List.takeWhile_append_dropWhile]
  · rw [List.takeWhile_cons, if_pos hc]
    exact List.cons_ne_nil _ _
  · intro d hd
    have hstop := List.head?_dropWhile_not Char.isAlphanum (c :: rest)
    rw [Option.mem_def.mp hd] at hstop
    simpa using hstop

theorem words_ne_nil_iff {cs : List Char} : words cs ≠ [] ↔ ∃ c ∈ cs, c.isAlphanum = true := by
  constructor
  · intro h
    by_contra hnone
    push Not at hnone
    exact h (words_eq_nil fun c hc => Bool.eq_false_iff.mpr (hnone c hc))
  · intro h
    obtain ⟨gap, run, rest, rfl, -, hrun⟩ := exists_first_run h
    rw [hrun.words_eq]
    exact List.append_ne_nil_of_right_ne_nil _ (List.cons_ne_nil _ _)

theorem exists_of_words_cons {cs first : List Char} {others : List (List Char)}
    (h : words cs = first :: others) : ∃ gap rest, cs = gap ++ (first ++ rest) ∧ words gap = [] ∧
      IsRun gap first rest ∧ words rest = others := by
  have hne : words cs ≠ [] := by
    rw [h]
    exact List.cons_ne_nil _ _
  obtain ⟨gap, run, rest, rfl, hgap, hrun⟩ := exists_first_run (words_ne_nil_iff.mp hne)
  rw [hrun.words_eq, words_eq_nil hgap] at h
  obtain ⟨rfl, rfl⟩ := List.cons.inj h
  exact ⟨gap, rest, rfl, words_eq_nil hgap, hrun, rfl⟩

/-- **The words of a text are its longest runs in order.** -/
theorem words_eq_append_cons_iff {cs run : List Char} {front back : List (List Char)} :
    words cs = front ++ run :: back ↔ ∃ before after, cs = before ++ (run ++ after) ∧
      IsRun before run after ∧ words before = front ∧ words after = back := by
  constructor
  · intro h
    induction front generalizing cs with
    | nil =>
      obtain ⟨gap, rest, rfl, hgap, hrun, hback⟩ := exists_of_words_cons h
      exact ⟨gap, rest, rfl, hrun, hgap, hback⟩
    | cons first front ih =>
      obtain ⟨gap, rest, rfl, hgap, hfirst, hrest⟩ := exists_of_words_cons h
      obtain ⟨before, after, rfl, hrun, rfl, hback⟩ := ih hrest
      cases before with
      | nil =>
        -- the run cannot start right behind the first word, which would go on then
        obtain ⟨c, run, rfl⟩ := List.exists_cons_of_ne_nil hrun.ne_nil
        have hstop := hfirst.after c rfl
        rw [hrun.alphanum c List.mem_cons_self] at hstop
        cases hstop
      | cons sep between =>
        have hsame : IsRun gap first (sep :: between) := { hfirst with after := hfirst.after }
        refine ⟨gap ++ (first ++ sep :: between), after, by simp, ?_, ?_, hback⟩
        · exact { hrun with before := by simpa [List.getLast?_append] using hrun.before }
        · rw [hsame.words_eq, hgap]
          rfl
  · rintro ⟨before, after, rfl, hrun, rfl, rfl⟩
    exact hrun.words_eq

/-- The words but the first are the runs with a letter or a digit before them. -/
theorem mem_tail_words_iff {cs run : List Char} : run ∈ (words cs).tail ↔
    ∃ before after, cs = before ++ (run ++ after) ∧ IsRun before run after ∧
      ∃ c ∈ before, c.isAlphanum = true := by
  constructor
  · intro h
    obtain ⟨front, back, hsplit⟩ := List.append_of_mem h
    obtain ⟨first, hwords⟩ : ∃ first, words cs = (first :: front) ++ run :: back := by
      cases hwords : words cs with
      | nil =>
        rw [hwords] at h
        cases h
      | cons first others =>
        rw [hwords, List.tail_cons] at hsplit
        exact ⟨first, by rw [hsplit]; rfl⟩
    obtain ⟨before, after, hcs, hrun, hbefore, -⟩ := words_eq_append_cons_iff.mp hwords
    refine ⟨before, after, hcs, hrun, words_ne_nil_iff.mp ?_⟩
    rw [hbefore]
    exact List.cons_ne_nil _ _
  · rintro ⟨before, after, rfl, hrun, hbefore⟩
    rw [hrun.words_eq, List.tail_append_of_ne_nil (words_ne_nil_iff.mpr hbefore)]
    exact List.mem_append_right _ List.mem_cons_self

/-! ## Identifiers -/

/-- The first letter as a capital, all others small. -/
def titled : List Char → List Char
  | [] => []
  | c :: cs => Text.asciiUpper c :: cs.map Text.asciiLower

theorem identifierFrom_gap {gap : List Char} (h : ∀ c ∈ gap, c.isAlphanum = false)
    (cs : List Char) : identifierFrom false (gap ++ cs) = identifierFrom false cs := by
  induction gap with
  | nil => rfl
  | cons c gap ih =>
    rw [List.forall_mem_cons] at h
    rw [List.cons_append, identifierFrom, if_neg (by simp [Text.isAsciiAlphanumeric_iff, h.1]),
      ih h.2]

theorem identifierFrom_inside {run rest : List Char} (h : ∀ c ∈ run, c.isAlphanum = true)
    (hstop : ∀ c ∈ rest.head?, c.isAlphanum = false) : identifierFrom true (run ++ rest) =
      run.map Text.asciiLower ++ identifierFrom false rest := by
  induction run with
  | nil =>
    cases rest with
    | nil => rfl
    | cons sep rest =>
      have hsep : ¬ Text.isAsciiAlphanumeric sep = true := by
        simp [Text.isAsciiAlphanumeric_iff, hstop sep rfl]
      change identifierFrom true (sep :: rest) = identifierFrom false (sep :: rest)
      rw [identifierFrom, identifierFrom, if_neg hsep, if_neg hsep]
  | cons c run ih =>
    rw [List.forall_mem_cons] at h
    rw [List.cons_append, identifierFrom, if_pos (Text.isAsciiAlphanumeric_iff.mpr h.1), ih h.2]
    rfl

theorem IsRun.identifierFrom_eq {before run after : List Char} (h : IsRun before run after) :
    identifierFrom false (run ++ after) = titled run ++ identifierFrom false after := by
  obtain ⟨c, run, rfl⟩ := List.exists_cons_of_ne_nil h.ne_nil
  obtain ⟨hc, hrun⟩ := List.forall_mem_cons.mp h.alphanum
  rw [List.cons_append, identifierFrom, if_pos (Text.isAsciiAlphanumeric_iff.mpr hc),
    identifierFrom_inside hrun h.after]
  rfl

/-- **An identifier is made of the words in title case.** -/
theorem identifierFrom_eq_words (cs : List Char) :
    identifierFrom false cs = (words cs).flatMap titled := by
  by_cases h : ∃ c ∈ cs, c.isAlphanum = true
  · obtain ⟨gap, run, rest, hcs, hgap, hrun⟩ := exists_first_run h
    have hshorter : rest.length < cs.length := by
      have hlength := List.length_pos_of_ne_nil hrun.ne_nil
      rw [hcs, List.length_append, List.length_append]
      omega
    rw [hcs, identifierFrom_gap hgap, hrun.identifierFrom_eq, hrun.words_eq, words_eq_nil hgap,
      identifierFrom_eq_words rest]
    rfl
  · push Not at h
    have hgap : ∀ c ∈ cs, c.isAlphanum = false := fun c hc => Bool.eq_false_iff.mpr (h c hc)
    have hnone := identifierFrom_gap hgap []
    rw [List.append_nil] at hnone
    rw [hnone, words_eq_nil hgap]
    rfl
termination_by cs.length

theorem toList_toIdentifier (name : String) :
    (toIdentifier name).toList = (words name.toList).flatMap titled := by
  rw [toIdentifier, String.toList_ofList, identifierFrom_eq_words]

theorem ne_nil_of_mem_words {cs w : List Char} (h : w ∈ words cs) : w ≠ [] := by
  simpa using (List.mem_filter.mp h).2

theorem toList_toIdentifier_toIdentifier (name : String) :
    (toIdentifier (toIdentifier name)).toList = titled (toIdentifier name).toList := by
  have halphanum : ∀ c ∈ (toIdentifier name).toList, c.isAlphanum = true := fun c hc =>
    Text.isAsciiAlphanumeric_iff.mp (isAsciiAlphanumeric_of_mem_toIdentifier hc)
  rw [toList_toIdentifier (toIdentifier name)]
  by_cases hne : (toIdentifier name).toList = []
  · rw [hne]
    rfl
  · rw [words_of_alphanum hne halphanum, List.flatMap_singleton]

/-- Title case keeps an identifier that has no capital but the first. -/
theorem titled_toIdentifier_eq_iff (name : String) :
    titled (toIdentifier name).toList = (toIdentifier name).toList ↔
      ∀ c ∈ (toIdentifier name).toList.tail, c.isUpper = false := by
  rw [toList_toIdentifier]
  cases hwords : words name.toList with
  | nil => simp [titled]
  | cons w ws =>
    obtain ⟨c, cs, rfl⟩ := List.exists_cons_of_ne_nil
      (ne_nil_of_mem_words (hwords ▸ List.mem_cons_self))
    rw [List.flatMap_cons, titled, List.cons_append, titled, List.cons.injEq,
      and_iff_right (Text.asciiUpper_asciiUpper c), List.tail_cons]
    nth_rewrite 2 [← List.map_id (_ ++ _)]
    rw [List.map_inj_left]
    exact forall₂_congr fun d _ => Text.asciiLower_eq_self_iff

theorem toIdentifier_toIdentifier_iff_capitals {name : String} :
    toIdentifier (toIdentifier name) = toIdentifier name ↔
      ∀ c ∈ (toIdentifier name).toList.tail, c.isUpper = false := by
  rw [← String.toList_inj, toList_toIdentifier_toIdentifier, titled_toIdentifier_eq_iff]

theorem forall_mem_titled_iff {w : List Char} : (∀ c ∈ titled w, c.isUpper = false) ↔
    ∀ c ∈ w.head?, c.isAlpha = false := by
  cases w with
  | nil => simp [titled]
  | cons c cs =>
    rw [titled, List.forall_mem_cons, List.forall_mem_map,
      and_iff_left fun d _ => Text.isUpper_asciiLower d, Text.isUpper_asciiUpper]
    exact ⟨fun h d hd => Option.some.inj hd ▸ h, fun h => h c rfl⟩

/-- **The identifier of a name is its own identifier exactly where no word of the name but the first
starts with a letter.** -/
theorem toIdentifier_toIdentifier_iff {name : String} :
    toIdentifier (toIdentifier name) = toIdentifier name ↔
      ∀ w ∈ (words name.toList).tail, ∀ c ∈ w.head?, c.isAlpha = false := by
  rw [toIdentifier_toIdentifier_iff_capitals, toList_toIdentifier]
  cases hwords : words name.toList with
  | nil => simp
  | cons w ws =>
    obtain ⟨c, cs, rfl⟩ := List.exists_cons_of_ne_nil
      (ne_nil_of_mem_words (hwords ▸ List.mem_cons_self))
    -- the rest of the first word is in small letters
    rw [List.flatMap_cons, titled, List.cons_append, List.tail_cons, List.tail_cons,
      List.forall_mem_append, List.forall_mem_map,
      and_iff_right fun d _ => Text.isUpper_asciiLower d, List.forall_mem_flatMap]
    exact forall₂_congr fun v _ => forall_mem_titled_iff

end SheetMarkup
