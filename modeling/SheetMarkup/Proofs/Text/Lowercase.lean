import Mathlib.Data.Nat.Bitwise
import SheetMarkup.Proofs.Text.Trim
import SheetMarkup.Text.Lowercase

/-!
# Lower case is stable

Lower-casing a text a second time changes nothing, and it never puts a blank in the place of a
visible character. A character is **settled** when it is its own lower-case form in every context.

* `codeSet`: a set of code points as the bits of one number, so that the table is compared with
  itself in a single step;
* `forms_apart`: no lower-case form of the table is a capital of the table, a sigma or a blank;
* `settled_of_mem_lowerFrom`: all characters of a lower-case text are settled;
* `madeCodes`, `mem_of_mem_lowerFrom`: the characters that lower-casing can put into a text;
* **`lowercase_lowercase`**, **`trim_lowercase_trim`**: lower-casing is idempotent, and the
  lower-case form of a trimmed text is trimmed.
-/

namespace SheetMarkup.Text.Lowercase

/-! ## The table -/

/-- The code points of a set as the bits of a number. -/
def codeSet (codes : List Nat) : Nat := codes.foldr (fun n set => 2 ^ n ||| set) 0

theorem testBit_codeSet (codes : List Nat) (n : Nat) :
    (codeSet codes).testBit n = decide (n ∈ codes) := by
  induction codes with
  | nil => simp [codeSet]
  | cons m codes ih =>
    rw [codeSet, List.foldr_cons, Nat.testBit_or, Nat.testBit_two_pow]
    rw [codeSet] at ih
    rw [ih]
    by_cases h : m = n
    · simp [h]
    · simp [h, Ne.symm h]

theorem not_mem_of_codeSet {as bs : List Nat} (h : codeSet as &&& codeSet bs = 0) {n : Nat}
    (ha : n ∈ as) : n ∉ bs := by
  intro hb
  have hn : (codeSet as &&& codeSet bs).testBit n = true := by
    rw [Nat.testBit_and, testBit_codeSet, testBit_codeSet]
    simp [ha, hb]
  rw [h, Nat.zero_testBit] at hn
  exact Bool.noConfusion hn

namespace CapitalRun

/-- As many code points as the run has, in its steps, from a given one on. -/
def codesFrom (r : CapitalRun) (start : Nat) : List Nat :=
  List.range' start ((r.last - r.first) / r.stride + 1) r.stride

theorem mem_codesFrom {r : CapitalRun} {n : Nat} (h : r.covers n = true) (start : Nat) :
    n - r.first + start ∈ r.codesFrom start := by
  simp only [covers, Bool.and_eq_true, decide_eq_true_eq, beq_iff_eq] at h
  obtain ⟨⟨h1, h2⟩, h3⟩ := h
  refine List.mem_range'.mpr ⟨(n - r.first) / r.stride, ?_, ?_⟩
  · have := Nat.div_le_div_right (c := r.stride) (Nat.sub_le_sub_right h2 r.first)
    omega
  · have := Nat.div_add_mod (n - r.first) r.stride
    omega

end CapitalRun

def forms : List Nat := capitalRuns.flatMap fun r => r.codesFrom r.lower

def capitals : List Nat := capitalRuns.flatMap fun r => r.codesFrom r.first

/-- The code points of blanks. -/
def blankCodes : List Nat :=
  List.range' 9 5 ++ [0x20, 0x85, 0xA0, 0x1680] ++ List.range' 0x2000 11 ++
    [0x2028, 0x2029, 0x202F, 0x205F, 0x3000]

theorem mem_blankCodes {c : Char} (h : isBlank c = true) : c.toNat ∈ blankCodes := by
  simp only [isBlank, Bool.or_eq_true, Bool.and_eq_true, decide_eq_true_eq, beq_iff_eq] at h
  simp only [blankCodes, List.mem_append, List.mem_range'_1, List.mem_cons, List.not_mem_nil]
  omega

theorem forms_apart :
    codeSet forms &&& codeSet (0x3A3 :: 0x130 :: blankCodes ++ capitals) = 0 := by
  decide +kernel

theorem forms_valid : (forms.all fun n => decide n.isValidChar) = true := by
  decide +kernel

theorem mem_capitals {r : CapitalRun} (hr : r ∈ capitalRuns) {n : Nat} (h : r.covers n = true) :
    n ∈ capitals := by
  have hn := CapitalRun.mem_codesFrom h r.first
  have hle : r.first ≤ n := by
    simp only [CapitalRun.covers, Bool.and_eq_true, decide_eq_true_eq] at h
    exact h.1.1
  rw [Nat.sub_add_cancel hle] at hn
  exact List.mem_flatMap.mpr ⟨r, hr, hn⟩

theorem mem_forms {r : CapitalRun} (hr : r ∈ capitalRuns) {n : Nat} (h : r.covers n = true) :
    n - r.first + r.lower ∈ forms :=
  List.mem_flatMap.mpr ⟨r, hr, CapitalRun.mem_codesFrom h r.lower⟩

/-! ## Settled characters -/

/-- The character is its own lower-case form, and not the sigma that the context decides about. -/
def Settled (c : Char) : Prop := lowerChar c = [c] ∧ (c.toNat == 0x3A3) = false

theorem toNat_ofNat {n : Nat} (h : n.isValidChar) : (Char.ofNat n).toNat = n := by
  rw [Char.ofNat, dif_pos h]
  rfl

theorem lowerChar_eq_self {c : Char} (h : c.toNat ∉ 0x130 :: capitals) : lowerChar c = [c] := by
  rw [List.mem_cons, not_or] at h
  have hfind : capitalRuns.find? (·.covers c.toNat) = none :=
    List.find?_eq_none.mpr fun r hr hc => h.2 (mem_capitals hr hc)
  simp only [lowerChar, hfind]
  rw [if_neg (by simpa using h.1)]

/-- The lower-case forms of the table are settled and visible. -/
theorem settled_form {n : Nat} (h : n ∈ forms) :
    Settled (Char.ofNat n) ∧ isBlank (Char.ofNat n) = false := by
  have hv : n.isValidChar := by
    have := List.all_eq_true.mp forms_valid n h
    simpa using this
  have hn := not_mem_of_codeSet forms_apart h
  simp only [List.cons_append, List.mem_cons, List.mem_append, not_or] at hn
  obtain ⟨h1, h2, h3, h4⟩ := hn
  refine ⟨⟨lowerChar_eq_self ?_, ?_⟩, ?_⟩
  · rw [toNat_ofNat hv, List.mem_cons, not_or]
    exact ⟨h2, h4⟩
  · rw [toNat_ofNat hv]
    simpa using h1
  · rw [Bool.eq_false_iff]
    intro hb
    have := mem_blankCodes hb
    rw [toNat_ofNat hv] at this
    exact h3 this

/-- What becomes of a character out of context: the two forms of `İ`, a form of the table, or the
character itself. -/
theorem lowerChar_cases (c : Char) :
    lowerChar c = ['i', '\u0307'] ∨ (∃ n ∈ forms, lowerChar c = [Char.ofNat n]) ∨
      lowerChar c = [c] := by
  simp only [lowerChar]
  split_ifs
  · exact Or.inl rfl
  · cases hf : capitalRuns.find? (·.covers c.toNat) with
    | none => exact Or.inr (Or.inr rfl)
    | some r =>
      have hr := List.find?_some hf
      exact Or.inr (Or.inl ⟨_, mem_forms (List.mem_of_find?_eq_some hf) hr, rfl⟩)

theorem settled_of_mem_lowerChar {c d : Char} (hc : (c.toNat == 0x3A3) = false)
    (hd : d ∈ lowerChar c) : Settled d ∧ (isBlank d = true → isBlank c = true) := by
  rcases lowerChar_cases c with h | ⟨n, hn, h⟩ | h
  · rw [h, List.mem_cons, List.mem_singleton] at hd
    have hi : Settled 'i' ∧ isBlank 'i' = false := ⟨⟨by decide +kernel, by decide⟩, by decide⟩
    have hdot : Settled '\u0307' ∧ isBlank '\u0307' = false :=
      ⟨⟨by decide +kernel, by decide⟩, by decide⟩
    rcases hd with rfl | rfl
    · exact ⟨hi.1, by simp [hi.2]⟩
    · exact ⟨hdot.1, by simp [hdot.2]⟩
  · rw [h, List.mem_singleton] at hd
    subst hd
    obtain ⟨h1, h2⟩ := settled_form hn
    exact ⟨h1, by simp [h2]⟩
  · rw [h, List.mem_singleton] at hd
    subst hd
    exact ⟨⟨h, hc⟩, id⟩

/-! ## Texts -/

/-- What one character becomes between two texts, the first one reversed. -/
def lowerAt (before : List Char) (c : Char) (rest : List Char) : List Char :=
  if c.toNat == 0x3A3 then [if endsWord before rest then 'ς' else 'σ'] else lowerChar c

theorem lowerFrom_cons (before : List Char) (c : Char) (rest : List Char) :
    lowerFrom before (c :: rest) = lowerAt before c rest ++ lowerFrom (c :: before) rest := rfl

theorem lowerAt_ne_nil (before : List Char) (c : Char) (rest : List Char) :
    lowerAt before c rest ≠ [] := by
  unfold lowerAt
  split_ifs
  · simp
  · simp
  · rcases lowerChar_cases c with h | ⟨n, -, h⟩ | h <;> simp [h]

theorem settled_of_mem_lowerAt {before rest : List Char} {c d : Char}
    (h : d ∈ lowerAt before c rest) : Settled d ∧ (isBlank d = true → isBlank c = true) := by
  unfold lowerAt at h
  by_cases hs : (c.toNat == 0x3A3) = true
  · have hσ : Settled 'σ' ∧ isBlank 'σ' = false := ⟨⟨by decide +kernel, by decide⟩, by decide⟩
    have hς : Settled 'ς' ∧ isBlank 'ς' = false := ⟨⟨by decide +kernel, by decide⟩, by decide⟩
    rw [if_pos hs, List.mem_singleton] at h
    subst h
    split_ifs
    · exact ⟨hς.1, by simp [hς.2]⟩
    · exact ⟨hσ.1, by simp [hσ.2]⟩
  · rw [if_neg hs] at h
    exact settled_of_mem_lowerChar (by simpa using hs) h

theorem settled_of_mem_lowerFrom {before cs : List Char} {d : Char}
    (h : d ∈ lowerFrom before cs) : Settled d := by
  induction cs generalizing before with
  | nil => cases h
  | cons c cs ih =>
    rw [lowerFrom_cons, List.mem_append] at h
    rcases h with h | h
    · exact (settled_of_mem_lowerAt h).1
    · exact ih h

/-- The code points that lower-casing makes of other ones: those of the table, of the two forms of
`İ`, and of the two small sigmas. -/
def madeCodes : List Nat := 0x69 :: 0x307 :: 0x3C2 :: 0x3C3 :: forms

theorem eq_of_mem_lowerAt {before rest : List Char} {c d : Char} (hd : d.toNat ∉ madeCodes)
    (h : d ∈ lowerAt before c rest) : d = c := by
  simp only [madeCodes, List.mem_cons, not_or] at hd
  obtain ⟨hi, hdot, hfinal, hsigma, hforms⟩ := hd
  unfold lowerAt at h
  split_ifs at h
  · exact absurd (congrArg Char.toNat (List.mem_singleton.mp h)) hfinal
  · exact absurd (congrArg Char.toNat (List.mem_singleton.mp h)) hsigma
  · rcases lowerChar_cases c with hc | ⟨n, hn, hc⟩ | hc
    · rw [hc, List.mem_cons, List.mem_singleton] at h
      rcases h with rfl | rfl
      · exact absurd rfl hi
      · exact absurd rfl hdot
    · rw [hc, List.mem_singleton] at h
      rw [h, toNat_ofNat (by simpa using List.all_eq_true.mp forms_valid n hn)] at hforms
      exact absurd hn hforms
    · rw [hc] at h
      exact List.mem_singleton.mp h

/-- **Lower-casing puts no other characters into a text than the forms that it makes.** -/
theorem mem_of_mem_lowerFrom {before cs : List Char} {d : Char} (hd : d.toNat ∉ madeCodes)
    (h : d ∈ lowerFrom before cs) : d ∈ cs := by
  induction cs generalizing before with
  | nil => cases h
  | cons c cs ih =>
    rw [lowerFrom_cons, List.mem_append] at h
    rcases h with h | h
    · rw [eq_of_mem_lowerAt hd h]
      exact List.mem_cons_self
    · exact List.mem_cons_of_mem c (ih h)

theorem lowerFrom_eq_self (before : List Char) {cs : List Char} (h : ∀ c ∈ cs, Settled c) :
    lowerFrom before cs = cs := by
  induction cs generalizing before with
  | nil => rfl
  | cons c cs ih =>
    obtain ⟨h1, h2⟩ := h c (by simp)
    rw [lowerFrom_cons, ih _ fun d hd => h d (by simp [hd]), lowerAt, if_neg (by simp [h2]), h1]
    rfl

theorem head?_lowerFrom {before cs : List Char} {d : Char} (h : d ∈ (lowerFrom before cs).head?) :
    ∃ c ∈ cs.head?, isBlank d = true → isBlank c = true := by
  cases cs with
  | nil => cases h
  | cons c cs =>
    rw [lowerFrom_cons, List.head?_append_of_ne_nil _ (lowerAt_ne_nil before c cs)] at h
    exact ⟨c, rfl, (settled_of_mem_lowerAt (List.mem_of_mem_head? h)).2⟩

theorem getLast?_lowerFrom {before cs : List Char} {d : Char}
    (h : d ∈ (lowerFrom before cs).getLast?) :
    ∃ c ∈ cs.getLast?, isBlank d = true → isBlank c = true := by
  induction cs generalizing before with
  | nil => cases h
  | cons c cs ih =>
    cases cs with
    | nil =>
      rw [lowerFrom_cons, lowerFrom, List.append_nil] at h
      exact ⟨c, rfl, (settled_of_mem_lowerAt (List.mem_of_getLast? h)).2⟩
    | cons c' cs =>
      have hne : lowerFrom (c :: before) (c' :: cs) ≠ [] := by
        rw [lowerFrom_cons]
        exact List.append_ne_nil_of_left_ne_nil (lowerAt_ne_nil _ _ _) _
      rw [lowerFrom_cons, List.getLast?_append_of_ne_nil _ hne] at h
      obtain ⟨e, he, hb⟩ := ih h
      exact ⟨e, by rwa [List.getLast?_cons_cons], hb⟩

end SheetMarkup.Text.Lowercase

namespace SheetMarkup.Text

open Lowercase

/-- **Lower-casing a second time changes nothing.** -/
@[simp] theorem lowercase_lowercase (s : String) : lowercase (lowercase s) = lowercase s := by
  unfold lowercase
  rw [String.toList_ofList, lowercaseChars, lowerFrom_eq_self]
  exact fun c hc => settled_of_mem_lowerFrom hc

/-- **The lower-case form of a trimmed text is trimmed.** -/
@[simp] theorem trim_lowercase_trim (s : String) :
    trim (lowercase (trim s)) = lowercase (trim s) := by
  have h : trimChars (lowercaseChars (trimChars s.toList)) =
      lowercaseChars (trimChars s.toList) := by
    refine trimWhile_eq_self (fun d hd => ?_) (fun d hd => ?_)
    · obtain ⟨c, hc, hb⟩ := head?_lowerFrom hd
      have := head?_trimWhile hc
      cases hd' : isBlank d with
      | false => rfl
      | true => rw [hb hd'] at this; exact this
    · obtain ⟨c, hc, hb⟩ := getLast?_lowerFrom hd
      have := getLast?_trimWhile hc
      cases hd' : isBlank d with
      | false => rfl
      | true => rw [hb hd'] at this; exact this
  rw [trim, lowercase, trim_toList, String.toList_ofList, h]

end SheetMarkup.Text
