import SheetMarkup.Proofs.Xml.Words

/-!
# Words by themselves

What is taken up as one word does not depend on what stands behind it, and so all words before some
place are the same whatever stands behind the place.

* `TakesUp`: what is taken up at the front of a text;
* `until?_takesUp`, `tagEnd?_takesUp`, `typeEnd?_front`: the three ways to find an end;
* `markup?_takesUp`, **`lexeme?_front`**: one word (the step);
* `ReadsUpTo`, **`ReadsUpTo.exists_words`**: all words before a place (the run).
-/

namespace SheetMarkup.Xml

/-- A front of the text is taken up, and it would be before any other rest. -/
def TakesUp {α : Type} (read : List Char → Option (α × List Char)) (cs : List Char) (a : α)
    (rest : List Char) : Prop :=
  ∃ front, front ≠ [] ∧ cs = front ++ rest ∧ ∀ rest', read (front ++ rest') = some (a, rest')

/-! ## Marks -/

variable {mark front rest : List Char}

/-- Whether a mark stands somewhere is seen from as many characters as it has. -/
theorem isPrefixOf_append_of_length (h : mark.length ≤ front.length) (rest : List Char) :
    mark.isPrefixOf (front ++ rest) = mark.isPrefixOf front := by
  rw [Bool.eq_iff_iff, List.isPrefixOf_iff_prefix, List.isPrefixOf_iff_prefix]
  exact ⟨fun hm => List.prefix_of_prefix_length_le hm (List.prefix_append front rest) h,
    fun hm => hm.trans (List.prefix_append front rest)⟩

/-- A mark does not go beyond a character that it does not hold. -/
theorem isPrefixOf_append_stop {y : Char} (h : y ∉ mark) (front rest : List Char) :
    mark.isPrefixOf (front ++ y :: rest) = mark.isPrefixOf front := by
  induction mark generalizing front with
  | nil => rfl
  | cons m mark ih =>
    rw [List.mem_cons, not_or] at h
    cases front with
    | nil =>
      have hm : (m == y) = false := beq_eq_false_iff_ne.mpr (Ne.symm h.1)
      simp [List.isPrefixOf, hm]
    | cons c front =>
      rw [List.cons_append, List.isPrefixOf, List.isPrefixOf, ih h.2]

/-! ## Ends -/

theorem until?_takesUp {m : Char} {ms read cs before rest : List Char}
    (h : until? (m :: ms) read cs = some (before, rest)) :
    TakesUp (until? (m :: ms) read) cs before rest := by
  -- what is taken up is as long as the mark, so that the mark is not found any earlier
  have hfront : ∃ front, (m :: ms).length ≤ front.length ∧ cs = front ++ rest ∧
      ∀ rest', until? (m :: ms) read (front ++ rest') = some (before, rest') := by
    induction cs generalizing read with
    | nil => cases h
    | cons c cs ih =>
      rw [until?] at h
      split at h
      · next hm =>
        simp only [Option.some.injEq, Prod.mk.injEq] at h
        obtain ⟨rfl, rfl⟩ := h
        obtain ⟨tail, ht⟩ := List.isPrefixOf_iff_prefix.mp hm
        refine ⟨m :: ms, le_refl _, ?_, fun rest' => ?_⟩
        · rw [← ht, List.drop_left]
        · have hp : (m :: ms).isPrefixOf (m :: (ms ++ rest')) = true := by simp
          rw [List.cons_append, until?, if_pos hp]
          simp
      · next hm =>
        obtain ⟨front, hlen, rfl, hread⟩ := ih h
        have hlong : (m :: ms).length ≤ (c :: front).length := Nat.le_succ_of_le hlen
        rw [← List.cons_append, isPrefixOf_append_of_length hlong] at hm
        refine ⟨c :: front, hlong, rfl, fun rest' => ?_⟩
        rw [List.cons_append, until?, ← List.cons_append, isPrefixOf_append_of_length hlong,
          if_neg hm]
        exact hread rest'
  obtain ⟨front, hlen, hcs, hread⟩ := hfront
  exact ⟨front, List.ne_nil_of_length_pos (Nat.lt_of_lt_of_le (Nat.succ_pos _) hlen), hcs, hread⟩

theorem tagEnd?_takesUp {quote : Option Char} {read cs before rest : List Char}
    (h : tagEnd? quote read cs = some (before, rest)) :
    TakesUp (tagEnd? quote read) cs before rest := by
  induction cs generalizing quote read with
  | nil => cases h
  | cons c cs ih =>
    -- a character that does not end the tag comes before what is taken up behind it
    have hstep : ∀ q, (∀ cs, tagEnd? quote read (c :: cs) = tagEnd? q (c :: read) cs) →
        TakesUp (tagEnd? quote read) (c :: cs) before rest := by
      intro q hq
      rw [hq] at h
      obtain ⟨front, -, rfl, hread⟩ := ih h
      exact ⟨c :: front, List.cons_ne_nil _ _, rfl, fun rest' => (hq _).trans (hread rest')⟩
    cases quote with
    | some q => exact hstep _ fun _ => rfl
    | none =>
      by_cases hc : c = '>'
      · subst hc
        simp only [tagEnd?, beq_self_eq_true, if_true, Option.some.injEq, Prod.mk.injEq] at h
        obtain ⟨rfl, rfl⟩ := h
        exact ⟨['>'], List.cons_ne_nil _ _, rfl, fun _ => rfl⟩
      · exact hstep _ fun _ => by rw [tagEnd?, if_neg (by simpa using hc)]

/-! ## Document types -/

/-- Where the scan of a document type stands behind a character, unless it ends there. -/
def typeStep (mode : TypeMode) (quote : Option Char) (c : Char) (cs : List Char) :
    Option (TypeMode × Option Char) :=
  match quote, mode with
  | some q, mode => some (mode, if c == q then none else some q)
  | none, .comment =>
    some (if ['-', '-', '>'].isPrefixOf (c :: cs) then .inside else .comment, none)
  | none, .instruction =>
    some (if ['?', '>'].isPrefixOf (c :: cs) then .inside else .instruction, none)
  | none, .outside =>
    if c == '>' then none
    else if c == '[' then some (.inside, none)
    else some (.outside, if c == '"' || c == '\'' then some c else none)
  | none, .inside =>
    if c == ']' then some (.outside, none)
    else if ['<', '!', '-', '-'].isPrefixOf (c :: cs) then some (.comment, none)
    else if ['<', '?'].isPrefixOf (c :: cs) then some (.instruction, none)
    else some (.inside, if c == '"' || c == '\'' then some c else none)

variable {mode m : TypeMode} {quote q : Option Char} {c : Char}

theorem typeEnd?_cons (mode : TypeMode) (quote : Option Char) (c : Char) (cs : List Char) :
    typeEnd? mode quote (c :: cs) = match typeStep mode quote c cs with
      | some (m, q) => typeEnd? m q cs
      | none => some cs := by
  cases quote with
  | some q => rw [typeEnd?]; rfl
  | none =>
    cases mode <;> simp only [typeEnd?, typeStep]
    · split_ifs <;> rfl
    · split_ifs <;> rfl

theorem typeStep_eq_none {cs : List Char} (h : typeStep mode quote c cs = none) :
    mode = .outside ∧ quote = none ∧ c = '>' := by
  cases quote with
  | some q => cases h
  | none =>
    cases mode <;> simp only [typeStep] at h
    · split_ifs at h with hc
      exact ⟨rfl, rfl, beq_iff_eq.mp hc⟩
    · split_ifs at h
    · cases h
    · cases h

/-- Up to the bracket that ends the document type, the scan sees nothing of what stands behind it. -/
theorem typeStep_append (h : typeStep mode quote c (front ++ '>' :: rest) = some (m, q))
    (hne : m ≠ .outside → front ≠ []) (rest' : List Char) :
    typeStep mode quote c (front ++ '>' :: rest') = some (m, q) := by
  have hshort : ∀ (mark rest : List Char), mark.length ≤ front.length + 2 →
      mark.isPrefixOf (c :: (front ++ '>' :: rest)) = mark.isPrefixOf (c :: (front ++ ['>'])) := by
    intro mark rest hlen
    have hsplit : c :: (front ++ '>' :: rest) = (c :: (front ++ ['>'])) ++ rest := by simp
    rw [hsplit, isPrefixOf_append_of_length (by simpa using hlen)]
  have hplain : ∀ (mark rest : List Char), '>' ∉ mark →
      mark.isPrefixOf (c :: (front ++ '>' :: rest)) = mark.isPrefixOf (c :: front) :=
    fun mark rest hm => isPrefixOf_append_stop hm (c :: front) rest
  rw [← h]
  cases quote with
  | some q => rfl
  | none =>
    cases mode with
    | outside => rfl
    | inside =>
      simp only [typeStep]
      rw [hplain _ rest (by decide), hplain _ rest (by decide), hplain _ rest' (by decide),
        hplain _ rest' (by decide)]
    | instruction =>
      simp only [typeStep]
      rw [hshort _ rest (Nat.le_add_left 2 _), hshort _ rest' (Nat.le_add_left 2 _)]
    | comment =>
      -- the scan stays inside, so one more character stands before the bracket
      have hm : m ≠ .outside := by
        simp only [typeStep, Option.some.injEq, Prod.mk.injEq] at h
        rw [← h.1]
        split <;> decide
      have hlen : 3 ≤ front.length + 2 := Nat.succ_le_succ
        (Nat.succ_le_succ (List.length_pos_of_ne_nil (hne hm)))
      simp only [typeStep]
      rw [hshort ['-', '-', '>'] rest hlen, hshort ['-', '-', '>'] rest' hlen]

/-- A document type ends with a bracket. Inside of it something stands before the bracket. -/
theorem typeEnd?_front {cs : List Char} (h : typeEnd? mode quote cs = some rest) :
    ∃ front, cs = front ++ '>' :: rest ∧ (mode ≠ .outside → front ≠ []) ∧
      ∀ rest', typeEnd? mode quote (front ++ '>' :: rest') = some rest' := by
  induction cs generalizing mode quote with
  | nil => simp [typeEnd?] at h
  | cons c cs ih =>
    rw [typeEnd?_cons] at h
    split at h
    · next m q hstep =>
      obtain ⟨front, rfl, hne, hread⟩ := ih h
      refine ⟨c :: front, rfl, fun _ => List.cons_ne_nil _ _, fun rest' => ?_⟩
      rw [List.cons_append, typeEnd?_cons, typeStep_append hstep hne]
      exact hread rest'
    · next hstep =>
      obtain ⟨rfl, rfl, rfl⟩ := typeStep_eq_none hstep
      cases h
      exact ⟨[], rfl, fun hne => absurd rfl hne, fun _ => rfl⟩

/-! ## Words -/

theorem reference?_takesUp {cs : List Char} {x : Lexeme} (h : reference? cs = some (x, rest)) :
    TakesUp reference? cs x rest := by
  unfold reference? at h
  split at h
  · next heq =>
    simp only [Option.some.injEq, Prod.mk.injEq] at h
    obtain ⟨rfl, rfl⟩ := h
    have hname : ∀ c ∈ cs.takeWhile fun c => c != ';' && c != '&' && c != '<',
        (c != ';' && c != '&' && c != '<') = true :=
      fun _ hc => List.mem_takeWhile_imp (p := fun c => c != ';' && c != '&' && c != '<') hc
    refine ⟨(cs.takeWhile fun c => c != ';' && c != '&' && c != '<') ++ [';'], by simp, ?_,
      fun rest' => ?_⟩
    · rw [List.append_assoc, List.singleton_append, ← heq, List.takeWhile_append_dropWhile]
    · rw [List.append_assoc]
      exact reference?_append hname rest'
  · cases h

theorem declaration?_doctype {word : List Char} (h : sameLetters "DOCTYPE".toList word = true)
    (cs : List Char) : declaration? (word ++ cs) =
      if (cs.dropWhile isSpace).head? != some '>' then
        (typeEnd? .outside none cs).map fun rest => (.other, rest)
      else none := by
  have hlen : word.length = 7 := beq_iff_eq.mp (Bool.and_eq_true_iff.mp h).1
  cases word with
  | nil => cases h
  | cons a word =>
    have ha : a.toLower = 'd' := by
      simp only [sameLetters, Bool.and_eq_true] at h
      exact beq_iff_eq.mp (List.all_eq_true.mp h.2 (a, 'D') List.mem_cons_self)
    have hcomment : a ≠ '-' := by rintro rfl; exact absurd ha (by decide)
    have hdata : a ≠ '[' := by rintro rfl; exact absurd ha (by decide)
    rw [List.cons_append]
    unfold declaration?
    split
    · next heq => exact absurd (List.cons_eq_cons.mp heq).1 hcomment
    · next heq => exact absurd (List.cons_eq_cons.mp heq).1 hdata
    · rw [← List.cons_append, List.take_left' hlen, List.drop_left' hlen, h, Bool.true_and]

theorem declaration?_takesUp {cs : List Char} {x : Lexeme} (h : declaration? cs = some (x, rest)) :
    TakesUp declaration? cs x rest := by
  unfold declaration? at h
  split at h
  · next body =>
    obtain ⟨⟨before, rest⟩, hu, h⟩ := Option.map_eq_some_iff.mp h
    cases h
    obtain ⟨front, -, rfl, hread⟩ := until?_takesUp hu
    refine ⟨'-' :: '-' :: front, List.cons_ne_nil _ _, rfl, fun rest' => ?_⟩
    exact congrArg (Option.map fun r => (Lexeme.other, r.2)) (hread rest')
  · next tail =>
    split at h
    · next content rest hu =>
      split at h
      · next hsame =>
        cases h
        obtain ⟨front, hne, hcs, hread⟩ := until?_takesUp hu
        obtain ⟨c, front, rfl⟩ := List.exists_cons_of_ne_nil hne
        obtain ⟨rfl, rfl⟩ := List.cons_eq_cons.mp hcs
        refine ⟨_, hne, rfl, fun rest' => ?_⟩
        have hu' := hread rest'
        rw [List.cons_append] at hu' ⊢
        unfold declaration?
        simp only [hu', hsame, if_true]
      · cases h
    · cases h
  · next hcomment hdata =>
    split at h
    · next hname =>
      obtain ⟨hword, hhead⟩ := Bool.and_eq_true_iff.mp hname
      obtain ⟨rest, htype, h⟩ := Option.map_eq_some_iff.mp h
      cases h
      obtain ⟨front, hcs, -, hread⟩ := typeEnd?_front htype
      have hsame : ∀ rest', ((front ++ '>' :: rest').dropWhile isSpace).head? =
          ((cs.drop 7).dropWhile isSpace).head? := by
        intro rest'
        rw [hcs, Text.dropWhile_append_cons rfl, Text.dropWhile_append_cons rfl]
        cases front.dropWhile isSpace <;> rfl
      refine ⟨cs.take 7 ++ (front ++ ['>']), by simp, ?_, fun rest' => ?_⟩
      · rw [List.append_assoc, List.append_assoc, List.singleton_append, ← hcs, List.take_append_drop]
      · rw [List.append_assoc, List.append_assoc, List.singleton_append, declaration?_doctype hword,
          hsame, if_pos hhead, hread]
        rfl
    · cases h

theorem markup?_takesUp {cs : List Char} {x : Lexeme} (h : markup? cs = some (x, rest)) :
    TakesUp markup? cs x rest := by
  unfold markup? at h
  split at h
  · cases h
  · obtain ⟨front, -, rfl, hread⟩ := declaration?_takesUp h
    exact ⟨'!' :: front, List.cons_ne_nil _ _, rfl, hread⟩
  · cases h
  · next body hne =>
    obtain ⟨⟨before, rest⟩, hu, h⟩ := Option.map_eq_some_iff.mp h
    cases h
    obtain ⟨front, hfront, rfl, hread⟩ := until?_takesUp hu
    obtain ⟨c, front, rfl⟩ := List.exists_cons_of_ne_nil hfront
    have hc : c ≠ '>' := fun e => hne _ (by rw [e]; rfl)
    refine ⟨'?' :: c :: front, List.cons_ne_nil _ _, rfl, fun rest' => ?_⟩
    exact (markup?_instruction hc _).trans
      (congrArg (Option.map fun r => (Lexeme.other, r.2)) (hread rest'))
  · obtain ⟨⟨before, rest⟩, hu, h⟩ := Option.map_eq_some_iff.mp h
    cases h
    obtain ⟨front, -, rfl, hread⟩ := until?_takesUp hu
    refine ⟨'/' :: front, List.cons_ne_nil _ _, rfl, fun rest' => ?_⟩
    exact congrArg (Option.map fun r => (Lexeme.endTag r.1, r.2)) (hread rest')
  · next hdeclaration _ hinstruction hend =>
    obtain ⟨⟨before, behind⟩, ht, hx⟩ := Option.map_eq_some_iff.mp h
    obtain ⟨front, hfront, rfl, hread⟩ := tagEnd?_takesUp ht
    obtain ⟨c, front, rfl⟩ := List.exists_cons_of_ne_nil hfront
    have h1 : c ≠ '!' := fun e => hdeclaration _ (by rw [e]; rfl)
    have h2 : c ≠ '?' := fun e => hinstruction _ (by rw [e]; rfl)
    have h3 : c ≠ '/' := fun e => hend _ (by rw [e]; rfl)
    obtain ⟨rfl, hword⟩ : behind = rest ∧ ∀ r : List Char, (if before.getLast? = some '/' then
        (Lexeme.emptyTag before.dropLast, r) else (Lexeme.startTag before, r)) = (x, r) := by
      split_ifs at hx ⊢ <;> cases hx <;> exact ⟨rfl, fun _ => rfl⟩
    refine ⟨c :: front, hfront, rfl, fun rest' => ?_⟩
    rw [List.cons_append, markup?_tag h1 h2 h3, ← List.cons_append, hread, Option.map_some, hword]

/-- **A word is read the same** before any other rest that starts alike. What starts the rest ends a
text. -/
theorem lexeme?_front {cs : List Char} {x : Lexeme} (h : lexeme? cs = some (x, rest)) :
    ∃ front, front ≠ [] ∧ cs = front ++ rest ∧
      ∀ rest', rest'.head? = rest.head? → lexeme? (front ++ rest') = some (x, rest') := by
  unfold lexeme? at h
  split at h
  · cases h
  · obtain ⟨front, -, rfl, hread⟩ := markup?_takesUp h
    exact ⟨'<' :: front, List.cons_ne_nil _ _, rfl, fun rest' _ => hread rest'⟩
  · obtain ⟨front, -, rfl, hread⟩ := reference?_takesUp h
    exact ⟨'&' :: front, List.cons_ne_nil _ _, rfl, fun rest' _ => hread rest'⟩
  · next hne htag hreference =>
    cases h
    have hplain : ∀ c ∈ cs.takeWhile fun c => !endsText c, endsText c = false := fun c hc => by
      simpa using List.mem_takeWhile_imp (p := fun c => !endsText c) hc
    have hfront : cs.takeWhile (fun c => !endsText c) ≠ [] := by
      obtain ⟨c, tail, rfl⟩ := List.exists_cons_of_ne_nil hne
      have h1 : c ≠ '<' := fun e => htag _ (by rw [e])
      have h2 : c ≠ '&' := fun e => hreference _ (by rw [e])
      simp [endsText, h1, h2]
    refine ⟨_, hfront, List.takeWhile_append_dropWhile.symm, fun rest' hhead => ?_⟩
    refine lexeme?_text hfront hplain fun c hc => ?_
    rw [hhead] at hc
    have hstop := List.head?_dropWhile_not (fun c => !endsText c) cs
    rw [Option.mem_def.mp hc] at hstop
    simpa using hstop

/-! ## All words before a place -/

/-- The reader of words comes to a place in a text, given as what stands behind the place. -/
inductive ReadsUpTo : List Char → List Char → Prop
  | here (cs : List Char) : ReadsUpTo cs cs
  | word {cs middle rest : List Char} {x : Lexeme} (hword : lexeme? cs = some (x, middle))
      (hread : ReadsUpTo middle rest) : ReadsUpTo cs rest

theorem ReadsUpTo.suffix {cs rest : List Char} (h : ReadsUpTo cs rest) : ∃ front, cs = front ++ rest := by
  induction h with
  | here cs => exact ⟨[], rfl⟩
  | word hword _ ih =>
    obtain ⟨first, -, rfl, -⟩ := lexeme?_front hword
    obtain ⟨second, rfl⟩ := ih
    exact ⟨first ++ second, (List.append_assoc _ _ _).symm⟩

/-- **All words before a place are read the same** before any other rest that starts alike. -/
theorem ReadsUpTo.exists_words {front rest : List Char} (h : ReadsUpTo (front ++ rest) rest) :
    ∃ words : List Lexeme, ∀ rest', rest'.head? = rest.head? → ∀ read,
      lexemesFrom read (front ++ rest') = lexemesFrom (words.reverse ++ read) rest' := by
  generalize hcs : front ++ rest = cs at h
  induction h generalizing front with
  | here cs =>
    rw [List.append_left_eq_self.mp hcs]
    exact ⟨[], fun _ _ _ => rfl⟩
  | @word cs middle rest x hword hread ih =>
    obtain ⟨first, -, rfl, hfirst⟩ := lexeme?_front hword
    obtain ⟨second, rfl⟩ := hread.suffix
    rw [← List.append_assoc] at hcs
    obtain rfl := List.append_cancel_right hcs
    obtain ⟨words, hwords⟩ := ih rfl
    refine ⟨x :: words, fun rest' hhead read => ?_⟩
    have hstart : (second ++ rest').head? = (second ++ rest).head? := by
      rw [List.head?_append, List.head?_append, hhead]
    rw [List.append_assoc, lexemesFrom_step (hfirst _ hstart), hwords rest' hhead]
    simp

end SheetMarkup.Xml
