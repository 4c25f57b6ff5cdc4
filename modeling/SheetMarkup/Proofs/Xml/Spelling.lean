import SheetMarkup.Proofs.Xml.Words

/-!
# Spellings of a text

A text can be written in many ways: each character as it is, as a predefined entity, or by its number.
However it is written, a reader sees stretches and references that say the text when put together.

* `SpellsChar`, `Spells`: the ways to write a character and a text;
* `resolve_decimal`, `resolve_hexadecimal`: what a number stands for;
* `SpellsChar.cases`, `exists_words`: one character (the step) and a whole text (the run);
* **`lexemesFrom_data`**: the words of a spelled text up to the next tag, and what they say.
-/

namespace SheetMarkup.Xml

/-! ## Characters -/

/-- The number that some digits stand for. -/
def numeral (base : Nat) (digits : List Nat) : Nat := digits.foldl (fun n d => base * n + d) 0

def decimalDigit (d : Fin 10) : Char := Nat.digitChar d

/-- A hexadecimal digit, as a capital or not. -/
def hexDigit (d : Fin 16) (capital : Bool) : Char :=
  if capital then (Nat.digitChar d).toUpper else Nat.digitChar d

/-- The ways to write a character in a text. Numbers may have zeros in front. -/
inductive SpellsChar : Char → List Char → Prop
  | plain {c : Char} (h : endsText c = false) : SpellsChar c [c]
  | entity {name : String} {c : Char} (h : (name, c) ∈ entities) :
      SpellsChar c ('&' :: (name.toList ++ [';']))
  | decimal {c : Char} {ds : List (Fin 10)} (hne : ds ≠ [])
      (h : numeral 10 (ds.map Fin.val) = c.toNat) :
      SpellsChar c ('&' :: ('#' :: ds.map decimalDigit ++ [';']))
  | hexadecimal {c : Char} {ds : List (Fin 16 × Bool)} (hne : ds ≠ [])
      (h : numeral 16 (ds.map fun d => d.1) = c.toNat) :
      SpellsChar c ('&' :: ('#' :: 'x' :: ds.map (fun d => hexDigit d.1 d.2) ++ [';']))

/-- The ways to write a text. -/
inductive Spells : List Char → List Char → Prop
  | nil : Spells [] []
  | cons {c : Char} {cs written rest : List Char} (hc : SpellsChar c written) (h : Spells cs rest) :
      Spells (c :: cs) (written ++ rest)

theorem SpellsChar.ne_nil {c : Char} {written : List Char} (h : SpellsChar c written) :
    written ≠ [] := by
  cases h <;> simp

theorem Spells.eq_nil {text written : List Char} (h : Spells text written) (hw : written = []) :
    text = [] := by
  cases h with
  | nil => rfl
  | cons hc _ => exact absurd (List.append_eq_nil_iff.mp hw).1 hc.ne_nil

theorem spells_escape (s : String) : Spells s.toList (escape s).toList := by
  rw [toList_escape]
  induction s.toList with
  | nil => exact .nil
  | cons c cs ih =>
    refine .cons ?_ ih
    by_cases hc : isPlain c = true
    · rw [escapeChar_of_plain hc]
      exact .plain (endsText_of_isPlain hc)
    · obtain ⟨name, hname⟩ := Option.ne_none_iff_exists'.mp
        (fun h => hc (Option.isNone_iff_eq_none.mpr h))
      obtain ⟨n, hmem, rfl⟩ := mem_of_entityName? hname
      rw [escapeChar_of_entity hname]
      exact .entity hmem

/-! ## References -/

theorem digitsInBase?_map {α : Type} {base : Nat} {char : α → Char} {value : α → Nat}
    (h : ∀ d, (Text.hexValue? (char d)).filter (· < base) = some (value d)) {ds : List α}
    (hne : ds ≠ []) : Text.digitsInBase? base (ds.map char) = some (numeral base (ds.map value)) := by
  have hrun : ∀ (ds : List α) (n : Nat),
      (ds.map char).foldl (fun n? c => n?.bind fun n =>
        ((Text.hexValue? c).filter (· < base)).map (base * n + ·)) (some n) =
          some ((ds.map value).foldl (fun n d => base * n + d) n) := by
    intro ds
    induction ds with
    | nil => intro n; rfl
    | cons d ds ih =>
      intro n
      rw [List.map_cons, List.foldl_cons, Option.bind_some, h d]
      exact ih _
  rw [Text.digitsInBase?, if_neg (by simpa using hne)]
  exact hrun ds 0

theorem scalar?_toNat (c : Char) : scalar? c.toNat = some c := by
  have h : c.toNat.isValidChar := c.valid
  rw [scalar?, dif_pos h]
  rfl

theorem filter_toNat (c : Char) : (some c.toNat).filter (· < Text.bound32) = some c.toNat := by
  have h : c.toNat.isValidChar := c.valid
  have hlt : c.toNat < Text.bound32 := by
    unfold Nat.isValidChar at h
    unfold Text.bound32
    omega
  simp [hlt]

theorem resolve_number {c : Char} {code : List Char} (h : looseNumber? code = some c.toNat) :
    resolve ('#' :: code) = [c] := by
  simp only [resolve, h, Option.bind_some, scalar?_toNat]

theorem resolve_decimal {c : Char} {ds : List (Fin 10)} (hne : ds ≠ [])
    (h : numeral 10 (ds.map Fin.val) = c.toNat) : resolve ('#' :: ds.map decimalDigit) = [c] := by
  have hdigit : ∀ d : Fin 10, (Text.hexValue? (decimalDigit d)).filter (· < 10) = some d.val ∧
      decimalDigit d ≠ 'x' ∧ decimalDigit d ≠ 'X' ∧ decimalDigit d ≠ '+' := by
    decide
  have hvalue := digitsInBase?_map (fun d => (hdigit d).1) hne
  rw [h] at hvalue
  obtain ⟨d, ds, rfl⟩ := List.exists_cons_of_ne_nil hne
  obtain ⟨-, hx, hX, hplus⟩ := hdigit d
  apply resolve_number
  simp only [looseNumber?, List.map_cons] at hvalue ⊢
  split
  · next heq => exact absurd (List.cons.inj heq).1 hx
  · next heq => exact absurd (List.cons.inj heq).1 hX
  · split
    · next heq => exact absurd (List.cons.inj heq).1 hplus
    · rw [hvalue, filter_toNat]

theorem resolve_hexadecimal {c : Char} {ds : List (Fin 16 × Bool)} (hne : ds ≠ [])
    (h : numeral 16 (ds.map fun d => d.1) = c.toNat) :
    resolve ('#' :: 'x' :: ds.map fun d => hexDigit d.1 d.2) = [c] := by
  have hdigit : ∀ (d : Fin 16) (capital : Bool),
      (Text.hexValue? (hexDigit d capital)).filter (· < 16) = some d.val ∧
        hexDigit d capital ≠ '+' := by
    decide
  have hvalue := digitsInBase?_map (fun d : Fin 16 × Bool => (hdigit d.1 d.2).1) hne
  rw [h] at hvalue
  obtain ⟨d, ds, rfl⟩ := List.exists_cons_of_ne_nil hne
  apply resolve_number
  simp only [looseNumber?, List.map_cons] at hvalue ⊢
  split
  · next heq => exact absurd (List.cons.inj heq).1 (hdigit d.1 d.2).2
  · rw [hvalue, filter_toNat]

/-- The character belongs to the name of a reference. -/
def inReference (c : Char) : Bool := c != ';' && c != '&' && c != '<'

/-- **A character is written as it is, or as a reference that stands for it.** -/
theorem SpellsChar.cases {c : Char} {written : List Char} (h : SpellsChar c written) :
    endsText c = false ∧ written = [c] ∨
      ∃ name, (∀ d ∈ name, inReference d = true) ∧ resolve name = [c] ∧
        written = '&' :: (name ++ [';']) := by
  cases h with
  | plain h => exact Or.inl ⟨h, rfl⟩
  | @entity name c h =>
    obtain ⟨hmarks, -, -, hresolve⟩ := entity_spec _ h
    exact Or.inr ⟨name.toList, hmarks, hresolve, rfl⟩
  | @decimal c ds hne h =>
    have hdigit : ∀ d : Fin 10, inReference (decimalDigit d) = true := by decide
    refine Or.inr ⟨_, ?_, resolve_decimal hne h, rfl⟩
    rw [List.forall_mem_cons, List.forall_mem_map]
    exact ⟨by decide, fun d _ => hdigit d⟩
  | @hexadecimal c ds hne h =>
    have hdigit : ∀ (d : Fin 16) (capital : Bool), inReference (hexDigit d capital) = true := by
      decide
    refine Or.inr ⟨_, ?_, resolve_hexadecimal hne h, rfl⟩
    rw [List.forall_mem_cons, List.forall_mem_cons, List.forall_mem_map]
    exact ⟨by decide, by decide, fun d _ => hdigit d.1 d.2⟩

/-! ## Words -/

/-- What a word inside a text says. -/
def Lexeme.said : Lexeme → List Char
  | text cs => cs
  | reference name => resolve name
  | _ => []

/-- The word stands inside a text. -/
def Lexeme.isData : Lexeme → Bool
  | text _ => true
  | reference _ => true
  | _ => false

/-- A stretch as words: none where it is empty. -/
def stretch (cs : List Char) : List Lexeme := if cs = [] then [] else [.text cs]

theorem lexemesFrom_stretch {cs rest : List Char} (h : ∀ c ∈ cs, endsText c = false)
    (hrest : AtMark rest) (read : List Lexeme) :
    lexemesFrom read (cs ++ rest) = lexemesFrom ((stretch cs).reverse ++ read) rest := by
  cases cs with
  | nil => rfl
  | cons c cs =>
    rw [lexemesFrom_step (lexeme?_text (List.cons_ne_nil c cs) h hrest)]
    rfl

/-- The words of a spelled text are those of a stretch and of the rest. The induction is on the
spelling; `pending` is the stretch since the last reference. -/
theorem exists_words {text written : List Char} (h : Spells text written) (pending : List Char)
    (hpending : ∀ c ∈ pending, endsText c = false) : ∃ words : List Lexeme,
      (∀ x ∈ words, x.isData = true) ∧ words.flatMap Lexeme.said = pending ++ text ∧
        ∀ read rest, AtMark rest → lexemesFrom read (pending ++ (written ++ rest)) =
          lexemesFrom (words.reverse ++ read) rest := by
  have hdata : ∀ cs, ∀ x ∈ stretch cs, x.isData = true := by
    intro cs x hx
    unfold stretch at hx
    split_ifs at hx
    · cases hx
    · rw [List.mem_singleton.mp hx]
      rfl
  have hsaid : ∀ cs, (stretch cs).flatMap Lexeme.said = cs := by
    intro cs
    unfold stretch
    split_ifs with hcs
    · exact hcs.symm
    · simp [Lexeme.said]
  induction h generalizing pending with
  | nil =>
    refine ⟨stretch pending, hdata pending, by rw [hsaid, List.append_nil], ?_⟩
    intro read rest hrest
    exact lexemesFrom_stretch hpending hrest read
  | @cons c cs written written' hc h ih =>
    rcases hc.cases with ⟨hplain, rfl⟩ | ⟨name, hname, hresolve, rfl⟩
    · obtain ⟨words, hwords, htext, hrun⟩ := ih (pending ++ [c]) (by
        intro d hd
        rcases List.mem_append.mp hd with hd | hd
        · exact hpending d hd
        · rw [List.mem_singleton.mp hd]
          exact hplain)
      refine ⟨words, hwords, by rw [htext]; simp, ?_⟩
      intro read rest hrest
      rw [← hrun read rest hrest]
      simp
    · -- the reference ends the stretch, and the next one starts behind it
      obtain ⟨words, hwords, htext, hrun⟩ := ih [] (by simp)
      refine ⟨stretch pending ++ .reference name :: words, ?_, ?_, ?_⟩
      · intro x hx
        rcases List.mem_append.mp hx with hx | hx
        · exact hdata pending x hx
        · rcases List.mem_cons.mp hx with rfl | hx
          · rfl
          · exact hwords x hx
      · rw [List.flatMap_append, hsaid, List.flatMap_cons, htext, Lexeme.said, hresolve]
        rfl
      · intro read rest hrest
        have hsplit : '&' :: (name ++ [';']) ++ written' ++ rest =
            '&' :: (name ++ ';' :: (written' ++ rest)) := by
          simp
        have hreference : lexeme? ('&' :: (name ++ ';' :: (written' ++ rest))) =
            some (.reference name, written' ++ rest) := reference?_append hname _
        have hmark : AtMark ('&' :: (name ++ ';' :: (written' ++ rest))) := by
          rintro d ⟨⟩
          rfl
        have hrest' := hrun (.reference name :: ((stretch pending).reverse ++ read)) rest hrest
        rw [List.nil_append] at hrest'
        rw [hsplit, lexemesFrom_stretch hpending hmark, lexemesFrom_step hreference, hrest']
        simp

/-- **A spelled text is read as its words, up to the next tag**, and put together they say the
text. -/
theorem lexemesFrom_data {text written : List Char} (h : Spells text written) :
    (∀ x ∈ (lexemes written).lexemes, x.isData = true) ∧
      (lexemes written).lexemes.flatMap Lexeme.said = text ∧
        ∀ read rest, lexemesFrom read (written ++ '<' :: rest) =
          lexemesFrom ((lexemes written).lexemes.reverse ++ read) ('<' :: rest) := by
  obtain ⟨words, hwords, htext, hrun⟩ := exists_words h [] (by simp)
  have hend := hrun [] [] (by rintro c ⟨⟩)
  have hlexemes : lexemes written = ⟨words, true⟩ := by
    rw [List.nil_append, List.append_nil] at hend
    rw [lexemes, hend, lexemesFrom]
    simp
  rw [hlexemes]
  refine ⟨hwords, htext, fun read rest => ?_⟩
  exact hrun read ('<' :: rest) (by rintro c ⟨⟩; rfl)

end SheetMarkup.Xml
