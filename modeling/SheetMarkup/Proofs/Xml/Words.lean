import SheetMarkup.Proofs.Xml.Tags

/-!
# The words of written trees

The markup of a tree is read word by word as it was written: a tag for every element, and the
stretches and references of every text.

* `Tree.Sound`: the trees that can be read back;
* `dataWords`, `Tree.words`: the words that are written;
* `lexeme?_startTag`, `lexeme?_emptyTag`, `lexeme?_endTag`: one tag (the step);
* `lexemesFrom_escapeChars`: an escaped text up to the next tag;
* **`lexemesFrom_chars`**: a whole tree (the run).
-/

namespace SheetMarkup.Xml

/-! ## Trees and their words -/

/-- Trees that can be read back. An element holds one escaped text, or elements only, so that no
two texts meet. -/
inductive Tree.Sound : Tree → Prop
  | data {name : String} {attributes : List (String × String)} (hn : isName name = true)
      (ha : SoundAttributes attributes) (s : String) :
      Tree.Sound (.element name attributes [.text (escape s)])
  | element {name : String} {attributes : List (String × String)} {children : List Tree}
      (hn : isName name = true) (ha : SoundAttributes attributes)
      (hc : ∀ t ∈ children, Tree.Sound t) : Tree.Sound (.element name attributes children)

/-- The words of an escaped text: a reference for every character that is written as one, and the
stretches of plain characters between them. -/
def dataWords : List Char → List Lexeme
  | [] => []
  | c :: cs =>
    match entityName? c with
    | some name => .reference name :: dataWords cs
    | none => .text (c :: cs.takeWhile isPlain) :: dataWords (cs.dropWhile isPlain)
termination_by cs => cs.length
decreasing_by
  · simp
  · have := (List.dropWhile_sublist (l := cs) isPlain).length_le
    simp only [List.length_cons]
    omega

mutual

/-- The words of a tree. -/
def Tree.words : Tree → List Lexeme
  | .text written => dataWords (meaning written).toList
  | .element name attributes [] => [.emptyTag (tagChars name attributes)]
  | .element name attributes (t :: ts) =>
    .startTag (tagChars name attributes) :: (t.words ++ treesWords ts ++ [.endTag name.toList])

def treesWords : List Tree → List Lexeme
  | [] => []
  | t :: ts => t.words ++ treesWords ts

end

theorem treesChars_eq (ts : List Tree) : treesChars ts = ts.flatMap Tree.chars := by
  induction ts with
  | nil => rfl
  | cons t ts ih => rw [treesChars, ih, List.flatMap_cons]

theorem treesWords_eq (ts : List Tree) : treesWords ts = ts.flatMap Tree.words := by
  induction ts with
  | nil => rfl
  | cons t ts ih => rw [treesWords, ih, List.flatMap_cons]

/-! ## Tags -/

variable {name : String} {attributes : List (String × String)}

theorem lexeme?_startTag (hn : isName name = true) (ha : SoundAttributes attributes)
    (rest : List Char) : lexeme? ('<' :: (tagChars name attributes ++ '>' :: rest)) =
      some (.startTag (tagChars name attributes), rest) := by
  obtain ⟨e, -, hcontent, hclosed⟩ := exists_tagText hn ha false
  have h := e.lexeme?_chars rest
  rw [TagText.chars, TagText.word, hclosed, hcontent] at h
  simpa using h

theorem lexeme?_emptyTag (hn : isName name = true) (ha : SoundAttributes attributes)
    (rest : List Char) : lexeme? ('<' :: (tagChars name attributes ++ '/' :: '>' :: rest)) =
      some (.emptyTag (tagChars name attributes), rest) := by
  obtain ⟨e, -, hcontent, hclosed⟩ := exists_tagText hn ha true
  have h := e.lexeme?_chars rest
  rw [TagText.chars, TagText.word, hclosed, hcontent] at h
  simpa using h

theorem until?_append {m : Char} {before : List Char} (h : m ∉ before) (ms read rest : List Char) :
    until? (m :: ms) read (before ++ (m :: ms) ++ rest) = some (read.reverse ++ before, rest) := by
  induction before generalizing read with
  | nil =>
    have hp : (m :: ms).isPrefixOf (m :: (ms ++ rest)) = true := by simp
    rw [List.nil_append, List.cons_append, until?, if_pos hp]
    simp
  | cons c before ih =>
    rw [List.mem_cons, not_or] at h
    have hp : ¬ (m :: ms).isPrefixOf (c :: (before ++ (m :: ms) ++ rest)) = true := by
      simp [h.1]
    rw [List.cons_append, List.cons_append, until?, if_neg hp, ih h.2]
    simp

theorem lexeme?_endTag (hn : isName name = true) (rest : List Char) :
    lexeme? ('<' :: '/' :: (name.toList ++ '>' :: rest)) = some (.endTag name.toList, rest) := by
  have hm : '>' ∉ name.toList := fun h =>
    ne_of_isNameChar ((isName_iff.mp hn).2 _ h) (by decide) rfl
  have hu := until?_append hm [] [] rest
  rw [List.append_assoc] at hu
  change (until? ['>'] [] (name.toList ++ '>' :: rest)).map _ = _
  rw [show name.toList ++ '>' :: rest = name.toList ++ (['>'] ++ rest) from rfl, hu]
  rfl

/-! ## Texts -/

theorem lexemesFrom_step {cs rest : List Char} {x : Lexeme} (h : lexeme? cs = some (x, rest))
    (read : List Lexeme) : lexemesFrom read cs = lexemesFrom (x :: read) rest := by
  cases cs with
  | nil => cases h
  | cons c cs =>
    rw [lexemesFrom]
    split
    · next x' rest' heq =>
      rw [h] at heq
      cases heq
      rfl
    · next hne => rw [h] at hne; cases hne

theorem endsText_of_isPlain {c : Char} (h : isPlain c = true) : endsText c = false := by
  obtain ⟨h1, -, h2, -, -⟩ := isPlain_iff.mp h
  simp [endsText, h1, h2]

/-- The text is at its end, or a mark stands in front of it. -/
def AtMark (rest : List Char) : Prop := ∀ c ∈ rest.head?, endsText c = true

theorem lexeme?_text {cs rest : List Char} (hne : cs ≠ []) (h : ∀ c ∈ cs, endsText c = false)
    (hrest : AtMark rest) : lexeme? (cs ++ rest) = some (.text cs, rest) := by
  have hplain : ∀ c ∈ cs, (!endsText c) = true := fun c hc => by rw [h c hc]; rfl
  have hscan : (cs ++ rest).takeWhile (fun c => !endsText c) = cs ∧
      (cs ++ rest).dropWhile (fun c => !endsText c) = rest := by
    cases rest with
    | nil =>
      rw [List.append_nil]
      exact ⟨List.takeWhile_eq_self_iff.mpr hplain, List.dropWhile_eq_nil_iff.mpr hplain⟩
    | cons d rest =>
      have hd : (!endsText d) = false := by rw [hrest d rfl]; rfl
      exact ⟨Text.takeWhile_append_stop hplain hd rest, Text.dropWhile_append_stop hplain hd rest⟩
  obtain ⟨c, tail, rfl⟩ := List.exists_cons_of_ne_nil hne
  have hc := h c List.mem_cons_self
  rw [List.cons_append] at hscan ⊢
  unfold lexeme?
  split
  · next heq => cases heq
  · next heq => cases heq; cases hc
  · next heq => cases heq; cases hc
  · rw [hscan.1, hscan.2]

theorem lexeme?_plain {c d : Char} {ps : List Char} (hc : isPlain c = true)
    (hps : ∀ p ∈ ps, isPlain p = true) (hd : endsText d = true) (rest : List Char) :
    lexeme? (c :: (ps ++ d :: rest)) = some (.text (c :: ps), d :: rest) := by
  have hplain : ∀ p ∈ c :: ps, endsText p = false :=
    List.forall_mem_cons.mpr ⟨endsText_of_isPlain hc, fun p hp => endsText_of_isPlain (hps p hp)⟩
  refine lexeme?_text (List.cons_ne_nil c ps) hplain ?_
  rintro e ⟨⟩
  exact hd

theorem exists_mark_dropWhile (cs rest : List Char) : ∃ d tail,
    escapeChars (cs.dropWhile isPlain) ++ '<' :: rest = d :: tail ∧ endsText d = true := by
  cases hd : cs.dropWhile isPlain with
  | nil => exact ⟨'<', rest, rfl, rfl⟩
  | cons e es =>
    have he : isPlain e = false := by
      have := List.head?_dropWhile_not isPlain cs
      rw [hd] at this
      simpa using this
    cases hn : entityName? e with
    | none => rw [isPlain, hn] at he; cases he
    | some name =>
      refine ⟨'&', name ++ ';' :: escapeChars es ++ '<' :: rest, ?_, rfl⟩
      rw [escapeChars_cons_entity hn]
      rfl

/-- **An escaped text is read as its stretches and references, up to the next tag.** -/
theorem lexemesFrom_escapeChars (cs : List Char) (read : List Lexeme) (rest : List Char) :
    lexemesFrom read (escapeChars cs ++ '<' :: rest) =
      lexemesFrom ((dataWords cs).reverse ++ read) ('<' :: rest) := by
  fun_induction dataWords cs generalizing read with
  | case1 => rfl
  | case2 c cs name hn ih =>
    have hl : lexeme? (escapeChars (c :: cs) ++ '<' :: rest) =
        some (.reference name, escapeChars cs ++ '<' :: rest) := by
      obtain ⟨n, hm, rfl⟩ := mem_of_entityName? hn
      rw [escapeChars_cons_entity hn, List.cons_append, List.append_assoc]
      exact reference?_append (entity_spec _ hm).1 _
    rw [lexemesFrom_step hl, ih]
    simp
  | case3 c cs hn ih =>
    have hc : isPlain c = true := Option.isNone_iff_eq_none.mpr hn
    have hps : ∀ p ∈ cs.takeWhile isPlain, isPlain p = true := fun p hp =>
      List.mem_takeWhile_imp hp
    have he : escapeChars (c :: cs) =
        c :: (cs.takeWhile isPlain ++ escapeChars (cs.dropWhile isPlain)) := by
      have hall : ∀ p ∈ c :: cs.takeWhile isPlain, isPlain p = true :=
        List.forall_mem_cons.mpr ⟨hc, hps⟩
      have hsplit := escapeChars_plain_append hall (cs.dropWhile isPlain)
      rwa [List.cons_append, List.takeWhile_append_dropWhile, List.cons_append] at hsplit
    -- a mark stands behind the stretch, so that no more than the stretch is read as one text
    obtain ⟨d, tail, hd, hmark⟩ := exists_mark_dropWhile cs rest
    have hl := lexeme?_plain hc hps hmark tail
    rw [← hd] at hl
    rw [he, List.cons_append, List.append_assoc, lexemesFrom_step hl, ih]
    simp

/-! ## Trees -/

/-- **A tree is read as its words.** The induction is on what makes the tree sound. -/
theorem lexemesFrom_chars {t : Tree} (ht : t.Sound) (read : List Lexeme) (rest : List Char) :
    lexemesFrom read (t.chars ++ rest) = lexemesFrom (t.words.reverse ++ read) rest := by
  induction ht generalizing read rest with
  | @data name attributes hn ha s =>
    have hc : (Tree.element name attributes [.text (escape s)]).chars ++ rest =
        '<' :: (tagChars name attributes ++ '>' :: (escapeChars s.toList ++
          '<' :: '/' :: (name.toList ++ '>' :: rest))) := by
      simp [Tree.chars, treesChars]
    rw [hc, lexemesFrom_step (lexeme?_startTag hn ha _), lexemesFrom_escapeChars,
      lexemesFrom_step (lexeme?_endTag hn rest)]
    simp [Tree.words, treesWords]
  | @element name attributes children hn ha _ ih =>
    cases children with
    | nil =>
      have hc : (Tree.element name attributes []).chars ++ rest =
          '<' :: (tagChars name attributes ++ '/' :: '>' :: rest) := by
        simp [Tree.chars]
      rw [hc, lexemesFrom_step (lexeme?_emptyTag hn ha rest)]
      simp [Tree.words]
    | cons t ts =>
      have hc : (Tree.element name attributes (t :: ts)).chars ++ rest =
          '<' :: (tagChars name attributes ++ '>' :: ((t :: ts).flatMap Tree.chars ++
            '<' :: '/' :: (name.toList ++ '>' :: rest))) := by
        simp [Tree.chars, treesChars_eq]
      rw [hc, lexemesFrom_step (lexeme?_startTag hn ha _), read_flatMap lexemesFrom ih,
        lexemesFrom_step (lexeme?_endTag hn rest)]
      simp [Tree.words, treesWords_eq]

theorem markup?_instruction {c : Char} (h : c ≠ '>') (body : List Char) :
    markup? ('?' :: c :: body) = (until? ['?', '>'] [] (c :: body)).map fun r => (.other, r.2) := by
  unfold markup?
  split <;> simp_all

theorem lexeme?_documentText (t : Tree) :
    lexeme? (documentText t).toList = some (.other, t.chars) := by
  have hmark :
      '?' ∉ 'x' :: "ml version=\"1.0\" encoding=\"UTF-8\" standalone=\"yes\"".toList := by
    decide
  have hu := until?_append hmark ['>'] [] t.chars
  have hsplit : declaration.toList = '<' :: '?' :: 'x' ::
      ("ml version=\"1.0\" encoding=\"UTF-8\" standalone=\"yes\"".toList ++ ['?', '>']) := by
    decide
  rw [documentText, String.toList_append, String.toList_ofList, hsplit]
  exact (markup?_instruction (by decide) _).trans (congrArg (Option.map _) hu)

theorem lexemes_documentText {t : Tree} (ht : t.Sound) :
    lexemes (documentText t).toList = ⟨.other :: t.words, true⟩ := by
  have hc := lexemesFrom_chars ht [.other] []
  rw [List.append_nil] at hc
  rw [lexemes, lexemesFrom_step (lexeme?_documentText t), hc, lexemesFrom]
  simp

end SheetMarkup.Xml
