/-!
# Words of markup

Markup is read as a sequence of texts, references and tags. Comments, declarations, instructions
and character data sections are passed over.

* `Lexeme`: one word.
* `lexeme?`: the word at the front of a text, or nothing where the markup is malformed.
* `lexemes`: all words up to the end or to the first fault.
-/

namespace SheetMarkup.Xml

/-- One word of markup. Tags are given as what stands between their brackets. -/
inductive Lexeme where
  | text (cs : List Char)
  | reference (name : List Char)
  | startTag (content : List Char)
  | emptyTag (content : List Char)
  | endTag (content : List Char)
  /-- A comment, a declaration, an instruction or character data. -/
  | other
  deriving DecidableEq

/-- The blanks of markup. -/
def isSpace (c : Char) : Bool := c == ' ' || c == '\t' || c == '\r' || c == '\n'

/-! ## Finding an end -/

/-- What stands before and after the first place of a mark. -/
def until? (mark : List Char) : List Char → List Char → Option (List Char × List Char)
  | _, [] => none
  | read, c :: cs =>
    if mark.isPrefixOf (c :: cs) then some (read.reverse, (c :: cs).drop mark.length)
    else until? mark (c :: read) cs

/-- What stands before and after the bracket that ends a tag. Brackets between quotes do not end
it. -/
def tagEnd? : Option Char → List Char → List Char → Option (List Char × List Char)
  | _, _, [] => none
  | quote, read, c :: cs =>
    match quote with
    | some q => tagEnd? (if c == q then none else quote) (c :: read) cs
    | none =>
      if c == '>' then some (read.reverse, cs)
      else tagEnd? (if c == '"' || c == '\'' then some c else none) (c :: read) cs

/-- Where the scan of a document type stands. -/
inductive TypeMode where
  | outside
  | inside
  | comment
  | instruction
  deriving DecidableEq

/-- What follows a document type, with the declarations inside it. -/
def typeEnd? : TypeMode → Option Char → List Char → Option (List Char)
  | _, _, [] => none
  | mode, some q, c :: cs => typeEnd? mode (if c == q then none else some q) cs
  | .comment, none, c :: cs =>
    typeEnd? (if ['-', '-', '>'].isPrefixOf (c :: cs) then .inside else .comment) none cs
  | .instruction, none, c :: cs =>
    typeEnd? (if ['?', '>'].isPrefixOf (c :: cs) then .inside else .instruction) none cs
  | .outside, none, c :: cs =>
    if c == '>' then some cs
    else if c == '[' then typeEnd? .inside none cs
    else typeEnd? .outside (if c == '"' || c == '\'' then some c else none) cs
  | .inside, none, c :: cs =>
    if c == ']' then typeEnd? .outside none cs
    else if ['<', '!', '-', '-'].isPrefixOf (c :: cs) then typeEnd? .comment none cs
    else if ['<', '?'].isPrefixOf (c :: cs) then typeEnd? .instruction none cs
    else typeEnd? .inside (if c == '"' || c == '\'' then some c else none) cs

/-! ## Words -/

/-- Characters that end a text. -/
def endsText (c : Char) : Bool := c == '<' || c == '&'

/-- The same letters in either case. -/
def sameLetters (word cs : List Char) : Bool :=
  cs.length == word.length && (cs.zip word).all fun p => p.1.toLower == p.2.toLower

/-- A reference, after its ampersand. It ends at a semicolon, with no other mark before it. -/
def reference? (cs : List Char) : Option (Lexeme × List Char) :=
  match cs.dropWhile fun c => c != ';' && c != '&' && c != '<' with
  | ';' :: rest =>
    some (.reference (cs.takeWhile fun c => c != ';' && c != '&' && c != '<'), rest)
  | _ => none

/-- A comment, character data or a document type, after `<!`. -/
def declaration? (cs : List Char) : Option (Lexeme × List Char) :=
  match cs with
  | '-' :: '-' :: body => (until? ['-', '-', '>'] [] body).map fun r => (.other, r.2)
  | '[' :: _ =>
    match until? [']', ']', '>'] [] cs with
    | some (content, rest) =>
      if sameLetters "[CDATA[".toList (content.take 7) then some (.other, rest) else none
    | none => none
  | _ =>
    if sameLetters "DOCTYPE".toList (cs.take 7) &&
        ((cs.drop 7).dropWhile isSpace).head? != some '>' then
      (typeEnd? .outside none (cs.drop 7)).map fun rest => (.other, rest)
    else none

/-- A tag, a declaration or an instruction, after its bracket. -/
def markup? (cs : List Char) : Option (Lexeme × List Char) :=
  match cs with
  | [] => none
  | '!' :: body => declaration? body
  | '?' :: '>' :: _ => none
  | '?' :: body => (until? ['?', '>'] [] body).map fun r => (.other, r.2)
  | '/' :: body => (until? ['>'] [] body).map fun r => (.endTag r.1, r.2)
  | _ =>
    (tagEnd? none [] cs).map fun r =>
      if r.1.getLast? = some '/' then (.emptyTag r.1.dropLast, r.2) else (.startTag r.1, r.2)

/-- The word at the front of a text that is not empty. -/
def lexeme? (cs : List Char) : Option (Lexeme × List Char) :=
  match cs with
  | [] => none
  | '<' :: body => markup? body
  | '&' :: body => reference? body
  | _ => some (.text (cs.takeWhile fun c => !endsText c), cs.dropWhile fun c => !endsText c)

/-! ## Progress -/

theorem until?_length {mark read cs before rest : List Char}
    (h : until? mark read cs = some (before, rest)) : rest.length ≤ cs.length := by
  induction cs generalizing read with
  | nil => simp [until?] at h
  | cons c cs ih =>
    unfold until? at h
    split at h
    · simp only [Option.some.injEq, Prod.mk.injEq] at h
      obtain ⟨-, rfl⟩ := h
      simp
    · have := ih h
      simp only [List.length_cons]
      omega

theorem tagEnd?_length {quote : Option Char} {read cs before rest : List Char}
    (h : tagEnd? quote read cs = some (before, rest)) : rest.length < cs.length := by
  induction cs generalizing quote read with
  | nil => simp [tagEnd?] at h
  | cons c cs ih =>
    unfold tagEnd? at h
    split at h
    · have := ih h
      simp only [List.length_cons]
      omega
    · split at h
      · simp only [Option.some.injEq, Prod.mk.injEq] at h
        obtain ⟨-, rfl⟩ := h
        simp
      · have := ih h
        simp only [List.length_cons]
        omega

theorem typeEnd?_length {mode : TypeMode} {quote : Option Char} {cs rest : List Char}
    (h : typeEnd? mode quote cs = some rest) : rest.length ≤ cs.length := by
  induction cs generalizing mode quote with
  | nil => simp [typeEnd?] at h
  | cons c cs ih =>
    have key : ∀ m q, typeEnd? m q cs = some rest → rest.length ≤ (c :: cs).length := by
      intro m q hq
      have := ih hq
      simp only [List.length_cons]
      omega
    cases quote with
    | some q => rw [typeEnd?] at h; exact key _ _ h
    | none =>
      cases mode with
      | comment => rw [typeEnd?] at h; exact key _ _ h
      | instruction => rw [typeEnd?] at h; exact key _ _ h
      | outside =>
        rw [typeEnd?] at h
        split at h
        · simp only [Option.some.injEq] at h
          subst h
          simp
        · split at h <;> exact key _ _ h
      | inside =>
        rw [typeEnd?] at h
        split at h
        · exact key _ _ h
        · split at h
          · exact key _ _ h
          · split at h <;> exact key _ _ h

theorem reference?_length {cs rest : List Char} {x : Lexeme}
    (h : reference? cs = some (x, rest)) : rest.length < cs.length := by
  unfold reference? at h
  split at h
  · next heq =>
    simp only [Option.some.injEq, Prod.mk.injEq] at h
    obtain ⟨-, rfl⟩ := h
    have := (List.dropWhile_sublist (l := cs)
      (fun c => c != ';' && c != '&' && c != '<')).length_le
    rw [heq] at this
    simp only [List.length_cons] at this
    omega
  · simp at h

theorem declaration?_length {cs rest : List Char} {x : Lexeme}
    (h : declaration? cs = some (x, rest)) : rest.length ≤ cs.length := by
  unfold declaration? at h
  split at h
  · obtain ⟨r, hr, h⟩ := Option.map_eq_some_iff.mp h
    simp only [Prod.mk.injEq] at h
    obtain ⟨-, rfl⟩ := h
    have := until?_length hr
    simp only [List.length_cons]
    omega
  · split at h
    · next heq =>
      split at h
      · simp only [Option.some.injEq, Prod.mk.injEq] at h
        obtain ⟨-, rfl⟩ := h
        exact until?_length heq
      · simp at h
    · simp at h
  · split at h
    · obtain ⟨r, hr, h⟩ := Option.map_eq_some_iff.mp h
      simp only [Prod.mk.injEq] at h
      obtain ⟨-, rfl⟩ := h
      have := typeEnd?_length hr
      simp only [List.length_drop] at this
      omega
    · simp at h

theorem markup?_length {cs rest : List Char} {x : Lexeme}
    (h : markup? cs = some (x, rest)) : rest.length ≤ cs.length := by
  unfold markup? at h
  split at h
  · simp at h
  · have := declaration?_length h
    simp only [List.length_cons]
    omega
  · simp at h
  · obtain ⟨r, hr, h⟩ := Option.map_eq_some_iff.mp h
    simp only [Prod.mk.injEq] at h
    obtain ⟨-, rfl⟩ := h
    have := until?_length hr
    simp only [List.length_cons]
    omega
  · obtain ⟨r, hr, h⟩ := Option.map_eq_some_iff.mp h
    simp only [Prod.mk.injEq] at h
    obtain ⟨-, rfl⟩ := h
    have := until?_length hr
    simp only [List.length_cons]
    omega
  · obtain ⟨r, hr, h⟩ := Option.map_eq_some_iff.mp h
    have := tagEnd?_length hr
    split at h <;>
      · simp only [Prod.mk.injEq] at h
        obtain ⟨-, rfl⟩ := h
        omega

theorem lexeme?_length {cs rest : List Char} {x : Lexeme}
    (h : lexeme? cs = some (x, rest)) : rest.length < cs.length := by
  unfold lexeme? at h
  split at h
  · simp at h
  · have := markup?_length h
    simp only [List.length_cons]
    omega
  · have := reference?_length h
    simp only [List.length_cons]
    omega
  · next hne h1 h2 =>
    simp only [Option.some.injEq, Prod.mk.injEq] at h
    obtain ⟨-, rfl⟩ := h
    cases cs with
    | nil => simp at hne
    | cons c cs =>
      have hc : endsText c = false := by
        have n1 : c ≠ '<' := fun e => h1 cs (by rw [e])
        have n2 : c ≠ '&' := fun e => h2 cs (by rw [e])
        simp [endsText, n1, n2]
      have := (List.dropWhile_sublist (l := cs) (fun c => !endsText c)).length_le
      simp only [List.dropWhile_cons, hc, List.length_cons]
      simp only [Bool.not_false, if_true]
      omega

/-- The words of a text, and whether all of it is well formed. -/
structure Words where
  lexemes : List Lexeme
  complete : Bool

/-- All words up to the end or to the first fault, after those read, in reverse. -/
def lexemesFrom (read : List Lexeme) (cs : List Char) : Words :=
  match cs with
  | [] => ⟨read.reverse, true⟩
  | c :: tail =>
    match _h : lexeme? (c :: tail) with
    | some (x, rest) => lexemesFrom (x :: read) rest
    | none => ⟨read.reverse, false⟩
termination_by cs.length
decreasing_by exact lexeme?_length _h

/-- All words up to the end or to the first fault. -/
def lexemes (cs : List Char) : Words := lexemesFrom [] cs

end SheetMarkup.Xml
