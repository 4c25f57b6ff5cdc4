import SheetMarkup.Proofs.Xml.Escape
import SheetMarkup.Xml.Tree

/-!
# Attributes read back

Attributes that are written with names for keys, no key twice, and values between quotes are read as
they are written, and with escaped values as they were meant.

* `isName`, `Written`, `SoundAttributes`: what the attributes of trees must be like;
* `AttributeText`: an attribute as it is written, with its blanks and quotes;
* `attributesFrom_text`: the first attribute of a tag (the step);
* **`attributesFrom_texts`**: all attributes of a tag (the run);
* `attributesFrom_written`: the attributes of trees;
* `Tag.attributes`, `Tag.value?`, `Tag.attributes_tagOf`: the values behind the written forms.
-/

namespace SheetMarkup.Xml

/-! ## Names and values -/

/-- The characters of names: ASCII letters and digits, and the colon. -/
def isNameChar (c : Char) : Bool := Text.isAsciiAlphanumeric c || c == ':'

/-- A name of an element or of an attribute. -/
def isName (name : String) : Bool := !name.toList.isEmpty && name.toList.all isNameChar

/-- The text is the written form of some text. -/
def Written (s : String) : Prop := ∃ v, s = escape v

/-- The text behind a written form. -/
def meaning (s : String) : String := String.ofList (unescape s.toList)

def areKeys (keys : List String) : Bool := keys.all isName && decide keys.Nodup

/-- Attributes that can be read back. -/
def SoundAttributes (attributes : List (String × String)) : Prop :=
  areKeys (attributes.map Prod.fst) = true ∧ ∀ a ∈ attributes, Written a.2

theorem ne_of_isNameChar {c d : Char} (hc : isNameChar c = true) (hd : isNameChar d = false) :
    c ≠ d := by
  rintro rfl
  rw [hc] at hd
  cases hd

theorem isName_iff {name : String} :
    isName name = true ↔ name.toList ≠ [] ∧ ∀ c ∈ name.toList, isNameChar c = true := by
  simp [isName]

theorem isSpace_of_isNameChar {c : Char} (h : isNameChar c = true) : isSpace c = false := by
  have h1 : c ≠ ' ' := ne_of_isNameChar h (by decide)
  have h2 : c ≠ '\t' := ne_of_isNameChar h (by decide)
  have h3 : c ≠ '\r' := ne_of_isNameChar h (by decide)
  have h4 : c ≠ '\n' := ne_of_isNameChar h (by decide)
  simp [isSpace, h1, h2, h3, h4]

theorem written_escape (v : String) : Written (escape v) := ⟨v, rfl⟩

theorem written_of_plain {s : String} (h : s.toList.all isPlain = true) : Written s :=
  ⟨s, (escape_eq_self (List.all_eq_true.mp h)).symm⟩

theorem Written.quote_not_mem {s : String} (h : Written s) : '"' ∉ s.toList := by
  obtain ⟨v, rfl⟩ := h
  rw [toList_escape]
  exact quote_not_mem_escapeChars v.toList

theorem SoundAttributes.isName {attributes : List (String × String)}
    (h : SoundAttributes attributes) {a : String × String} (ha : a ∈ attributes) :
    isName a.1 = true := by
  have hkeys := (Bool.and_eq_true_iff.mp h.1).1
  exact List.all_eq_true.mp hkeys a.1 (List.mem_map_of_mem ha)

theorem SoundAttributes.nodup {attributes : List (String × String)}
    (h : SoundAttributes attributes) : (attributes.map Prod.fst).Nodup :=
  of_decide_eq_true (Bool.and_eq_true_iff.mp h.1).2

theorem SoundAttributes.quote_not_mem {attributes : List (String × String)}
    (h : SoundAttributes attributes) {a : String × String} (ha : a ∈ attributes) :
    '"' ∉ a.2.toList :=
  (h.2 a ha).quote_not_mem

@[simp] theorem meaning_escape (v : String) : meaning (escape v) = v := by
  rw [meaning, unescape_escape, String.ofList_toList]

theorem meaning_of_plain {s : String} (h : s.toList.all isPlain = true) : meaning s = s := by
  conv_lhs => rw [← escape_eq_self (List.all_eq_true.mp h)]
  exact meaning_escape s

theorem all_isPlain_decimal (n : Nat) : (Text.decimal n).toList.all isPlain = true := by
  rw [List.all_eq_true, Text.decimal, String.toList_ofList]
  intro c hc
  exact isPlain_of_class (p := Char.isDigit) (by decide)
    (Nat.isDigit_of_mem_toDigits (by decide) (by decide) hc)

theorem soundAttributes_of_plain {attributes : List (String × String)}
    (hk : areKeys (attributes.map Prod.fst) = true)
    (hv : (attributes.all fun a => a.2.toList.all isPlain) = true) : SoundAttributes attributes :=
  ⟨hk, fun a ha => written_of_plain (List.all_eq_true.mp hv a ha)⟩

/-! ## One attribute -/

/-- A mark of tags, or a blank. No name holds one. -/
def isMark (c : Char) : Bool :=
  isSpace c || ['<', '>', '/', '=', '"', '\'', '!', '?'].contains c

/-- A name as tags may hold it. -/
def IsNameText (name : List Char) : Prop := name ≠ [] ∧ ∀ c ∈ name, isMark c = false

instance (name : List Char) : Decidable (IsNameText name) :=
  decidable_of_iff ((!name.isEmpty && name.all fun c => !isMark c) = true) (by simp [IsNameText])

/-- An attribute as it is written: a key and a value between quotes, with blanks before the key and on
both sides of the equals sign. -/
structure AttributeText where
  blanks : List Char
  key : List Char
  beforeSign : List Char
  afterSign : List Char
  quote : Char
  value : List Char
  blanks_ne : blanks ≠ []
  isSpace_blanks : ∀ c ∈ blanks, isSpace c = true
  isSpace_sign : ∀ c ∈ beforeSign ++ afterSign, isSpace c = true
  isNameText : IsNameText key
  isQuote : quote = '"' ∨ quote = '\''
  quote_not_mem : quote ∉ value

/-- The written form of an attribute. -/
def AttributeText.chars (a : AttributeText) : List Char :=
  a.blanks ++ (a.key ++ (a.beforeSign ++ '=' :: (a.afterSign ++ a.quote :: (a.value ++ [a.quote]))))

theorem ne_of_isMark {c d : Char} (hc : isMark c = false) (hd : isMark d = true) : c ≠ d := by
  rintro rfl
  rw [hc] at hd
  cases hd

theorem isSpace_of_isMark {c : Char} (h : isMark c = false) : isSpace c = false :=
  (Bool.or_eq_false_iff.mp h).1

theorem endsKey_of_isMark {c : Char} (h : isMark c = false) : endsKey c = false := by
  have he : c ≠ '=' := ne_of_isMark h (by decide)
  simp [endsKey, isSpace_of_isMark h, he]

theorem isMark_of_isNameChar {c : Char} (h : isNameChar c = true) : isMark c = false := by
  have hmarks : (['<', '>', '/', '=', '"', '\'', '!', '?'].all fun d => !isNameChar d) = true := by
    decide
  rw [isMark, isSpace_of_isNameChar h, Bool.false_or, Bool.eq_false_iff]
  intro hc
  have hmark := List.all_eq_true.mp hmarks c (List.contains_iff_mem.mp hc)
  rw [h] at hmark
  cases hmark

namespace AttributeText

variable (a : AttributeText)

theorem isSpace_quote : isSpace a.quote = false := by
  rcases a.isQuote with h | h <;> rw [h] <;> rfl

theorem exists_endsKey (cs : List Char) :
    ∃ d tail, a.beforeSign ++ '=' :: cs = d :: tail ∧ endsKey d = true := by
  cases hb : a.beforeSign with
  | nil => exact ⟨'=', cs, rfl, rfl⟩
  | cons d ds =>
    refine ⟨d, ds ++ '=' :: cs, rfl, ?_⟩
    rw [endsKey, a.isSpace_sign d (by simp [hb]), Bool.or_true]

end AttributeText

/-- **The first attribute of a tag**, if its key is new. -/
theorem attributesFrom_text (a : AttributeText) {seen : List (List Char)} (hseen : a.key ∉ seen)
    (rest : List Char) : attributesFrom seen (a.chars ++ rest) =
      (a.key, a.value) :: attributesFrom (a.key :: seen) rest := by
  obtain ⟨first, tail, hkey⟩ := List.exists_cons_of_ne_nil a.isNameText.1
  have hmarks := a.isNameText.2
  rw [hkey, List.forall_mem_cons] at hmarks
  have htail : ∀ c ∈ tail, (!endsKey c) = true := by
    intro c hc
    rw [endsKey_of_isMark (hmarks.2 c hc)]
    rfl
  have hquote : ∀ c ∈ a.value, (c != a.quote) = true := fun c hc =>
    bne_iff_ne.mpr fun e => a.quote_not_mem (e ▸ hc)
  -- what each scan of the reader finds
  have hchars : a.chars ++ rest = a.blanks ++ first :: (tail ++ (a.beforeSign ++
      '=' :: (a.afterSign ++ a.quote :: (a.value ++ a.quote :: rest)))) := by
    simp [AttributeText.chars, hkey]
  generalize hbody : a.afterSign ++ a.quote :: (a.value ++ a.quote :: rest) = body at hchars
  have h0 : (a.chars ++ rest).dropWhile isSpace = first :: (tail ++ (a.beforeSign ++ '=' :: body)) := by
    rw [hchars, Text.dropWhile_append_stop a.isSpace_blanks (isSpace_of_isMark hmarks.1)]
  obtain ⟨d, ds, hd, hends⟩ := a.exists_endsKey body
  have hstop : (!endsKey d) = false := by rw [hends]; rfl
  have hname : (tail ++ (a.beforeSign ++ '=' :: body)).takeWhile (fun c => !endsKey c) = tail := by
    rw [hd, Text.takeWhile_append_stop htail hstop]
  have h1 : ((tail ++ (a.beforeSign ++ '=' :: body)).dropWhile
      fun c => !endsKey c).dropWhile isSpace = '=' :: body := by
    rw [hd, Text.dropWhile_append_stop htail hstop, ← hd]
    exact Text.dropWhile_append_stop (fun c hc => a.isSpace_sign c (by simp [hc])) rfl body
  have h2 : body.dropWhile isSpace = a.quote :: (a.value ++ a.quote :: rest) := by
    rw [← hbody]
    exact Text.dropWhile_append_stop (fun c hc => a.isSpace_sign c (by simp [hc])) a.isSpace_quote _
  have h3 : (a.value ++ a.quote :: rest).dropWhile (· != a.quote) = a.quote :: rest :=
    Text.dropWhile_append_stop hquote (by simp) _
  have hvalue : (a.value ++ a.quote :: rest).takeWhile (· != a.quote) = a.value :=
    Text.takeWhile_append_stop hquote (by simp) _
  rw [attributesFrom]
  split
  · next heq => rw [h0] at heq; cases heq
  · next first' tail' heq =>
    rw [h0] at heq
    cases heq
    simp only [hname, ← hkey]
    split
    · next body' heq1 =>
      rw [h1] at heq1
      cases heq1
      rw [if_neg (by simpa using hseen)]
      split
      · next heq2 => rw [h2] at heq2; cases heq2
      · next quote value heq2 =>
        rw [h2] at heq2
        cases heq2
        rw [if_pos (by simpa using a.isQuote)]
        split
        · next heq3 => rw [h3] at heq3; cases heq3
        · next heq3 =>
          rw [h3] at heq3
          cases heq3
          rw [hvalue]
    · next hne1 => exact absurd h1 (hne1 _)

/-! ## All attributes -/

/-- **All attributes of a tag are read as they are written.** The keys that were read already are
none of those to come. -/
theorem attributesFrom_texts {attributes : List AttributeText}
    (hnodup : (attributes.map AttributeText.key).Nodup) {blanks : List Char}
    (hblanks : ∀ c ∈ blanks, isSpace c = true) {seen : List (List Char)}
    (hseen : ∀ a ∈ attributes, a.key ∉ seen) :
    attributesFrom seen (attributes.flatMap AttributeText.chars ++ blanks) =
      attributes.map fun a => (a.key, a.value) := by
  induction attributes generalizing seen with
  | nil =>
    rw [attributesFrom, List.flatMap_nil, List.nil_append]
    split
    · rfl
    · next heq => rw [List.dropWhile_eq_nil_iff.mpr hblanks] at heq; cases heq
  | cons a attributes ih =>
    rw [List.map_cons, List.nodup_cons] at hnodup
    rw [List.flatMap_cons, List.append_assoc, attributesFrom_text a (hseen a (by simp)),
      List.map_cons]
    refine congrArg _ (ih hnodup.2 fun b hb => ?_)
    rw [List.mem_cons, not_or]
    exact ⟨fun e => hnodup.1 (e ▸ List.mem_map_of_mem hb), hseen b (by simp [hb])⟩

/-- Attributes of trees are written in one of these ways. -/
theorem exists_texts {attributes : List (String × String)}
    (hname : ∀ a ∈ attributes, isName a.1 = true) (hvalue : ∀ a ∈ attributes, '"' ∉ a.2.toList) :
    ∃ texts : List AttributeText,
      texts.flatMap AttributeText.chars = attributes.flatMap attributeChars ∧
      (texts.map fun a => (a.key, a.value)) = attributes.map fun a => (a.1.toList, a.2.toList) := by
  induction attributes with
  | nil => exact ⟨[], rfl, rfl⟩
  | cons a attributes ih =>
    rw [List.forall_mem_cons] at hname hvalue
    obtain ⟨texts, hchars, hpairs⟩ := ih hname.2 hvalue.2
    obtain ⟨hne, hkey⟩ := isName_iff.mp hname.1
    refine ⟨⟨[' '], a.1.toList, [], [], '"', a.2.toList, List.cons_ne_nil _ _,
      List.forall_mem_singleton.mpr rfl, List.forall_mem_nil _,
      ⟨hne, fun c hc => isMark_of_isNameChar (hkey c hc)⟩, Or.inl rfl, hvalue.1⟩ :: texts, ?_, ?_⟩
    · rw [List.flatMap_cons, List.flatMap_cons, hchars]
      simp [AttributeText.chars, attributeChars]
    · rw [List.map_cons, List.map_cons, hpairs]

theorem nodup_texts {texts : List AttributeText} {attributes : List (String × String)}
    (h : (texts.map fun a => (a.key, a.value)) = attributes.map fun a => (a.1.toList, a.2.toList))
    (hnodup : (attributes.map Prod.fst).Nodup) : (texts.map AttributeText.key).Nodup := by
  have hkeys : texts.map AttributeText.key = (attributes.map Prod.fst).map String.toList := by
    simpa [Function.comp_def] using congrArg (List.map Prod.fst) h
  rw [hkeys]
  exact List.Pairwise.map _ (fun _ _ hne h => hne (String.toList_injective h)) hnodup

theorem attributesFrom_written {attributes : List (String × String)}
    (hname : ∀ a ∈ attributes, isName a.1 = true) (hvalue : ∀ a ∈ attributes, '"' ∉ a.2.toList)
    (hnodup : (attributes.map Prod.fst).Nodup) :
    attributesFrom [] (attributes.flatMap attributeChars) =
      attributes.map fun a => (a.1.toList, a.2.toList) := by
  obtain ⟨texts, hchars, hpairs⟩ := exists_texts hname hvalue
  have hread : attributesFrom [] (texts.flatMap AttributeText.chars ++ []) =
      texts.map fun a => (a.key, a.value) :=
    attributesFrom_texts (nodup_texts hpairs hnodup) (List.forall_mem_nil _) (by simp)
  rwa [List.append_nil, hchars, hpairs] at hread

/-- The attributes of a tag with their values. -/
def Tag.attributes (t : Tag) : List (String × String) :=
  (attributesFrom [] t.rest).map fun a => (String.ofList a.1, String.ofList (unescape a.2))

/-- The value of an attribute of a tag, by its full name. -/
def Tag.value? (t : Tag) (name : String) : Option String := t.attributes.lookup name

/-- The tag of an element as it is written. -/
def tagOf (name : String) (attributes : List (String × String)) : Tag :=
  ⟨name.toList, attributes.flatMap attributeChars⟩

theorem Tag.attributes_tagOf {attributes : List (String × String)} (h : SoundAttributes attributes)
    (name : String) :
    (tagOf name attributes).attributes = attributes.map fun a => (a.1, meaning a.2) := by
  rw [Tag.attributes, tagOf, attributesFrom_written (fun a ha => h.isName ha)
    (fun a ha => h.quote_not_mem ha) h.nodup, List.map_map]
  refine List.map_congr_left fun a _ => ?_
  rw [Function.comp_apply, String.ofList_toList, meaning]

theorem Tag.value?_tagOf {attributes : List (String × String)} (h : SoundAttributes attributes)
    (name key : String) :
    (tagOf name attributes).value? key = (attributes.lookup key).map meaning := by
  have hlookup : ∀ as : List (String × String),
      (as.map fun a => (a.1, meaning a.2)).lookup key = (as.lookup key).map meaning := by
    intro as
    induction as with
    | nil => rfl
    | cons a as ih =>
      rw [List.map_cons, List.lookup_cons, List.lookup_cons, ih]
      split <;> rfl
  rw [Tag.value?, Tag.attributes_tagOf h, hlookup]

end SheetMarkup.Xml
