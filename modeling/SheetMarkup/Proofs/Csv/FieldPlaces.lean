import SheetMarkup.Proofs.Csv.Search
import SheetMarkup.Proofs.Csv.Passages

/-!
# Places of fields

Between its separators every field of a record has a text of its own, with quotes or without. The reader
looks for the value of a field behind the last value that it found, not between the separators, so what
it finds may belong to another field.

* `separate`, `Passage.fieldTexts`: the texts between the separators of a record;
* `intercalate_separate`, `scan_cases`, **`leftOf_recordAt`**: they make up the record, and each field
  is what is left of one of them;
* `ownPlaces`, `KeepsFields`: every cell has its place in the text of its own field, or has the
  whole record;
* `Unmistaken`: no value is met for the first time in front of its own field;
* `IsPlain`: a field that is written as it is, up to quotes around it;
* `keeps_found_iff`: the place of one field (the step); `keepsFields_cellsFrom`: all fields of a record
  (the run);
* `unmistaken_of_isPlain`: plain fields are not taken for others;
* **`keepsFields_iff`**: what a record needs for its places to be those of the fields.
-/

namespace SheetMarkup.Csv

open Text (byteLength byteLength_append byteLength_cons)

/-! ## The texts between the separators -/

/-- Where the scan of a field stands behind a character that is no separator. -/
def Mode.next (mode : Mode) (c : Char) : Mode :=
  if mode = .quoted then if c == '"' then .closing else .quoted
  else if c == '"' && (mode = .start || mode = .closing) then .quoted else .plain

/-- The texts between the separators. A comma between quotes separates nothing. -/
def separate : Mode → List Char → List (List Char)
  | _, [] => [[]]
  | mode, c :: cs =>
    if mode ≠ .quoted ∧ c = ',' then [] :: separate .start cs
    else (separate (mode.next c) cs).modifyHead (c :: ·)

theorem separate_ne_nil (mode : Mode) (cs : List Char) : separate mode cs ≠ [] := by
  induction cs generalizing mode with
  | nil => simp [separate]
  | cons c cs ih =>
    rw [separate]
    split_ifs
    · exact List.cons_ne_nil _ _
    · obtain ⟨text, texts, h⟩ := List.exists_cons_of_ne_nil (ih (mode.next c))
      rw [h]
      exact List.cons_ne_nil _ _

theorem intercalate_modifyHead (front : List Char) {texts : List (List Char)} (hne : texts ≠ []) :
    [','].intercalate (texts.modifyHead (front ++ ·)) = front ++ [','].intercalate texts := by
  obtain ⟨text, texts, rfl⟩ := List.exists_cons_of_ne_nil hne
  cases texts with
  | nil => simp
  | cons next texts => simp [List.intercalate_cons_cons]

theorem intercalate_cons (text : List Char) (texts : List (List Char)) :
    ∃ tail, [','].intercalate (text :: texts) = text ++ tail ∧
      (texts ≠ [] → tail = [','] ++ [','].intercalate texts) := by
  cases texts with
  | nil => exact ⟨[], by simp, fun h => absurd rfl h⟩
  | cons next texts =>
    refine ⟨_, ?_, fun _ => rfl⟩
    rw [List.intercalate_cons_cons, List.append_assoc]

theorem infix_intercalate {text : List Char} {texts : List (List Char)} (h : text ∈ texts) :
    text <:+: [','].intercalate texts := by
  induction texts with
  | nil => cases h
  | cons first texts ih =>
    obtain ⟨tail, hjoin, htail⟩ := intercalate_cons first texts
    rw [hjoin]
    rcases List.mem_cons.mp h with rfl | h
    · exact (List.prefix_append _ _).isInfix
    · rw [htail (List.ne_nil_of_mem h)]
      refine (ih h).trans ?_
      exact ((List.suffix_append _ _).trans (List.suffix_append _ _)).isInfix

theorem intercalate_separate (mode : Mode) (cs : List Char) :
    [','].intercalate (separate mode cs) = cs := by
  induction cs generalizing mode with
  | nil => rfl
  | cons c cs ih =>
    rw [separate]
    split_ifs with h
    · obtain ⟨text, texts, htexts⟩ := List.exists_cons_of_ne_nil (separate_ne_nil .start cs)
      have hjoin := ih .start
      rw [htexts] at hjoin ⊢
      rw [List.intercalate_cons_cons, hjoin, h.2]
      rfl
    · exact (intercalate_modifyHead [c] (separate_ne_nil _ _)).trans (congrArg _ (ih _))

/-- Behind the last separator a text goes on. -/
theorem separate_append {ds : List Char} (hds : ',' ∉ ds) (mode : Mode) (cs : List Char) :
    ∃ texts text, separate mode cs = texts ++ [text] ∧
      separate mode (cs ++ ds) = texts ++ [text ++ ds] := by
  induction cs generalizing mode with
  | nil =>
    refine ⟨[], [], rfl, ?_⟩
    induction ds generalizing mode with
    | nil => rfl
    | cons d ds ih =>
      rw [List.mem_cons, not_or] at hds
      rw [List.nil_append] at ih ⊢
      rw [separate, if_neg (fun h => hds.1 h.2.symm), ih hds.2]
      rfl
  | cons c cs ih =>
    rw [List.cons_append, separate, separate]
    split_ifs
    · obtain ⟨texts, text, h, happend⟩ := ih .start
      exact ⟨[] :: texts, text, by rw [h]; rfl, by rw [happend]; rfl⟩
    · obtain ⟨texts, text, h, happend⟩ := ih (mode.next c)
      rw [h, happend]
      cases texts with
      | nil => exact ⟨[], c :: text, rfl, rfl⟩
      | cons first texts => exact ⟨(c :: first) :: texts, text, rfl, rfl⟩

theorem Mode.next_ne_start (mode : Mode) (c : Char) : mode.next c ≠ .start := by
  rw [Mode.next]
  split_ifs <;> decide

/-- **What the scan does with a character** (the step). A separator ends a field and a break the record;
any other character stays in the open field or is left out. -/
theorem scan_cases {mode : Mode} {field : List Char} (hstart : mode = .start → field = [])
    (fields : List (List Char)) (used : List Char) (c : Char) (cs : List Char) :
    ((mode ≠ .quoted ∧ c = ',') ∧ scan mode field fields used (c :: cs) =
      scan .start [] (field.reverse :: fields) (c :: used) cs) ∨
    (¬ (mode ≠ .quoted ∧ c = ',') ∧
      (scan mode field fields used (c :: cs) = ⟨(field.reverse :: fields).reverse, c :: used, cs⟩ ∨
        ∃ field', (field' = field ∨ field' = c :: field) ∧ scan mode field fields used (c :: cs) =
          scan (mode.next c) field' fields (c :: used) cs)) := by
  rw [scan]
  split_ifs with hquoted hquote hcomma hbreak hopen hdouble
  · exact .inr ⟨by simp [hquoted], .inr ⟨field, .inl rfl, by simp [Mode.next, hquoted, hquote]⟩⟩
  · exact .inr ⟨by simp [hquoted], .inr ⟨_, .inr rfl, by simp [Mode.next, hquoted, hquote]⟩⟩
  · exact .inl ⟨⟨hquoted, by simpa using hcomma⟩, rfl⟩
  · exact .inr ⟨fun h => hcomma (by simp [h.2]), .inl rfl⟩
  · obtain ⟨rfl, hmode⟩ : c = '"' ∧ mode = .start := by simpa using hopen
    refine .inr ⟨by simp, .inr ⟨field, .inl rfl, ?_⟩⟩
    rw [hstart hmode, hmode]
    rfl
  · obtain ⟨rfl, rfl⟩ : c = '"' ∧ mode = .closing := by simpa using hdouble
    exact .inr ⟨by simp, .inr ⟨_, .inr rfl, rfl⟩⟩
  · refine .inr ⟨fun h => hcomma (by simp [h.2]), .inr ⟨_, .inr rfl, ?_⟩⟩
    have hplain : mode.next c = .plain := by
      rw [Mode.next, if_neg hquoted, if_neg]
      rw [Bool.and_or_distrib_left, Bool.or_eq_true]
      exact fun h => h.elim hopen hdouble
    rw [hplain]

/-- The fields of the record, the first of which goes on with an open field, are what is left of the
texts between the separators: reading only takes quotes away. -/
def Reads (r : Record) (mode : Mode) (field : List Char) (fields : List (List Char))
    (used : List Char) : Prop :=
  ∃ read value values text texts, r.used = read.reverse ++ used ∧
    r.fields = fields.reverse ++ (field.reverse ++ value) :: values ∧
      separate mode read = text :: texts ∧ value.Sublist text ∧
        List.Forall₂ List.Sublist values texts

theorem reads_scan (mode : Mode) (field : List Char) (fields : List (List Char)) (used cs : List Char)
    (hstart : mode = .start → field = []) :
    Reads (scan mode field fields used cs) mode field fields used := by
  induction cs generalizing mode field fields used with
  | nil => exact ⟨[], [], [], [], [], rfl, by simp [scan], rfl, .refl _, .nil⟩
  | cons c cs ih =>
    rcases scan_cases hstart fields used c cs with ⟨hc, hscan⟩ | ⟨hc, hscan | ⟨field', hfield, hscan⟩⟩
    · obtain ⟨read, value, values, text, texts, hused, hfields, htexts, hvalue, hvalues⟩ :=
        ih .start [] (field.reverse :: fields) (c :: used) fun _ => rfl
      rw [hscan]
      refine ⟨c :: read, [], value :: values, [], text :: texts, by rw [hused]; simp,
        by rw [hfields]; simp, ?_, .refl _, .cons hvalue hvalues⟩
      rw [separate, if_pos hc, htexts]
    · rw [hscan]
      refine ⟨[c], [], [], [c], [], by simp, by simp, ?_, List.nil_sublist _, .nil⟩
      rw [separate, if_neg hc]
      rfl
    · obtain ⟨read, value, values, text, texts, hused, hfields, htexts, hvalue, hvalues⟩ :=
        ih (mode.next c) field' fields (c :: used) fun h => absurd h (mode.next_ne_start c)
      have hseparate : separate mode (c :: read) = (c :: text) :: texts := by
        rw [separate, if_neg hc, htexts]
        rfl
      rw [hscan]
      rcases hfield with rfl | rfl
      · exact ⟨c :: read, value, values, c :: text, texts, by rw [hused]; simp, hfields, hseparate,
          hvalue.cons c, hvalues⟩
      · exact ⟨c :: read, c :: value, values, c :: text, texts, by rw [hused]; simp,
          by rw [hfields]; simp, hseparate, hvalue.cons_cons c, hvalues⟩

/-- The value is what is left of the text. The text of the last field of a record may lack line breaks
that belong to the value, as the text of the record ends without any. -/
def LeftOf (text value : List Char) : Prop :=
  ∃ breaks, (∀ c ∈ breaks, isBreak c = true) ∧ value.Sublist (text ++ breaks)

theorem leftOf_recordAt (cs : List Char) :
    List.Forall₂ LeftOf (separate .start (recordAt cs).content) (recordAt cs).fields := by
  obtain ⟨read, value, values, text, texts, hused, hfields, htexts, hvalue, hvalues⟩ :=
    reads_scan .start [] [] [] cs fun _ => rfl
  have hsublist : List.Forall₂ List.Sublist (recordAt cs).fields (separate .start read) := by
    rw [htexts, recordAt, hfields]
    exact .cons hvalue hvalues
  obtain ⟨breaks, hbreaks, hcontent, -⟩ := (recordAt cs).used_eq
  have hread : read = (recordAt cs).content ++ breaks := by
    rw [← hcontent, recordAt, hused, List.append_nil, List.reverse_reverse]
  obtain ⟨texts', last, hseparate, happend⟩ :=
    separate_append (fun h => absurd (hbreaks _ h) (by decide)) .start (recordAt cs).content
  -- only the text of the last field goes on behind the record
  rw [hread, happend, ← List.forall₂_reverse_iff, List.reverse_append, List.reverse_singleton,
    List.singleton_append, List.forall₂_cons_right_iff] at hsublist
  obtain ⟨field, fields, hlast, hfront, hsplit⟩ := hsublist
  rw [hseparate, ← List.forall₂_reverse_iff, List.reverse_append, List.reverse_singleton,
    List.singleton_append, hsplit]
  refine .cons ⟨breaks, hbreaks, hlast⟩ (hfront.flip.imp fun text value h => ?_)
  exact ⟨[], by simp, by simpa using h⟩

theorem sublist_of_leftOf {text value : List Char} (h : LeftOf text value)
    (hlast : ∀ c ∈ value.getLast?, isBreak c = false) : value.Sublist text := by
  obtain ⟨breaks, hbreaks, hsublist⟩ := h
  obtain ⟨front, behind, rfl, hfront, hbehind⟩ := List.sublist_append_iff.mp hsublist
  cases hb : behind.getLast? with
  | none =>
    rw [List.getLast?_eq_none_iff.mp hb, List.append_nil]
    exact hfront
  | some c =>
    have hmem : c ∈ behind := List.mem_of_getLast? hb
    have hc := hlast c (by rw [List.getLast?_append, hb]; rfl)
    rw [hbreaks c (hbehind.subset hmem)] at hc
    cases hc

/-! ## The texts of a record -/

namespace Passage

variable (p : Passage)

/-- The texts of the fields, between the separators of the record. The mark of a sheet belongs to the
first of them. -/
def fieldTexts : List (List Char) := (separate .start p.content).modifyHead (p.mark ++ ·)

theorem intercalate_fieldTexts : [','].intercalate p.fieldTexts = p.text := by
  rw [fieldTexts, intercalate_modifyHead _ (separate_ne_nil _ _), intercalate_separate]
  rfl

/-- The passage is a record as it is read. -/
def IsRead : Prop := ∃ c cs, isBreak c = false ∧ p.content = (recordAt (c :: cs)).content ∧
  p.fields = (recordAt (c :: cs)).fields

variable {p}

theorem IsRead.leftOf (h : p.IsRead) : List.Forall₂ LeftOf p.fieldTexts p.fields := by
  obtain ⟨c, cs, -, hcontent, hfields⟩ := h
  have hleft := leftOf_recordAt (c :: cs)
  rw [← hcontent, ← hfields] at hleft
  obtain ⟨text, texts, htexts⟩ := List.exists_cons_of_ne_nil (separate_ne_nil .start p.content)
  rw [fieldTexts, htexts, List.modifyHead_cons]
  rw [htexts, List.forall₂_cons_left_iff] at hleft
  obtain ⟨value, values, ⟨breaks, hbreaks, hvalue⟩, hvalues, hsplit⟩ := hleft
  rw [hsplit]
  refine .cons ⟨breaks, hbreaks, ?_⟩ hvalues
  rw [List.append_assoc]
  exact List.sublist_append_of_sublist_right hvalue

theorem IsRead.getLast (h : p.IsRead) : ∀ c ∈ p.text.getLast?, isBreak c = false := by
  obtain ⟨c, cs, hc, hcontent, -⟩ := h
  obtain ⟨⟨content, hcons⟩, -⟩ := content_recordAt hc cs
  intro d hd
  rw [text, hcontent, List.getLast?_append, hcons, List.getLast?_cons, Option.some_or,
    ← List.getLast?_cons, ← hcons, Record.content, List.getLast?_reverse] at hd
  have hhead := List.head?_dropWhile_not isBreak (recordAt (c :: cs)).used
  rw [Option.mem_def.mp hd] at hhead
  simpa using hhead

theorem IsRead.eq_text (h : p.IsRead) {text value : List Char}
    (hmem : (text, value) ∈ p.fieldTexts.zip p.fields) (hvalue : value = p.text) : text = p.text := by
  have hleft : LeftOf text value := List.forall₂_zip h.leftOf hmem
  have hsublist : value.Sublist text := sublist_of_leftOf hleft (hvalue ▸ h.getLast)
  have hinfix : text <:+: p.text := by
    rw [← p.intercalate_fieldTexts]
    exact infix_intercalate (List.of_mem_zip hmem).1
  exact hinfix.eq_of_length (Nat.le_antisymm hinfix.length_le (hvalue ▸ hsublist.length_le))

end Passage

theorem isRead_of_mem_passagesFrom {offset : Nat} {text : List Char} {p : Passage}
    (h : p ∈ passagesFrom offset text) : p.IsRead := by
  induction offset, text using passagesFrom.induct with
  | case1 offset text hd =>
    rw [passagesFrom_of_breaks hd] at h
    cases h
  | case2 offset text c cs hd _ _ ih =>
    rw [passagesFrom_of_cons hd, List.mem_cons] at h
    rcases h with rfl | h
    · exact ⟨c, cs, not_of_dropWhile hd, rfl, rfl⟩
    · exact ih h

theorem isRead_of_mem_passages {source : List Char} {p : Passage} (h : p ∈ passages source) :
    p.IsRead := by
  by_cases hmark : source.head? = some '\ufeff'
  · obtain ⟨cs, rfl⟩ := List.head?_eq_some_iff.mp hmark
    rcases passages_of_marked cs with ⟨-, hpassages, -⟩ | ⟨c, body, hd, hpassages, -⟩
    · rw [hpassages] at h
      cases h
    · rw [hpassages, List.mem_cons] at h
      rcases h with rfl | h
      · exact ⟨c, body, not_of_dropWhile hd, rfl, rfl⟩
      · exact isRead_of_mem_passagesFrom h
  · rw [passages_of_unmarked hmark] at h
    exact isRead_of_mem_passagesFrom h

/-! ## Places -/

/-- The places of texts with commas between them, of which the first starts at an offset. -/
def ownPlaces : Nat → List (List Char) → List Span
  | _, [] => []
  | start, text :: texts =>
    ⟨start, start + byteLength text⟩ :: ownPlaces (start + byteLength text + 1) texts

/-- The place of a cell is the whole record, or lies in the text of its field. -/
def Keeps (whole own : Span) (c : Cell) : Prop :=
  c.span = some whole ∨ ∃ s ∈ c.span, own.start ≤ s.start ∧ s.stop ≤ own.stop

instance (whole own : Span) (c : Cell) : Decidable (Keeps whole own c) :=
  inferInstanceAs (Decidable (_ ∨ ∃ s ∈ c.span, own.start ≤ s.start ∧ s.stop ≤ own.stop))

/-- No cell of the record has its place in the text of another field. -/
def KeepsFields (p : Passage) (row : Row) : Prop :=
  List.Forall₂ (Keeps p.whole) (ownPlaces p.start p.fieldTexts) row.cells

instance (p : Passage) (row : Row) : Decidable (KeepsFields p row) :=
  inferInstanceAs (Decidable (List.Forall₂ _ _ _))

/-- No value is taken for another. The values are looked up one after the other: behind the value that
was found last there is a gap and then the texts of the fields that are left. Each value is empty, or
stands nowhere in what is left, or is met for the first time in the text of its own field. -/
inductive Unmistaken : List Char → List (List Char) → List (List Char) → Prop
  | nil {gap : List Char} : Unmistaken gap [] []
  | empty {gap text : List Char} {texts values : List (List Char)}
      (h : Unmistaken (gap ++ text ++ [',']) texts values) :
      Unmistaken gap (text :: texts) ([] :: values)
  | own {gap front value behind : List Char} {texts values : List (List Char)} (hne : value ≠ [])
      (hfirst : FirstBehind value (gap ++ front)) (h : Unmistaken (behind ++ [',']) texts values) :
      Unmistaken gap ((front ++ (value ++ behind)) :: texts) (value :: values)
  | nowhere {gap text value : List Char} {texts values : List (List Char)}
      (hnone : ¬ value <:+: gap ++ [','].intercalate (text :: texts))
      (h : Unmistaken (gap ++ text ++ [',']) texts values) :
      Unmistaken gap (text :: texts) (value :: values)

theorem FirstBehind.unique {value front front' tail tail' : List Char} (hne : value ≠ [])
    (h : FirstBehind value front) (h' : FirstBehind value front')
    (heq : front ++ (value ++ tail) = front' ++ (value ++ tail')) : front = front' ∧ tail = tail' := by
  have hfind : find? value 0 (front ++ (value ++ tail)) = some (0 + byteLength front, tail) :=
    (find?_eq_some hne).mpr ⟨front, rfl, h, rfl⟩
  have hfind' : find? value 0 (front ++ (value ++ tail)) = some (0 + byteLength front', tail') :=
    (find?_eq_some hne).mpr ⟨front', heq, h', rfl⟩
  rw [hfind', Option.some.injEq, Prod.mk.injEq] at hfind
  obtain ⟨-, rfl⟩ := hfind
  exact ⟨List.append_cancel_right heq, rfl⟩

theorem byteLength_eq_zero {cs : List Char} (h : byteLength cs = 0) : cs = [] := by
  cases cs with
  | nil => rfl
  | cons c cs =>
    have hpos := c.utf8Size_pos
    rw [byteLength_cons] at h
    omega

theorem exists_between {gap text tail front value rest : List Char}
    (heq : gap ++ (text ++ tail) = front ++ (value ++ rest))
    (hstart : byteLength gap ≤ byteLength front)
    (hstop : byteLength (front ++ value) ≤ byteLength (gap ++ text)) :
    ∃ before behind, front = gap ++ before ∧ text = before ++ (value ++ behind) ∧
      rest = behind ++ tail := by
  have hcut : ∀ {xs ys xs' ys' : List Char}, xs ++ ys = xs' ++ ys' → byteLength xs ≤ byteLength xs' →
      ∃ between, xs' = xs ++ between ∧ ys = between ++ ys' := by
    intro xs ys xs' ys' h hle
    rcases List.append_eq_append_iff.mp h with ⟨between, h1, h2⟩ | ⟨between, rfl, rfl⟩
    · exact ⟨between, h1, h2⟩
    · rw [byteLength_append] at hle
      have hbetween : between = [] := byteLength_eq_zero (by omega)
      exact ⟨[], by simp [hbetween], by rw [hbetween]; rfl⟩
  obtain ⟨before, rfl, htext⟩ := hcut heq hstart
  rw [← List.append_assoc before] at htext
  obtain ⟨behind, rfl, rfl⟩ := hcut htext.symm (by simp only [byteLength_append] at hstop ⊢; omega)
  exact ⟨before, behind, rfl, List.append_assoc _ _ _, rfl⟩

/-- A value that is found has its place in the text of its field if it stands there. -/
theorem keeps_found_iff {all done gap text tail front value rest : List Char}
    (hall : all = done ++ (gap ++ (text ++ tail)))
    (hfound : gap ++ (text ++ tail) = front ++ (value ++ rest)) (hwhole : value = all → text = all)
    (start : Nat) :
    Keeps ⟨start, start + byteLength all⟩
        ⟨start + byteLength (done ++ gap), start + byteLength (done ++ gap) + byteLength text⟩
        ((cellOf value).withSpan ⟨start + byteLength done + byteLength front,
          start + byteLength done + byteLength (front ++ value)⟩) ↔
      ∃ before behind, front = gap ++ before ∧ text = before ++ (value ++ behind) ∧
        rest = behind ++ tail := by
  constructor
  · rintro (h | ⟨s, hs, hstart, hstop⟩)
    · -- the value takes up the whole record
      obtain ⟨hstart, hstop⟩ := Span.mk.inj (Option.some.inj h)
      have hlength := congrArg byteLength hall
      rw [hfound] at hlength
      simp only [byteLength_append] at hstop hlength
      have hdone : done = [] := byteLength_eq_zero (by omega)
      have hfront : front = [] := byteLength_eq_zero (by omega)
      have hrest : rest = [] := byteLength_eq_zero (by omega)
      have hvalue : value = all := by rw [hall, hfound, hdone, hfront, hrest]; simp
      have htext := hwhole hvalue
      have hlength := congrArg byteLength hall
      rw [← htext] at hlength
      simp only [byteLength_append] at hlength
      have hgap : gap = [] := byteLength_eq_zero (by omega)
      have htail : tail = [] := byteLength_eq_zero (by omega)
      exact ⟨[], [], by rw [hfront, hgap]; rfl, by rw [htext, hvalue]; simp, by rw [hrest, htail]; rfl⟩
    · obtain rfl := Option.some.inj hs
      simp only [byteLength_append] at hstart hstop
      refine exists_between hfound (by omega) ?_
      simp only [byteLength_append]
      omega
  · rintro ⟨before, behind, rfl, rfl, -⟩
    refine .inr ⟨_, rfl, ?_, ?_⟩
    · simp only [byteLength_append]
      omega
    · simp only [byteLength_append]
      omega

/-- **The places of a record are those of its fields exactly if no value is taken for another.** The
induction is on the fields; the search has got behind `done`. -/
theorem keepsFields_cellsFrom {all done gap rest : List Char} {texts values : List (List Char)}
    (hlength : texts.length = values.length)
    (hsplit : texts ≠ [] → all = done ++ rest ∧ rest = gap ++ [','].intercalate texts)
    (hwhole : ∀ x ∈ texts.zip values, x.2 = all → x.1 = all) (start : Nat) :
    List.Forall₂ (Keeps ⟨start, start + byteLength all⟩)
        (ownPlaces (start + byteLength (done ++ gap)) texts)
        (cellsFrom ⟨start, start + byteLength all⟩ (start + byteLength done) rest values) ↔
      Unmistaken gap texts values := by
  induction texts generalizing done gap rest values with
  | nil =>
    obtain rfl := List.eq_nil_of_length_eq_zero hlength.symm
    exact ⟨fun _ => .nil, fun _ => .nil⟩
  | cons text texts ih =>
    obtain ⟨value, values, rfl⟩ := List.exists_cons_of_length_eq_add_one hlength.symm
    obtain ⟨hall, hrest⟩ := hsplit (List.cons_ne_nil _ _)
    obtain ⟨tail, hjoin, htail⟩ := intercalate_cons text texts
    rw [List.zip_cons_cons, List.forall_mem_cons] at hwhole
    rw [ownPlaces]
    rcases cellsFrom_cases ⟨start, start + byteLength all⟩ (start + byteLength done) rest value values
      with ⟨hnot, hcells⟩ | ⟨hne, front, behind, hfound, hfirst, hcells⟩
    · -- the cell has the whole record as its place
      have hnext := @ih done (gap ++ text ++ [',']) rest values (Nat.succ.inj hlength)
        (fun hne => ⟨hall, by rw [hrest, hjoin, htail hne]; simp⟩) hwhole.2
      have hstart : start + byteLength (done ++ (gap ++ text ++ [','])) =
          start + byteLength (done ++ gap) + byteLength text + 1 := by
        have hcomma : ','.utf8Size = 1 := by decide
        simp only [byteLength_append, byteLength_cons, Text.byteLength_nil, hcomma]
        omega
      rw [hcells, List.forall₂_cons, ← hstart, hnext]
      constructor
      · rintro ⟨-, h⟩
        by_cases hne : value = []
        · subst hne
          exact .empty h
        · exact .nowhere (hrest ▸ hnot.resolve_left hne) h
      · intro h
        refine ⟨.inl rfl, ?_⟩
        cases h with
        | empty h => exact h
        | nowhere _ h => exact h
        | @own _ before _ behind _ _ hne hfirst h =>
          refine absurd ?_ (hnot.resolve_left hne)
          rw [hrest, hjoin]
          exact ⟨gap ++ before, behind ++ tail, by simp⟩
    · have hfound' : gap ++ (text ++ tail) = front ++ (value ++ behind) := by
        rw [← hjoin, ← hrest, hfound]
      have hkeeps := keeps_found_iff (hall.trans (by rw [hrest, hjoin])) hfound' hwhole.1 start
      have hnext : ∀ before b, front = gap ++ before → text = before ++ (value ++ b) →
          behind = b ++ tail → (List.Forall₂ (Keeps ⟨start, start + byteLength all⟩)
            (ownPlaces (start + byteLength (done ++ gap) + byteLength text + 1) texts)
            (cellsFrom ⟨start, start + byteLength all⟩
              (start + byteLength done + byteLength (front ++ value)) behind values) ↔
            Unmistaken (b ++ [',']) texts values) := by
        rintro before b rfl rfl rfl
        have hdone : start + byteLength (done ++ (gap ++ before ++ value)) =
            start + byteLength done + byteLength (gap ++ before ++ value) := by
          rw [byteLength_append done, Nat.add_assoc]
        have hown : start + byteLength (done ++ (gap ++ before ++ value) ++ (b ++ [','])) =
            start + byteLength (done ++ gap) + byteLength (before ++ (value ++ b)) + 1 := by
          have hcomma : ','.utf8Size = 1 := by decide
          simp only [byteLength_append, byteLength_cons, Text.byteLength_nil, hcomma]
          omega
        rw [← hdone, ← hown]
        refine ih (Nat.succ.inj hlength) (fun hne => ⟨?_, ?_⟩) hwhole.2
        · rw [hall, hfound]
          simp
        · rw [htail hne]
          simp
      rw [hcells, List.forall₂_cons, hkeeps]
      constructor
      · rintro ⟨⟨before, b, hfront, htext, hbehind⟩, h⟩
        have hown := (hnext before b hfront htext hbehind).mp h
        rw [htext]
        exact .own hne (hfront ▸ hfirst) hown
      · intro h
        cases h with
        | empty => exact absurd rfl hne
        | nowhere hnone =>
          refine absurd ?_ hnone
          rw [← hrest, hfound]
          exact ⟨front, behind, by simp⟩
        | @own _ before _ b _ _ _ hfirst' h =>
          have heq : front ++ (value ++ behind) = gap ++ before ++ (value ++ (b ++ tail)) := by
            rw [← hfound']
            simp
          obtain ⟨hfront, hbehind⟩ := FirstBehind.unique hne hfirst hfirst' heq
          exact ⟨⟨before, b, hfront, rfl, hbehind⟩, (hnext before b hfront rfl hbehind).mpr h⟩

/-! ## Fields that are written as they are -/

/-- The characters between which the values of fields stand. -/
def isDelimiter (c : Char) : Bool := c == ',' || c == '"' || isBreak c || c == '\ufeff'

/-- The value stands in the text as it is, with delimiters only around it, and it is empty or has a
character that is none. -/
def IsPlain (text value : List Char) : Prop :=
  ∃ front behind, text = front ++ (value ++ behind) ∧ (∀ c ∈ front, isDelimiter c = true) ∧
    (∀ c ∈ behind, isDelimiter c = true) ∧ (value = [] ∨ ∃ c ∈ value, isDelimiter c = false)

/-- Behind delimiters a value with another character is not met too early. -/
theorem firstBehind_of_delimiters {value front : List Char}
    (hvalue : ∃ c ∈ value, isDelimiter c = false) (hfront : ∀ c ∈ front, isDelimiter c = true) : FirstBehind value front := by
  obtain ⟨c, hc, hother⟩ := hvalue
  have hne : value ≠ [] := List.ne_nil_of_mem hc
  induction front with
  | nil => exact firstBehind_nil hne
  | cons d front ih =>
    refine (firstBehind_cons hne).mpr ⟨?_, ih fun c hc => hfront c (List.mem_cons_of_mem d hc)⟩
    rintro ⟨tail, htail⟩
    -- one delimiter more would stand in front of the first other character
    have hshort : (value.takeWhile isDelimiter).length ≠ value.length := by
      intro h
      have hall := (List.takeWhile_prefix isDelimiter (l := value)).eq_of_length h
      rw [List.takeWhile_eq_self_iff] at hall
      rw [hall c hc] at hother
      cases hother
    have hleft : (value ++ tail).takeWhile isDelimiter = value.takeWhile isDelimiter := by
      rw [List.takeWhile_append, if_neg hshort]
    have hright : (d :: (front ++ value)).takeWhile isDelimiter =
        d :: (front ++ value.takeWhile isDelimiter) := by
      rw [← List.cons_append, List.takeWhile_append_of_pos hfront]
      rfl
    have hlength := congrArg List.length (hleft.symm.trans ((congrArg _ htail).trans hright))
    simp only [List.length_cons, List.length_append] at hlength
    omega

/-- **Fields that are written as they are, are not taken for others.** -/
theorem unmistaken_of_isPlain {texts values : List (List Char)} (h : List.Forall₂ IsPlain texts values)
    {gap : List Char} (hgap : ∀ c ∈ gap, isDelimiter c = true) : Unmistaken gap texts values := by
  induction h generalizing gap with
  | nil => exact .nil
  | @cons text value texts values hplain _ ih =>
    obtain ⟨front, behind, rfl, hfront, hbehind, rfl | hvalue⟩ := hplain
    · refine .empty (ih ?_)
      simp only [List.nil_append, List.forall_mem_append, List.forall_mem_singleton]
      exact ⟨⟨hgap, hfront, hbehind⟩, rfl⟩
    · obtain ⟨c, hc, -⟩ := id hvalue
      refine .own (List.ne_nil_of_mem hc) (firstBehind_of_delimiters hvalue ?_) (ih ?_)
      · exact List.forall_mem_append.mpr ⟨hgap, hfront⟩
      · exact List.forall_mem_append.mpr ⟨hbehind, List.forall_mem_singleton.mpr rfl⟩

/-! ## All records -/

theorem keepsFields_of_isRead {p : Passage} (h : p.IsRead) {row : Row} (hrow : row.cells = p.cells) :
    KeepsFields p row ↔ Unmistaken [] p.fieldTexts p.fields := by
  have hjoin : p.fieldTexts ≠ [] →
      p.text = [] ++ p.text ∧ p.text = [] ++ [','].intercalate p.fieldTexts :=
    fun _ => ⟨rfl, p.intercalate_fieldTexts.symm⟩
  have hkeeps := keepsFields_cellsFrom h.leftOf.length_eq hjoin
    (fun ⟨_, _⟩ hmem hvalue => h.eq_text hmem hvalue) p.start
  rw [KeepsFields, hrow]
  exact hkeeps

/-- **Where the places of a record are those of its fields:** exactly if no value is taken for
another. -/
theorem keepsFields_iff (source : String) :
    List.Forall₂ (fun p row => (KeepsFields p row ↔ Unmistaken [] p.fieldTexts p.fields) ∧
        (List.Forall₂ IsPlain p.fieldTexts p.fields → KeepsFields p row))
      (passages source.toList) (recordRows source) := by
  have hrecords := (List.forall₂_and_left _ _).mpr
    ⟨fun p hp => isRead_of_mem_passages hp, forall₂_passages_recordRows source⟩
  refine hrecords.imp fun p row h => ?_
  have hkeeps := keepsFields_of_isRead h.1 h.2
  exact ⟨hkeeps, fun hplain => hkeeps.mpr (unmistaken_of_isPlain hplain (by simp))⟩

/-- Behind a field with a doubled quote, which is not found, the second field is taken to stand in the
first one. -/
theorem not_keepsFields_doubledQuote :
    (recordRows "\"a\"\"b\",b").map (fun r => r.cells.map Cell.span) = [[some ⟨0, 8⟩, some ⟨4, 5⟩]] ∧
      (passages "\"a\"\"b\",b".toList).map (fun p => ownPlaces p.start p.fieldTexts) =
        [[⟨0, 6⟩, ⟨7, 8⟩]] ∧
      ¬ List.Forall₂ KeepsFields (passages "\"a\"\"b\",b".toList) (recordRows "\"a\"\"b\",b") := by
  decide +kernel

end SheetMarkup.Csv
