import SheetMarkup.Proofs.Csv.Passages
import SheetMarkup.Proofs.Text.Utf8

/-!
# What the reader of records reports

Records are read from bytes. Of each record the reader tells the bytes of its fields and where it stood
before and behind it. Before a record it may stand in front of breaks that it passes over, or of the
byte order mark, so the place of the record follows from these two positions and the source.

* `scanBytes`, **`scanBytes_utf8`**: records of bytes are the records of characters;
* `Report`, `reports`: what the reader tells of the records of a sheet;
* `reportsFrom_of_breaks`, `reportsFrom_of_cons`, `reports_marked`, `reports_unmarked`: the reports of a
  text, in characters.
-/

namespace SheetMarkup.Csv

open Text (byteLength byteLength_append utf8 utf8_cons utf8_append)

/-! ## Records of bytes -/

/-- The byte of an ASCII character. -/
def byteOf (c : Char) : UInt8 := UInt8.ofNat c.toNat

/-- The bytes that end a line. -/
def isBreakByte (b : UInt8) : Bool := b == byteOf '\n' || b == byteOf '\r'

/-- A record: the bytes of its fields, the bytes read in reverse, and what follows. -/
structure ByteRecord where
  fields : List (List UInt8)
  used : List UInt8
  rest : List UInt8

/-- Scans a record. The open field, the fields before it and the bytes read are given in reverse. -/
def scanBytes : Mode → List UInt8 → List (List UInt8) → List UInt8 → List UInt8 → ByteRecord
  | _, field, fields, used, [] => ⟨(field.reverse :: fields).reverse, used, []⟩
  | mode, field, fields, used, b :: bs =>
    if mode = .quoted then
      if b == byteOf '"' then scanBytes .closing field fields (b :: used) bs
      else scanBytes .quoted (b :: field) fields (b :: used) bs
    else if b == byteOf ',' then scanBytes .start [] (field.reverse :: fields) (b :: used) bs
    else if isBreakByte b then ⟨(field.reverse :: fields).reverse, b :: used, bs⟩
    else if b == byteOf '"' && mode = .start then scanBytes .quoted [] fields (b :: used) bs
    else if b == byteOf '"' && mode = .closing then
      scanBytes .quoted (b :: field) fields (b :: used) bs
    else scanBytes .plain (b :: field) fields (b :: used) bs

theorem byteOf_beq {c d : Char} (hc : c.toNat < 128) (hd : d.toNat < 128) :
    (byteOf c == byteOf d) = (c == d) := by
  rw [Bool.eq_iff_iff, beq_iff_eq, beq_iff_eq]
  constructor
  · intro h
    have htoNat := congrArg UInt8.toNat h
    rw [byteOf, byteOf, UInt8.toNat_ofNat', UInt8.toNat_ofNat'] at htoNat
    exact Char.toNat_inj.mp (by omega)
  · rintro rfl
    rfl

theorem beq_byteOf_of_wide {b : UInt8} (hb : 128 ≤ b.toNat) {d : Char} (hd : d.toNat < 128) :
    (b == byteOf d) = false := by
  rw [beq_eq_false_iff_ne]
  rintro rfl
  rw [byteOf, UInt8.toNat_ofNat'] at hb
  omega

theorem isBreakByte_byteOf {c : Char} (hc : c.toNat < 128) : isBreakByte (byteOf c) = isBreak c := by
  rw [isBreakByte, byteOf_beq hc (by decide), byteOf_beq hc (by decide), isBreak]

theorem isBreakByte_of_wide {b : UInt8} (hb : 128 ≤ b.toNat) : isBreakByte b = false := by
  rw [isBreakByte, beq_byteOf_of_wide hb (by decide), beq_byteOf_of_wide hb (by decide)]
  rfl

theorem marks_of_wide {c : Char} (hc : 128 ≤ c.toNat) :
    (c == '"') = false ∧ (c == ',') = false ∧ isBreak c = false := by
  have hne : ∀ d : Char, d.toNat < 128 → (c == d) = false := by
    intro d hd
    rw [beq_eq_false_iff_ne]
    rintro rfl
    omega
  refine ⟨hne _ (by decide), hne _ (by decide), ?_⟩
  rw [isBreak, hne _ (by decide), hne _ (by decide)]
  rfl

/-- The mode behind a character that is no mark of the format. -/
def Mode.behind (mode : Mode) : Mode := if mode = .quoted then .quoted else .plain

theorem scanBytes_wide {bs : List UInt8} (hne : bs ≠ []) (h : ∀ b ∈ bs, 128 ≤ b.toNat) (mode : Mode)
    (field : List UInt8) (fields : List (List UInt8)) (used rest : List UInt8) :
    scanBytes mode field fields used (bs ++ rest) =
      scanBytes mode.behind (bs.reverse ++ field) fields (bs.reverse ++ used) rest := by
  induction bs generalizing mode field used with
  | nil => exact absurd rfl hne
  | cons b bs ih =>
    rw [List.forall_mem_cons] at h
    have hquote := beq_byteOf_of_wide h.1 (d := '"') (by decide)
    have hcomma := beq_byteOf_of_wide h.1 (d := ',') (by decide)
    have hbreak := isBreakByte_of_wide h.1
    have hstep : scanBytes mode field fields used (b :: bs ++ rest) =
        scanBytes mode.behind (b :: field) fields (b :: used) (bs ++ rest) := by
      rw [List.cons_append, scanBytes, hquote, hcomma, hbreak, Mode.behind]
      cases mode <;> rfl
    rw [hstep]
    cases bs with
    | nil => simp
    | cons b' bs =>
      have hbehind : mode.behind.behind = mode.behind := by cases mode <;> rfl
      rw [ih (List.cons_ne_nil _ _) h.2, hbehind]
      simp

/-- The bytes of a text in reverse, in reverse. -/
def reversed (cs : List Char) : List UInt8 := (utf8 cs.reverse).reverse

theorem reversed_cons (c : Char) (cs : List Char) :
    reversed (c :: cs) = (String.utf8EncodeChar c).reverse ++ reversed cs := by
  rw [reversed, List.reverse_cons, utf8_append, List.reverse_append, reversed, utf8_cons]
  simp [Text.utf8]

theorem reverse_reversed (cs : List Char) : (reversed cs).reverse = utf8 cs.reverse :=
  List.reverse_reverse _

/-- **A record of bytes is the record of their characters.** -/
theorem scanBytes_utf8 (mode : Mode) (field : List Char) (fields : List (List Char))
    (used cs : List Char) :
    scanBytes mode (reversed field) (fields.map utf8) (reversed used) (utf8 cs) =
      ⟨(scan mode field fields used cs).fields.map utf8, reversed (scan mode field fields used cs).used,
        utf8 (scan mode field fields used cs).rest⟩ := by
  have hdone : ∀ (field : List Char) (fields : List (List Char)),
      ((reversed field).reverse :: fields.map utf8).reverse =
        ((field.reverse :: fields).reverse).map utf8 := by
    intro field fields
    rw [reverse_reversed, ← List.map_cons, List.map_reverse]
  induction cs generalizing mode field fields used with
  | nil =>
    rw [Text.utf8_nil, scanBytes, scan, hdone]
    rfl
  | cons c cs ih =>
    rcases Text.utf8EncodeChar_cases c with ⟨hc, hbytes⟩ | ⟨hc, hne, hbytes⟩
    · -- one byte, for which both readers ask the same questions
      have hcons : ∀ cs, byteOf c :: reversed cs = reversed (c :: cs) := by
        intro cs
        rw [reversed_cons, hbytes]
        rfl
      have hfields : ((reversed field).reverse :: fields.map utf8) =
          (field.reverse :: fields).map utf8 := by
        rw [reverse_reversed, List.map_cons]
      have hnil : ([] : List UInt8) = reversed [] := rfl
      have hbyte : utf8 (c :: cs) = byteOf c :: utf8 cs := by
        rw [utf8_cons, hbytes]
        rfl
      rw [hbyte, scanBytes, scan, byteOf_beq hc (by decide), byteOf_beq hc (by decide),
        isBreakByte_byteOf hc, hcons, hcons, hdone, hfields, hnil]
      split_ifs <;> first | exact ih _ _ _ _ | rfl
    · -- some bytes that all go to the open field
      obtain ⟨hquote, hcomma, hbreak⟩ := marks_of_wide hc
      have hstep : scan mode field fields used (c :: cs) =
          scan mode.behind (c :: field) fields (c :: used) cs := by
        rw [scan, hquote, hcomma, hbreak, Mode.behind]
        cases mode <;> rfl
      rw [utf8_cons, scanBytes_wide hne hbytes, ← reversed_cons, ← reversed_cons, hstep]
      exact ih _ _ _ _

theorem length_rest_scanBytes (mode : Mode) (field : List UInt8) (fields : List (List UInt8))
    (used bs : List UInt8) :
    (scanBytes mode field fields used bs).rest.length ≤ bs.length := by
  induction bs generalizing mode field fields used with
  | nil => simp [scanBytes]
  | cons b bs ih =>
    have hstep : ∀ m f fs, (scanBytes m f fs (b :: used) bs).rest.length ≤ (b :: bs).length :=
      fun m f fs => (ih m f fs _).trans (Nat.le_succ _)
    rw [scanBytes]
    split_ifs
    all_goals first | exact hstep _ _ _ | exact Nat.le_succ _

/-! ## Reports -/

/-- What the reader reports of a record: the bytes of its fields, and the positions at which the reader
stood before the record and behind it. -/
structure Report where
  fields : List (List UInt8)
  position : Nat
  reached : Nat

theorem length_rest_lt {bytes bs : List UInt8} {b : UInt8}
    (h : bytes.dropWhile isBreakByte = b :: bs) :
    (scanBytes .start [] [] [] (b :: bs)).rest.length < bytes.length := by
  have hb : isBreakByte b = false := not_of_dropWhile h
  have hdrop := (List.dropWhile_sublist (l := bytes) isBreakByte).length_le
  rw [h] at hdrop
  have hrest : (scanBytes .start [] [] [] (b :: bs)).rest.length ≤ bs.length := by
    rw [scanBytes, hb]
    simp only [reduceCtorEq, if_false, Bool.false_eq_true]
    split_ifs
    all_goals exact length_rest_scanBytes _ _ _ _ _
  rw [List.length_cons] at hdrop
  omega

/-- The reports on some bytes. The reader stands at a position, some skipped bytes in front of them. -/
def reportsFrom (position skipped : Nat) (bytes : List UInt8) : List Report :=
  match _h : bytes.dropWhile isBreakByte with
  | [] => []
  | b :: bs =>
    let record := scanBytes .start [] [] [] (b :: bs)
    let reached := position + skipped + (bytes.takeWhile isBreakByte).length + record.used.length
    ⟨record.fields, position, reached⟩ :: reportsFrom reached 0 record.rest
termination_by bytes.length
decreasing_by exact length_rest_lt _h

/-- The reports on a sheet. A byte order mark is skipped. -/
def reports : List UInt8 → List Report
  | 0xEF :: 0xBB :: 0xBF :: bytes => reportsFrom 0 3 bytes
  | bytes => reportsFrom 0 0 bytes

theorem takeWhile_utf8 (cs : List Char) :
    (utf8 cs).takeWhile isBreakByte = utf8 (cs.takeWhile isBreak) ∧
      (utf8 cs).dropWhile isBreakByte = utf8 (cs.dropWhile isBreak) := by
  induction cs with
  | nil => exact ⟨rfl, rfl⟩
  | cons c cs ih =>
    rcases Text.utf8EncodeChar_cases c with ⟨hc, hbytes⟩ | ⟨hc, hne, hbytes⟩
    · have hbyte : ∀ cs, utf8 (c :: cs) = byteOf c :: utf8 cs := by
        intro cs
        rw [utf8_cons, hbytes]
        rfl
      rw [hbyte, List.takeWhile_cons, List.dropWhile_cons, List.takeWhile_cons, List.dropWhile_cons,
        isBreakByte_byteOf hc]
      split_ifs
      · exact ⟨by rw [ih.1, hbyte], ih.2⟩
      · exact ⟨rfl, (hbyte cs).symm⟩
    · obtain ⟨b, bs, hcons⟩ := List.exists_cons_of_ne_nil hne
      have hb : isBreakByte b = false := isBreakByte_of_wide (hbytes b (by rw [hcons]; simp))
      rw [List.takeWhile_cons, List.dropWhile_cons, (marks_of_wide hc).2.2, utf8_cons, hcons,
        List.cons_append, List.takeWhile_cons, List.dropWhile_cons, hb]
      refine ⟨rfl, ?_⟩
      show b :: (bs ++ utf8 cs) = utf8 (c :: cs)
      rw [utf8_cons, hcons, List.cons_append]

section Characters

variable {text cs : List Char} {c : Char} (position skipped : Nat)

theorem reportsFrom_of_breaks (h : text.dropWhile isBreak = []) :
    reportsFrom position skipped (utf8 text) = [] := by
  have hbytes : (utf8 text).dropWhile isBreakByte = [] := by rw [(takeWhile_utf8 text).2, h]; rfl
  rw [reportsFrom]
  split
  · rfl
  · next b bs heq =>
    rw [hbytes] at heq
    cases heq

theorem recordAt_utf8 (cs : List Char) : scanBytes .start [] [] [] (utf8 cs) =
    ⟨(recordAt cs).fields.map utf8, reversed (recordAt cs).used, utf8 (recordAt cs).rest⟩ :=
  scanBytes_utf8 .start [] [] [] cs

theorem length_reversed (cs : List Char) : (reversed cs).length = byteLength cs.reverse := by
  rw [reversed, List.length_reverse, Text.length_utf8]

/-- **What is reported of the first record of a text.** -/
theorem reportsFrom_of_cons (h : text.dropWhile isBreak = c :: cs) {reached : Nat}
    (hreached : reached = position + skipped + byteLength (text.takeWhile isBreak) +
      byteLength (recordAt (c :: cs)).used.reverse) :
    reportsFrom position skipped (utf8 text) =
      ⟨(recordAt (c :: cs)).fields.map utf8, position, reached⟩ ::
        reportsFrom reached 0 (utf8 (recordAt (c :: cs)).rest) := by
  obtain ⟨htake, hdrop⟩ := takeWhile_utf8 text
  rw [h] at hdrop
  rw [reportsFrom]
  split
  · next heq =>
    rw [hdrop, utf8_cons] at heq
    exact absurd (List.append_eq_nil_iff.mp heq).1 String.utf8EncodeChar_ne_nil
  · next b bs heq =>
    have hbytes : b :: bs = utf8 (c :: cs) := heq.symm.trans hdrop
    have hrecord := recordAt_utf8 (c :: cs)
    rw [← hbytes] at hrecord
    simp only [hrecord, htake, Text.length_utf8, length_reversed, ← hreached]

end Characters

theorem reports_marked (cs : List Char) :
    reports (utf8 ('\ufeff' :: cs)) = reportsFrom 0 3 (utf8 cs) := by
  rw [utf8_cons]
  rfl

theorem reports_unmarked {cs : List Char} (h : cs.head? ≠ some '\ufeff') :
    reports (utf8 cs) = reportsFrom 0 0 (utf8 cs) := by
  unfold reports
  split
  · next bytes heq => exact absurd (Text.utf8_eq_marked heq) h
  · rfl

end SheetMarkup.Csv
