import Mathlib.Data.List.Basic
import SheetMarkup.Docx.Image

/-!
# The frame header of a JPEG file

A JPEG file is a row of segments, and the size of its image stands in the frame header among them.
The scan walks from marker to marker and leaves out what stands in the bodies, so it finds the
header behind any number of segments, whatever these hold.

* `IsBare`, `IsFrame`, `Segment`, `Frame`, `Layout`: the files with a frame header;
* `jpegScan_filled`, `jpegScan_segment`, **`jpegScan_layout`**: fill bytes, one segment, all of them;
* **`exists_layout`**: the scan finds nothing in any other file;
* `scanStep`, `scanSteps`, **`scanSteps_eq`**: the scan by places in the data, which ends and asks
  for no byte outside of it;
* **`pixelSize?_jpeg`**: the size of a JPEG file.
-/

namespace SheetMarkup.Docx

/-! ## Markers -/

/-- A marker without a body. -/
def IsBare (m : UInt8) : Prop := m = 0x01 ∨ 0xD0 ≤ m ∧ m ≤ 0xD7

/-- The marker of a frame header. -/
def IsFrame (m : UInt8) : Prop := 0xC0 ≤ m ∧ m ≤ 0xCF ∧ m ≠ 0xC4 ∧ m ≠ 0xC8 ∧ m ≠ 0xCC

instance (m : UInt8) : Decidable (IsBare m) := inferInstanceAs (Decidable (_ ∨ _))

instance (m : UInt8) : Decidable (IsFrame m) := inferInstanceAs (Decidable (_ ∧ _))

theorem isBareMarker_iff {m : UInt8} : isBareMarker m = true ↔ IsBare m := by
  simp only [isBareMarker, IsBare, Bool.or_eq_true, Bool.and_eq_true, beq_iff_eq,
    decide_eq_true_eq, UInt8.le_iff_toNat_le]
  rfl

theorem isFrameMarker_iff {m : UInt8} : isFrameMarker m = true ↔ IsFrame m := by
  simp only [isFrameMarker, IsFrame, Bool.and_eq_true, bne_iff_ne, decide_eq_true_eq,
    UInt8.le_iff_toNat_le, and_assoc]
  rfl

theorem IsFrame.not_isBare {m : UInt8} (h : IsFrame m) : ¬ IsBare m := by
  simp only [IsFrame, IsBare, UInt8.le_iff_toNat_le, ← UInt8.toNat_inj] at h ⊢
  simp at h ⊢
  omega

theorem IsFrame.ne_fill {m : UInt8} (h : IsFrame m) : m ≠ 0xFF := by
  rintro rfl
  exact absurd h (by decide)

theorem IsBare.ne_fill {m : UInt8} (h : IsBare m) : m ≠ 0xFF := by
  rintro rfl
  exact absurd h (by decide)

/-! ## Files -/

/-- The number of two bytes, the first of which counts most. -/
def pairValue (high low : UInt8) : Nat := 256 * high.toNat + low.toNat

theorem pairValue_lt (high low : UInt8) : pairValue high low < 65536 := by
  have := high.toNat_lt
  have := low.toNat_lt
  unfold pairValue
  omega

/-- A segment before the frame header. -/
inductive Segment where
  | bare (marker : UInt8) (isBare : IsBare marker)
  /-- A marker, a length that counts its own two bytes, and the body that it leaves room for. -/
  | sized (marker high low : UInt8) (body : List UInt8)
      (isOther : ¬ IsBare marker ∧ ¬ IsFrame marker ∧ marker ≠ 0xFF)
      (isLength : pairValue high low = body.length + 2)

/-- The bytes of a segment. -/
def Segment.bytes : Segment → List UInt8
  | bare marker _ => [0xFF, marker]
  | sized marker high low body _ _ => 0xFF :: marker :: high :: low :: body

/-- A frame header, with all numbers of two bytes as these bytes. -/
structure Frame where
  marker : UInt8
  isFrame : IsFrame marker
  length : UInt8 × UInt8
  precision : UInt8
  height : UInt8 × UInt8
  width : UInt8 × UInt8

/-- The bytes of a frame header. -/
def Frame.bytes (f : Frame) : List UInt8 :=
  [0xFF, f.marker, f.length.1, f.length.2, f.precision, f.height.1, f.height.2, f.width.1,
    f.width.2]

/-- What follows the first two bytes of a JPEG file: segments and a frame header, each behind a
number of fill bytes, and anything after them. -/
structure Layout where
  segments : List (Nat × Segment)
  fill : Nat
  frame : Frame
  rest : List UInt8

/-- Some bytes behind fill bytes. -/
def filled (fill : Nat) (bytes : List UInt8) : List UInt8 := List.replicate fill 0xFF ++ bytes

namespace Layout

/-- The bytes of a layout. -/
def bytes (l : Layout) : List UInt8 :=
  l.segments.flatMap (fun s => filled s.1 s.2.bytes) ++ filled l.fill l.frame.bytes ++ l.rest

/-- Width and height in the frame header. -/
def size (l : Layout) : Nat × Nat :=
  (pairValue l.frame.width.1 l.frame.width.2, pairValue l.frame.height.1 l.frame.height.2)

end Layout

/-! ## The scan of a file -/

theorem bigEndian_pair (high low : UInt8) : bigEndian [high, low] = pairValue high low := by
  simp [bigEndian, pairValue]

section Scan

variable {m : UInt8} (x y : UInt8) (rest : List UInt8)

theorem jpegScan_marker (m : UInt8) : jpegScan (0xFF :: m :: x :: y :: rest) =
    if m == 0xFF then jpegScan (m :: x :: y :: rest)
    else if isBareMarker m then jpegScan (x :: y :: rest)
    else if isFrameMarker m then
      match rest with
      | _ :: h1 :: h2 :: w1 :: w2 :: _ => some (bigEndian [w1, w2], bigEndian [h1, h2])
      | _ => none
    else jpegScan ((x :: y :: rest).drop (bigEndian [x, y])) := by
  rw [jpegScan.eq_def]
  rfl

theorem jpegScan_fill :
    jpegScan (0xFF :: 0xFF :: x :: y :: rest) = jpegScan (0xFF :: x :: y :: rest) := by
  rw [jpegScan_marker, if_pos (by decide)]

theorem jpegScan_bare (h : IsBare m) :
    jpegScan (0xFF :: m :: x :: y :: rest) = jpegScan (x :: y :: rest) := by
  rw [jpegScan_marker, if_neg (by rw [beq_iff_eq]; exact h.ne_fill),
    if_pos (isBareMarker_iff.mpr h)]

theorem jpegScan_sized (h : ¬ IsBare m ∧ ¬ IsFrame m ∧ m ≠ 0xFF) :
    jpegScan (0xFF :: m :: x :: y :: rest) =
      jpegScan ((x :: y :: rest).drop (pairValue x y)) := by
  rw [jpegScan_marker, if_neg (by rw [beq_iff_eq]; exact h.2.2),
    if_neg (by rw [isBareMarker_iff]; exact h.1), if_neg (by rw [isFrameMarker_iff]; exact h.2.1),
    bigEndian_pair]

theorem jpegScan_frame (f : Frame) : jpegScan (f.bytes ++ rest) =
    some (pairValue f.width.1 f.width.2, pairValue f.height.1 f.height.2) := by
  have hmarker := jpegScan_marker f.length.1 f.length.2
    (f.precision :: f.height.1 :: f.height.2 :: f.width.1 :: f.width.2 :: rest) f.marker
  rw [if_neg (by rw [beq_iff_eq]; exact f.isFrame.ne_fill),
    if_neg (by rw [isBareMarker_iff]; exact f.isFrame.not_isBare),
    if_pos (isFrameMarker_iff.mpr f.isFrame)] at hmarker
  rw [← bigEndian_pair, ← bigEndian_pair]
  exact hmarker

end Scan

theorem exists_filled (fill : Nat) (x y : UInt8) (rest : List UInt8) :
    ∃ x' y' rest', filled fill (x :: y :: rest) = x' :: y' :: rest' := by
  match fill with
  | 0 => exact ⟨_, _, _, rfl⟩
  | 1 => exact ⟨_, _, _, rfl⟩
  | fill + 2 => exact ⟨_, _, _, rfl⟩

/-- The scan passes over fill bytes. -/
theorem jpegScan_filled (fill : Nat) (m x : UInt8) (rest : List UInt8) :
    jpegScan (filled fill (0xFF :: m :: x :: rest)) = jpegScan (0xFF :: m :: x :: rest) := by
  induction fill with
  | zero => rfl
  | succ fill ih =>
    obtain ⟨x', y', rest', hrest⟩ := exists_filled fill m x rest
    have hmark : filled fill (0xFF :: m :: x :: rest) = 0xFF :: x' :: y' :: rest' := by
      rw [← hrest, filled, List.append_cons, ← List.replicate_succ']
      rfl
    rw [← ih]
    calc jpegScan (filled (fill + 1) (0xFF :: m :: x :: rest))
        = jpegScan (0xFF :: filled fill (0xFF :: m :: x :: rest)) := rfl
      _ = jpegScan (0xFF :: 0xFF :: x' :: y' :: rest') := by rw [hmark]
      _ = jpegScan (0xFF :: x' :: y' :: rest') := jpegScan_fill x' y' rest'
      _ = jpegScan (filled fill (0xFF :: m :: x :: rest)) := by rw [hmark]

/-- A segment is passed over, whatever its body holds. -/
theorem jpegScan_segment (fill : Nat) (s : Segment) (x y : UInt8) (rest : List UInt8) :
    jpegScan (filled fill s.bytes ++ x :: y :: rest) = jpegScan (x :: y :: rest) := by
  rw [filled, List.append_assoc]
  cases s with
  | bare marker isBare => exact (jpegScan_filled fill _ _ _).trans (jpegScan_bare x y rest isBare)
  | sized marker high low body isOther isLength =>
    refine (jpegScan_filled fill _ _ _).trans ((jpegScan_sized _ _ _ isOther).trans ?_)
    rw [isLength, List.drop_succ_cons, List.drop_succ_cons]
    exact congrArg jpegScan List.drop_left

theorem Layout.exists_bytes (l : Layout) : ∃ x y rest, l.bytes = x :: y :: rest := by
  obtain ⟨segments, fill, frame, rest⟩ := l
  have happend : ∀ (fill : Nat) (x y : UInt8) (bytes rest : List UInt8),
      ∃ x' y' rest', filled fill (x :: y :: bytes) ++ rest = x' :: y' :: rest' := by
    intro fill x y bytes rest
    obtain ⟨x', y', rest', h⟩ := exists_filled fill x y bytes
    exact ⟨x', y', rest' ++ rest, by rw [h]; rfl⟩
  cases segments with
  | nil => exact happend fill _ _ _ rest
  | cons s segments =>
    rw [bytes, List.flatMap_cons, List.append_assoc, List.append_assoc]
    obtain ⟨n, ⟨marker, isBare⟩ | ⟨marker, high, low, body, isOther, isLength⟩⟩ := s
    · exact happend n _ _ _ _
    · exact happend n _ _ _ _

/-- **The scan finds the frame header behind all segments.** -/
theorem jpegScan_layout (l : Layout) : jpegScan l.bytes = some l.size := by
  obtain ⟨segments, fill, frame, rest⟩ := l
  induction segments with
  | nil =>
    rw [Layout.bytes, List.flatMap_nil, List.nil_append, filled, List.append_assoc]
    exact (jpegScan_filled fill _ _ _).trans (jpegScan_frame rest frame)
  | cons s segments ih =>
    obtain ⟨x, y, tail, h⟩ := Layout.exists_bytes ⟨segments, fill, frame, rest⟩
    have hbytes : Layout.bytes ⟨s :: segments, fill, frame, rest⟩ =
        filled s.1 s.2.bytes ++ Layout.bytes ⟨segments, fill, frame, rest⟩ := by
      simp only [Layout.bytes, List.flatMap_cons, List.append_assoc]
    rw [hbytes, h, jpegScan_segment, ← h, ih]
    rfl

/-! ## Files without a frame header -/

/-- The layout behind one more fill byte. -/
def Layout.addFill : Layout → Layout
  | ⟨[], fill, frame, rest⟩ => ⟨[], fill + 1, frame, rest⟩
  | ⟨(n, s) :: segments, fill, frame, rest⟩ => ⟨(n + 1, s) :: segments, fill, frame, rest⟩

/-- The layout behind one more segment. -/
def Layout.addSegment (s : Segment) (l : Layout) : Layout :=
  { l with segments := (0, s) :: l.segments }

theorem Layout.bytes_addFill (l : Layout) : l.addFill.bytes = 0xFF :: l.bytes := by
  obtain ⟨segments, fill, frame, rest⟩ := l
  cases segments <;> rfl

theorem Layout.size_addFill (l : Layout) : l.addFill.size = l.size := by
  obtain ⟨segments, fill, frame, rest⟩ := l
  cases segments <;> rfl

theorem Layout.bytes_addSegment (s : Segment) (l : Layout) :
    (l.addSegment s).bytes = s.bytes ++ l.bytes := by
  simp only [Layout.bytes, Layout.addSegment, List.flatMap_cons, List.append_assoc]
  rfl

theorem jpegScan_of_ne {a : UInt8} (h : a ≠ 0xFF) (bytes : List UInt8) :
    jpegScan (a :: bytes) = none := by
  rw [jpegScan.eq_def]
  split
  · next heq =>
    cases heq
    rw [if_pos (bne_iff_ne.mpr h)]
  · rfl

/-- If something is found behind a body, its length counts itself and does not lead too far. -/
theorem length_of_jpegScan {x y : UInt8} {rest : List UInt8} {size : Nat × Nat}
    (h : jpegScan ((x :: y :: rest).drop (pairValue x y)) = some size) :
    2 ≤ pairValue x y ∧ pairValue x y ≤ rest.length + 2 := by
  constructor
  · by_contra hshort
    have hx : x = 0 := by
      rw [← UInt8.toNat_inj, UInt8.toNat_zero]
      unfold pairValue at hshort
      omega
    subst hx
    -- then one of the two length bytes is taken for the start of a marker
    have hy : pairValue 0 y = 0 ∨ pairValue 0 y = 1 ∧ y = 1 := by
      rw [← UInt8.toNat_inj, UInt8.toNat_one]
      have hzero : pairValue 0 y = y.toNat := by simp [pairValue]
      omega
    obtain hzero | ⟨hone, rfl⟩ := hy
    · rw [hzero, List.drop_zero, jpegScan_of_ne (by decide)] at h
      cases h
    · rw [hone, List.drop_one, List.tail_cons, jpegScan_of_ne (by decide)] at h
      cases h
  · by_contra hlong
    rw [List.drop_of_length_le (by simp only [List.length_cons]; omega),
      jpegScan.eq_3 [] (by simp)] at h
    cases h

/-- **The scan finds nothing but frame headers behind segments.** -/
theorem exists_layout {bytes : List UInt8} {size : Nat × Nat} (h : jpegScan bytes = some size) :
    ∃ l : Layout, l.bytes = bytes ∧ l.size = size := by
  induction bytes using jpegScan.induct with
  | case1 a m x y rest hstart =>
    rw [jpegScan.eq_def] at h
    simp only [hstart, if_true, reduceCtorEq] at h
  | case2 a m x y rest hstart hfill ih =>
    simp only [bne_iff_ne, ne_eq, Classical.not_not] at hstart
    rw [beq_iff_eq] at hfill
    subst hstart hfill
    rw [jpegScan_fill] at h
    obtain ⟨l, hbytes, hsize⟩ := ih h
    exact ⟨l.addFill, by rw [l.bytes_addFill, hbytes], by rw [l.size_addFill, hsize]⟩
  | case3 a m x y rest hstart hfill hbare ih =>
    simp only [bne_iff_ne, ne_eq, Classical.not_not] at hstart
    subst hstart
    rw [isBareMarker_iff] at hbare
    rw [jpegScan_bare x y rest hbare] at h
    obtain ⟨l, hbytes, hsize⟩ := ih h
    refine ⟨l.addSegment (.bare m hbare), ?_, hsize⟩
    rw [l.bytes_addSegment, hbytes]
    rfl
  | case4 a m x y hstart hfill hbare hframe p h1 h2 w1 w2 rest =>
    simp only [bne_iff_ne, ne_eq, Classical.not_not] at hstart
    subst hstart
    have hfound := jpegScan_frame rest
      ⟨m, isFrameMarker_iff.mp hframe, (x, y), p, (h1, h2), (w1, w2)⟩
    exact ⟨⟨[], 0, _, rest⟩, rfl, Option.some.inj (hfound.symm.trans h)⟩
  | case5 a m x y rest hstart hfill hbare hframe hshort =>
    rw [jpegScan.eq_2 a m x y rest hshort, if_neg hstart, if_neg hfill, if_neg hbare,
      if_pos hframe] at h
    cases h
  | case6 a m x y rest hstart hfill hbare hframe ih =>
    simp only [bne_iff_ne, ne_eq, Classical.not_not] at hstart
    subst hstart
    rw [beq_iff_eq] at hfill
    rw [isBareMarker_iff] at hbare
    rw [isFrameMarker_iff] at hframe
    rw [jpegScan_sized x y rest ⟨hbare, hframe, hfill⟩] at h
    rw [bigEndian_pair] at ih
    obtain ⟨hlow, hhigh⟩ := length_of_jpegScan h
    obtain ⟨n, hn⟩ := Nat.exists_eq_add_of_le' hlow
    obtain ⟨l, hbytes, hsize⟩ := ih h
    rw [hn, List.drop_succ_cons, List.drop_succ_cons] at hbytes
    have hbody : (rest.take n).length = n := List.length_take_of_le (by omega)
    refine ⟨l.addSegment (.sized m x y (rest.take n) ⟨hbare, hframe, hfill⟩ (by omega)), ?_, hsize⟩
    rw [l.bytes_addSegment, hbytes]
    exact congrArg (fun bytes => 0xFF :: m :: x :: y :: bytes) (List.take_append_drop n rest)
  | case7 bytes hshort =>
    rw [jpegScan.eq_3 bytes hshort] at h
    cases h

/-! ## The scan by places -/

/-- What one pass of the scan comes to. -/
inductive ScanStep where
  | found (size : Option (Nat × Nat))
  | next (place : Nat)

/-- One pass of the scan at a place in the data. Bytes are asked for by their places, and there is
no result where one of them lies outside of the data. Fields of two bytes are only read where the
data reaches that far. -/
def scanStep (data : List UInt8) (place : Nat) : Option ScanStep :=
  if data.length ≤ place + 3 then some (.found none)
  else do
    if (← data[place]?) != 0xFF then return .found none
    let marker ← data[place + 1]?
    if marker == 0xFF then return .next (place + 1)
    if isBareMarker marker then return .next (place + 2)
    if isFrameMarker marker then
      return .found (do
        let height ← field? data (place + 5) 2
        let width ← field? data (place + 7) 2
        return (bigEndian width, bigEndian height))
    match field? data (place + 2) 2 with
    | some length => return .next (place + 2 + bigEndian length)
    | none => return .found none

/-- The scan from a place in at most so many passes. There is no result where a byte outside of the
data is asked for, or where the passes do not suffice. -/
def scanSteps (data : List UInt8) : Nat → Nat → Option (Option (Nat × Nat))
  | 0, _ => none
  | passes + 1, place =>
    match scanStep data place with
    | some (.found size) => some size
    | some (.next place') => scanSteps data passes place'
    | none => none

theorem field?_drop (data : List UInt8) (place start width : Nat) :
    field? data (place + start) width = field? (data.drop place) start width := by
  rw [field?, field?, List.drop_drop]

theorem sides_of_rest (rest : List UInt8) :
    (do
      let height ← field? rest 1 2
      let width ← field? rest 3 2
      return (bigEndian width, bigEndian height)) =
      match rest with
      | _ :: h1 :: h2 :: w1 :: w2 :: _ => some (bigEndian [w1, w2], bigEndian [h1, h2])
      | _ => none := by
  split
  · rfl
  · next hshort =>
    have hnone : field? rest 3 2 = none := by
      rcases rest with _ | ⟨p, _ | ⟨h1, _ | ⟨h2, _ | ⟨w1, _ | ⟨w2, tail⟩⟩⟩⟩⟩
      case cons.cons.cons.cons.cons => exact absurd rfl (hshort p h1 h2 w1 w2 tail)
      all_goals rfl
    rw [hnone]
    cases field? rest 1 2 <;> rfl

/-- **One pass** finds what the scan finds, or leaves it to a later place. -/
theorem scanStep_cases (data : List UInt8) (place : Nat) :
    scanStep data place = some (.found (jpegScan (data.drop place))) ∨
      ∃ place', place < place' ∧ place < data.length ∧
        scanStep data place = some (.next place') ∧
        jpegScan (data.drop place) = jpegScan (data.drop place') := by
  unfold scanStep
  by_cases hend : data.length ≤ place + 3
  · have hnone : jpegScan (data.drop place) = none := by
      refine jpegScan.eq_3 _ fun a m x y rest he => ?_
      have hlength := congrArg List.length he
      rw [List.length_drop] at hlength
      simp only [List.length_cons] at hlength
      omega
    rw [if_pos hend, hnone]
    exact .inl rfl
  · obtain ⟨a, m, x, y, rest, hrest⟩ :
        ∃ a m x y rest, data.drop place = a :: m :: x :: y :: rest := by
      have hlong : 4 ≤ (data.drop place).length := by
        rw [List.length_drop]
        omega
      rcases hdrop : data.drop place with _ | ⟨a, _ | ⟨m, _ | ⟨x, _ | ⟨y, rest⟩⟩⟩⟩
      case cons.cons.cons.cons => exact ⟨a, m, x, y, rest, rfl⟩
      all_goals simp [hdrop] at hlong
    have hbyte : ∀ n, data[place + n]? = (a :: m :: x :: y :: rest)[n]? := fun n => by
      rw [← hrest, List.getElem?_drop]
    have hstart : data[place]? = some a := hbyte 0
    have hmarker : data[place + 1]? = some m := hbyte 1
    have hlength : field? data (place + 2) 2 = some [x, y] := by
      rw [field?_drop, hrest]
      rfl
    have hheight : field? data (place + 5) 2 = field? rest 1 2 := by
      rw [field?_drop, hrest]
      rfl
    have hwidth : field? data (place + 7) 2 = field? rest 3 2 := by
      rw [field?_drop, hrest]
      rfl
    have hnext : ∀ n, data.drop (place + n) = (a :: m :: x :: y :: rest).drop n := fun n => by
      rw [← hrest, List.drop_drop]
    have hin : place < data.length := by omega
    rw [if_neg hend, hstart, hmarker, hlength, hheight, hwidth, hrest]
    simp only [Option.bind_eq_bind, Option.bind_some]
    by_cases ha : a = 0xFF
    · subst ha
      rw [if_neg (by decide), jpegScan_marker, ← sides_of_rest]
      split_ifs with hfill hbare hframe
      · exact .inr ⟨place + 1, by omega, hin, rfl, by rw [hnext]; rfl⟩
      · exact .inr ⟨place + 2, by omega, hin, rfl, by rw [hnext]; rfl⟩
      · exact .inl rfl
      · exact .inr ⟨place + 2 + bigEndian [x, y], by omega, hin, rfl, by
          rw [Nat.add_assoc, hnext, ← List.drop_drop]; rfl⟩
    · rw [if_pos (bne_iff_ne.mpr ha), jpegScan_of_ne ha]
      exact .inl rfl

/-- **The scan by places ends with the same result**, without a byte outside of the data. -/
theorem scanSteps_eq {data : List UInt8} {passes place : Nat}
    (h : data.length - place < passes) :
    scanSteps data passes place = some (jpegScan (data.drop place)) := by
  induction passes generalizing place with
  | zero => omega
  | succ passes ih =>
    rw [scanSteps]
    obtain hfound | ⟨place', hlt, hin, hnext, hscan⟩ := scanStep_cases data place
    · rw [hfound]
    · rw [hnext, hscan]
      exact ih (by omega)

/-! ## The size of a JPEG file -/

/-- **The size of a JPEG file stands in its frame header**, behind any segments and fill bytes; and
no scan leaves its data. -/
theorem pixelSize?_jpeg :
    (∀ data, scanSteps data (data.length + 1) 2 = some (pixelSize? .jpeg data)) ∧
    ∀ bytes size, pixelSize? .jpeg (0xFF :: 0xD8 :: bytes) = some size ↔
      ∃ l : Layout, l.bytes = bytes ∧ l.size = size := by
  refine ⟨fun data => scanSteps_eq (by omega), fun bytes size => ⟨exists_layout, ?_⟩⟩
  rintro ⟨l, rfl, rfl⟩
  exact jpegScan_layout l

/-- A file with fill bytes and a bare marker, and with a body that looks like a frame header. -/
def disguisedLayout : Layout where
  segments := [(2, .bare 0xD7 (by decide)),
    (0, .sized 0xE0 0x00 0x0B [0xFF, 0xC0, 0x00, 0x11, 0x08, 0x00, 0x01, 0x00, 0x01]
      (by decide) (by decide))]
  fill := 1
  frame := ⟨0xC2, by decide, (0x00, 0x11), 0x08, (0x00, 0x78), (0x01, 0xA0)⟩
  rest := [0xFF]

theorem pixelSize?_jpeg_disguisedLayout :
    scanSteps (0xFF :: 0xD8 :: disguisedLayout.bytes) 31 2 = some (some (416, 120)) := by
  have hfound : pixelSize? .jpeg (0xFF :: 0xD8 :: disguisedLayout.bytes) = some (416, 120) :=
    (pixelSize?_jpeg.2 _ _).mpr ⟨disguisedLayout, rfl, by decide⟩
  rw [← hfound]
  exact pixelSize?_jpeg.1 (0xFF :: 0xD8 :: disguisedLayout.bytes)

end SheetMarkup.Docx
