/-!
# Deflated data

The decoding of the DEFLATE format: blocks of stored bytes, and blocks of symbols in prefix codes
that stand for bytes or for repetitions of what came before.

* `Cursor`: a place in the data, in bits.
* `Code`: a prefix code as a tree, with `Code.ofLengths` for the canonical ones.
* `inflate`: the bytes of some data, as far as they go.
-/

namespace SheetMarkup.Zip

/-! ## Bits -/

/-- A place in some data, in bits. -/
structure Cursor where
  data : ByteArray
  position : Nat

namespace Cursor

/-- The number of bits from here to the end. -/
def remaining (c : Cursor) : Nat := c.data.size * 8 - c.position

/-- The next bit; the lowest bit of a byte comes first. -/
def bit? (c : Cursor) : Option (Bool × Cursor) :=
  if h : c.position / 8 < c.data.size then
    some ((c.data[c.position / 8].toNat).testBit (c.position % 8),
      { c with position := c.position + 1 })
  else none

/-- A number of the given width, its lowest bit first. -/
def number? (c : Cursor) : Nat → Option (Nat × Cursor)
  | 0 => some (0, c)
  | width + 1 => do
    let (b, c) ← c.bit?
    let (n, c) ← c.number? width
    some (2 * n + b.toNat, c)

/-- The start of the next whole byte. -/
def aligned (c : Cursor) : Cursor := { c with position := (c.position + 7) / 8 * 8 }

end Cursor

/-! ## Prefix codes -/

/-- A prefix code as a tree. -/
inductive Code where
  | unused
  | symbol (n : Nat)
  | branch (zero one : Code)

namespace Code

/-- Adds the code word of a symbol, given by its bits; nothing where it is taken. -/
def insert? (s : Nat) : List Bool → Code → Option Code
  | [], unused => some (symbol s)
  | [], _ => none
  | _ :: _, symbol _ => none
  | b :: bits, unused => (insert? s bits unused).map fun c =>
      if b then branch unused c else branch c unused
  | b :: bits, branch zero one =>
    if b then (insert? s bits one).map (branch zero) else (insert? s bits zero).map (branch · one)

/-- The bits of a number in the given width, the highest first. -/
def wordBits (n : Nat) : Nat → List Bool
  | 0 => []
  | width + 1 => n.testBit width :: wordBits n width

/-- The first code word of each length: one more than the last of the length before, doubled. -/
def firstWords (lengths : List Nat) : Nat → Nat → List Nat
  | 0, _ => []
  | more + 1, word =>
    let length := 16 - more
    let next := 2 * (word + (if length = 1 then 0 else lengths.count (length - 1)))
    next :: firstWords lengths more next

/-- The canonical code with the given lengths of code words; a length of zero means none. -/
def ofLengths? (lengths : List Nat) : Option Code :=
  let add (acc : Option (Code × List Nat)) (entry : Nat × Nat) : Option (Code × List Nat) :=
    acc.bind fun (code, words) =>
      if entry.1 = 0 then some (code, words)
      else
        let word := words.getD (entry.1 - 1) 0
        if word < Nat.pow 2 entry.1 then
          (code.insert? entry.2 (wordBits word entry.1)).map fun code =>
            (code, words.set (entry.1 - 1) (word + 1))
        else none
  (lengths.zipIdx.foldl add (some (unused, firstWords lengths 16 0))).map Prod.fst

end Code

/-! ## Decoding -/

/-- Why decoding stops before the end of the last block. -/
inductive Stop where
  /-- The data ends. -/
  | truncated
  /-- The data is no deflated data. -/
  | corrupt
  deriving DecidableEq

/-- The next symbol of a code. -/
def Code.next (c : Cursor) : Code → Except Stop (Nat × Cursor)
  | unused => .error .corrupt
  | symbol n => .ok (n, c)
  | branch zero one =>
    match c.bit? with
    | none => .error .truncated
    | some (b, c) => if b then one.next c else zero.next c

/-- A number of the given width. -/
def bits (c : Cursor) (width : Nat) : Except Stop (Nat × Cursor) :=
  match c.number? width with
  | some r => .ok r
  | none => .error .truncated

/-- The least length and the further bits of each length symbol. -/
def lengthSymbols : List (Nat × Nat) :=
  [(3, 0), (4, 0), (5, 0), (6, 0), (7, 0), (8, 0), (9, 0), (10, 0), (11, 1), (13, 1), (15, 1),
    (17, 1), (19, 2), (23, 2), (27, 2), (31, 2), (35, 3), (43, 3), (51, 3), (59, 3), (67, 4),
    (83, 4), (99, 4), (115, 4), (131, 5), (163, 5), (195, 5), (227, 5), (258, 0)]

/-- The least distance and the further bits of each distance symbol. -/
def distanceSymbols : List (Nat × Nat) :=
  [(1, 0), (2, 0), (3, 0), (4, 0), (5, 1), (7, 1), (9, 2), (13, 2), (17, 3), (25, 3), (33, 4),
    (49, 4), (65, 5), (97, 5), (129, 6), (193, 6), (257, 7), (385, 7), (513, 8), (769, 8),
    (1025, 9), (1537, 9), (2049, 10), (3073, 10), (4097, 11), (6145, 11), (8193, 12),
    (12289, 12), (16385, 13), (24577, 13)]

/-- Repeats `count` bytes from `distance` bytes back. -/
def repeatBytes (out : ByteArray) (distance : Nat) : Nat → ByteArray
  | 0 => out
  | count + 1 => repeatBytes (out.push (out.get! (out.size - distance))) distance count

/-- The value of a symbol with further bits. -/
def extended (table : List (Nat × Nat)) (symbol : Nat) (c : Cursor) : Except Stop (Nat × Cursor) :=
  match table[symbol]? with
  | none => .error .corrupt
  | some (least, width) => do
    let (n, c) ← bits c width
    .ok (least + n, c)

/-- A step inside a block of symbols: the output, the cursor, and whether the block ends. -/
def symbolStep (literals distances : Code) (out : ByteArray) (c : Cursor) :
    Except Stop (ByteArray × Cursor × Bool) := do
  let (s, c) ← literals.next c
  if s < 256 then .ok (out.push s.toUInt8, c, false)
  else if s = 256 then .ok (out, c, true)
  else
    let (length, c) ← extended lengthSymbols (s - 257) c
    let (d, c) ← distances.next c
    let (distance, c) ← extended distanceSymbols d c
    if out.size < distance then .error .corrupt
    else .ok (repeatBytes out distance length, c, false)

/-- The output so far, and where and why it ends. -/
abbrev Outcome : Type := ByteArray × Except Stop Cursor

/-- The symbols of a block up to its end. -/
def symbolBlock (literals distances : Code) (out : ByteArray) (c : Cursor) : Outcome :=
  match symbolStep literals distances out c with
  | .error stop => (out, .error stop)
  | .ok (out, next, true) => (out, .ok next)
  | .ok (out, next, false) =>
    if _h : next.remaining < c.remaining then symbolBlock literals distances out next
    else (out, .error .corrupt)
termination_by c.remaining

/-- The bytes of a stored block. -/
def storedBlock (out : ByteArray) (c : Cursor) : Outcome :=
  let c := c.aligned
  match bits c 16 with
  | .error stop => (out, .error stop)
  | .ok (length, c) =>
    match bits c 16 with
    | .error stop => (out, .error stop)
    | .ok (check, c) =>
      if length + check != 0xFFFF then (out, .error .corrupt)
      else
        let start := c.position / 8
        let out := out ++ c.data.extract start (start + length)
        if start + length ≤ c.data.size then
          (out, .ok { c with position := (start + length) * 8 })
        else (out, .error .truncated)

/-- The lengths of the fixed code of literals. -/
def fixedLengths : List Nat :=
  List.replicate 144 8 ++ List.replicate 112 9 ++ List.replicate 24 7 ++ List.replicate 8 8

/-- A block in the fixed codes. -/
def fixedBlock (out : ByteArray) (c : Cursor) : Outcome :=
  match Code.ofLengths? fixedLengths, Code.ofLengths? (List.replicate 30 5) with
  | some literals, some distances => symbolBlock literals distances out c
  | _, _ => (out, .error .corrupt)

/-- The order in which the lengths of the code of lengths are given. -/
def lengthOrder : List Nat := [16, 17, 18, 0, 8, 7, 9, 6, 10, 5, 11, 4, 12, 3, 13, 2, 14, 1, 15]

/-- Reads the lengths of the code of lengths, in their order. -/
def codeLengths (c : Cursor) (lengths : List Nat) : List Nat → Except Stop (List Nat × Cursor)
  | [] => .ok (lengths, c)
  | place :: places => do
    let (n, c) ← bits c 3
    codeLengths c (lengths.set place n) places

/-- Reads lengths of code words, in reverse; three symbols stand for repetitions. -/
def wordLengths (code : Code) : Nat → List Nat → Cursor → Except Stop (List Nat × Cursor)
  | 0, read, c => .ok (read, c)
  | missing + 1, read, c => do
    let (s, c) ← code.next c
    if s < 16 then wordLengths code missing (s :: read) c
    else if s = 16 then
      match read with
      | [] => .error .corrupt
      | last :: _ =>
        let (n, c) ← bits c 2
        if missing + 1 < n + 3 then .error .corrupt
        else wordLengths code (missing - (n + 2)) (List.replicate (n + 3) last ++ read) c
    else
      let (width, least) := if s = 17 then (3, 3) else (7, 11)
      let (n, c) ← bits c width
      if missing + 1 < n + least then .error .corrupt
      else wordLengths code (missing - (n + least - 1)) (List.replicate (n + least) 0 ++ read) c
termination_by missing => missing
decreasing_by all_goals omega

/-- The two codes of a block that describes them itself. -/
def dynamicCodes (c : Cursor) : Except Stop (Code × Code × Cursor) := do
  let (hlit, c) ← bits c 5
  let (hdist, c) ← bits c 5
  let (hclen, c) ← bits c 4
  let (lengths, c) ← codeLengths c (List.replicate 19 0) (lengthOrder.take (hclen + 4))
  let some code := Code.ofLengths? lengths | .error .corrupt
  let (read, c) ← wordLengths code (hlit + 257 + hdist + 1) [] c
  let all := read.reverse
  match Code.ofLengths? (all.take (hlit + 257)), Code.ofLengths? (all.drop (hlit + 257)) with
  | some literals, some distances => .ok (literals, distances, c)
  | _, _ => .error .corrupt

/-- One block, after the bit that marks the last one. -/
def block (out : ByteArray) (c : Cursor) : Outcome :=
  match bits c 2 with
  | .error stop => (out, .error stop)
  | .ok (kind, c) =>
    if kind = 0 then storedBlock out c
    else if kind = 1 then fixedBlock out c
    else if kind = 2 then
      match dynamicCodes c with
      | .error stop => (out, .error stop)
      | .ok (literals, distances, c) => symbolBlock literals distances out c
    else (out, .error .corrupt)

/-- All blocks up to the last one. -/
def blocks (out : ByteArray) (c : Cursor) : ByteArray × Option Stop :=
  match c.bit? with
  | none => (out, some .truncated)
  | some (last, inner) =>
    match block out inner with
    | (out, .error stop) => (out, some stop)
    | (out, .ok next) =>
      if last then (out, none)
      else if _h : next.remaining < c.remaining then blocks out next
      else (out, some .corrupt)
termination_by c.remaining

/-- The bytes of deflated data. Data that ends too early gives what could be read of it; data that
is corrupt gives nothing. -/
def inflate (data : ByteArray) : Option ByteArray :=
  match blocks ByteArray.empty ⟨data, 0⟩ with
  | (_, some .corrupt) => none
  | (out, _) => some out

end SheetMarkup.Zip
