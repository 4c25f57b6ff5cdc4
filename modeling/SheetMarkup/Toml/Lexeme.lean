import SheetMarkup.Toml.Value

/-!
# Words of a configuration text

Blanks, comments, keys, strings, numbers and dates. Every reader takes the front of a text and
returns what it read with the rest; it gives nothing where the text does not fit.

* `Step`: the type of a reader.
* `string?`: the four kinds of strings.
* `keyPath?`: a key, with dots between its parts.
* `number?`: dates, times, floats and integers.
-/

namespace SheetMarkup.Toml

/-- A reader of the front of a text. -/
abbrev Step (α : Type) : Type := List Char → Option (α × List Char)

/-! ## Blanks and comments -/

/-- The blanks inside a line. -/
def isSpace (c : Char) : Bool := c == ' ' || c == '\t'

/-- Drops the blanks inside a line. -/
def skipSpaces (cs : List Char) : List Char := cs.dropWhile isSpace

/-- A control character other than the tab. -/
def isControl (c : Char) : Bool := (c.toNat < 0x20 && c != '\t') || c.toNat == 0x7F

/-- Drops a line break. -/
def newline? : List Char → Option (List Char)
  | '\n' :: cs => some cs
  | '\r' :: '\n' :: cs => some cs
  | _ => none

/-- Drops a comment, if there is one; the break after it stays. -/
def skipComment : List Char → List Char
  | '#' :: cs => cs.dropWhile fun c => !isControl c
  | cs => cs

/-- Drops what may follow a statement on its line, and the line break. -/
def lineEnd? (cs : List Char) : Option (List Char) :=
  match skipComment (skipSpaces cs) with
  | [] => some []
  | cs => newline? cs

theorem dropWhile_length_le {p : Char → Bool} (cs : List Char) :
    (cs.dropWhile p).length ≤ cs.length :=
  (List.dropWhile_sublist p).length_le

theorem newline?_length {cs rest : List Char} (h : newline? cs = some rest) :
    rest.length < cs.length := by
  unfold newline? at h
  split at h <;> cases h <;> simp only [List.length_cons] <;> omega

theorem skipComment_length_le (cs : List Char) : (skipComment cs).length ≤ cs.length := by
  unfold skipComment
  split
  · exact Nat.le_trans (dropWhile_length_le _) (by simp)
  · exact Nat.le_refl _

/-- Drops blanks, comments and line breaks between the items of an array. -/
def skipTrivia (cs : List Char) : List Char :=
  match _hbreak : newline? (skipComment (skipSpaces cs)) with
  | some rest => skipTrivia rest
  | none => skipSpaces cs
termination_by cs.length
decreasing_by
  have h1 := newline?_length _hbreak
  have h2 := skipComment_length_le (skipSpaces cs)
  have h3 : (skipSpaces cs).length ≤ cs.length := dropWhile_length_le cs
  omega

/-! ## Strings -/

/-- The character with a code point, where it is one. -/
def scalar? (n : Nat) : Option Char :=
  if h : n.isValidChar then some (Char.ofNatAux n h) else none

/-- The character of a row of hexadecimal digits. -/
def hexScalar? (ds : List Char) : Option Char := (Text.digitsInBase? 16 ds).bind scalar?

/-- The character that an escape stands for, after the backslash. -/
def escape? : Step Char
  | 'b' :: cs => some ('\x08', cs)
  | 't' :: cs => some ('\t', cs)
  | 'n' :: cs => some ('\n', cs)
  | 'f' :: cs => some ('\x0c', cs)
  | 'r' :: cs => some ('\r', cs)
  | '"' :: cs => some ('"', cs)
  | '\\' :: cs => some ('\\', cs)
  | 'u' :: cs =>
    if 4 ≤ cs.length then (hexScalar? (cs.take 4)).map fun c => (c, cs.drop 4) else none
  | 'U' :: cs =>
    if 8 ≤ cs.length then (hexScalar? (cs.take 8)).map fun c => (c, cs.drop 8) else none
  | _ => none

theorem escape?_length {cs rest : List Char} {c : Char} (h : escape? cs = some (c, rest)) :
    rest.length < cs.length := by
  unfold escape? at h
  split at h
  all_goals first
    | (simp only [Option.some.injEq, Prod.mk.injEq] at h; obtain ⟨-, rfl⟩ := h; simp)
    | (split at h
       · obtain ⟨a, -, h⟩ := Option.map_eq_some_iff.mp h
         simp only [Prod.mk.injEq] at h
         obtain ⟨-, rfl⟩ := h
         simp only [List.length_drop, List.length_cons]
         omega
       · simp at h)
    | simp at h

/-- Drops blanks and line breaks. -/
def skipBlankLines (cs : List Char) : List Char :=
  match _hbreak : newline? (skipSpaces cs) with
  | some rest => skipBlankLines rest
  | none => skipSpaces cs
termination_by cs.length
decreasing_by
  have h1 := newline?_length _hbreak
  have h2 : (skipSpaces cs).length ≤ cs.length := dropWhile_length_le cs
  omega

theorem skipBlankLines_length_le (cs : List Char) : (skipBlankLines cs).length ≤ cs.length := by
  fun_induction skipBlankLines cs with
  | case1 cs rest h ih =>
    have h1 := newline?_length h
    have h2 : (skipSpaces cs).length ≤ cs.length := dropWhile_length_le cs
    omega
  | case2 cs => exact dropWhile_length_le cs

/-- A line break after blanks, with all blanks and breaks that follow it. -/
def foldedBreak? (cs : List Char) : Option (List Char) :=
  (newline? (skipSpaces cs)).map skipBlankLines

theorem foldedBreak?_length {cs rest : List Char} (h : foldedBreak? cs = some rest) :
    rest.length < cs.length := by
  obtain ⟨r, hr, rfl⟩ := Option.map_eq_some_iff.mp h
  have h1 := newline?_length hr
  have h2 : (skipSpaces cs).length ≤ cs.length := dropWhile_length_le cs
  have h3 := skipBlankLines_length_le r
  omega

/-- The rest of a string on one line, after the characters read, in reverse. Only between double
quotes does a backslash open an escape. -/
def lineString? (quote : Char) (read : List Char) (cs : List Char) :
    Option (String × List Char) :=
  match cs with
  | [] => none
  | c :: tail =>
    if c == quote then some (String.ofList read.reverse, tail)
    else if c == '\\' && quote == '"' then
      match _hescape : escape? tail with
      | some (e, rest) => lineString? quote (e :: read) rest
      | none => none
    else if isControl c then none
    else lineString? quote (c :: read) tail
termination_by cs.length
decreasing_by
  · have := escape?_length _hescape
    simp only [List.length_cons]
    omega
  · simp

/-- The rest of a string over several lines, after the characters read, in reverse. Up to two
quotes may stand in it, also right before the three that close it. A break is one line feed. -/
def blockString? (quote : Char) (read : List Char) (cs : List Char) :
    Option (String × List Char) :=
  match cs with
  | [] => none
  | c :: tail =>
    if c == quote then
      let more := (tail.takeWhile (· == quote)).length
      let rest := tail.drop more
      if more < 2 then blockString? quote (List.replicate (more + 1) quote ++ read) rest
      else if more < 5 then
        some (String.ofList (List.replicate (more - 2) quote ++ read).reverse, rest)
      else none
    else if c == '\\' && quote == '"' then
      match _hfolded : foldedBreak? tail, _hescape : escape? tail with
      | some rest, _ => blockString? quote read rest
      | none, some (e, rest) => blockString? quote (e :: read) rest
      | none, none => none
    else match _hbreak : newline? (c :: tail) with
      | some rest => blockString? quote ('\n' :: read) rest
      | none => if isControl c then none else blockString? quote (c :: read) tail
termination_by cs.length
decreasing_by
  · simp only [List.length_cons, List.length_drop]
    omega
  · have := foldedBreak?_length _hfolded
    simp only [List.length_cons]
    omega
  · have := escape?_length _hescape
    simp only [List.length_cons]
    omega
  · exact newline?_length _hbreak
  · simp

/-- Drops the line break right after the opening quotes of a string over several lines. -/
def skipFirstBreak (cs : List Char) : List Char := (newline? cs).getD cs

/-- A string of any of the four kinds. -/
def string? : Step String
  | '"' :: '"' :: '"' :: cs => blockString? '"' [] (skipFirstBreak cs)
  | '"' :: cs => lineString? '"' [] cs
  | '\'' :: '\'' :: '\'' :: cs => blockString? '\'' [] (skipFirstBreak cs)
  | '\'' :: cs => lineString? '\'' [] cs
  | _ => none

/-! ## Keys -/

/-- The characters of a key without quotes. -/
def isBareKeyChar (c : Char) : Bool := Text.isAsciiAlphanumeric c || c == '_' || c == '-'

/-- One part of a key: bare, or a string on one line. -/
def keyPart? : Step String
  | '"' :: cs => lineString? '"' [] cs
  | '\'' :: cs => lineString? '\'' [] cs
  | cs =>
    let bare := cs.takeWhile isBareKeyChar
    if bare.isEmpty then none else some (String.ofList bare, cs.dropWhile isBareKeyChar)

/-- The parts of a key and the blanks around them, up to a number of parts. -/
def keyParts? : Nat → Step (List String)
  | 0, _ => none
  | more + 1, cs => do
    let (part, rest) ← keyPart? (skipSpaces cs)
    match skipSpaces rest with
    | '.' :: rest =>
      let (parts, rest) ← keyParts? more rest
      some (part :: parts, rest)
    | rest => some ([part], rest)

/-- The depth that keys and nested values stay below. -/
def depthLimit : Nat := 80

/-- A key with dots between its parts. -/
def keyPath? : Step (List String) := keyParts? (depthLimit - 1)

/-! ## Dates and times -/

/-- A number of exactly `width` digits within bounds. -/
def fixed? (width least most : Nat) : Step Nat := fun cs => do
  let ds := cs.take width
  if ds.length = width && ds.all Text.isDigit then
    let n := Text.digitsValue ds
    if least ≤ n && n ≤ most then some (n, cs.drop width) else none
  else none

/-- Exactly this character. -/
def expect? (c : Char) : List Char → Option (List Char)
  | d :: cs => if c == d then some cs else none
  | [] => none

/-- The number of days of a month. -/
def daysIn (year month : Nat) : Nat :=
  if month = 2 then
    if year % 4 = 0 && (year % 100 ≠ 0 || year % 400 = 0) then 29 else 28
  else if month = 4 || month = 6 || month = 9 || month = 11 then 30
  else 31

/-- Year, month and day. -/
def date? : Step Date := fun cs => do
  let (year, cs) ← fixed? 4 0 9999 cs
  let cs ← expect? '-' cs
  let (month, cs) ← fixed? 2 1 12 cs
  let cs ← expect? '-' cs
  let (day, cs) ← fixed? 2 1 (daysIn year month) cs
  some (⟨year, month, day⟩, cs)

/-- The fraction of a second in nanoseconds; digits after the ninth are dropped. -/
def fraction? : Step Nat
  | '.' :: cs =>
    let ds := cs.takeWhile Text.isDigit
    let kept := ds.take 9
    if ds.isEmpty then none
    else some (Text.digitsValue kept * Nat.pow 10 (9 - kept.length), cs.dropWhile Text.isDigit)
  | cs => some (0, cs)

/-- Hour, minute and second; the sixtieth second is a leap second. -/
def time? : Step Time := fun cs => do
  let (hour, cs) ← fixed? 2 0 23 cs
  let cs ← expect? ':' cs
  let (minute, cs) ← fixed? 2 0 59 cs
  let cs ← expect? ':' cs
  let (second, cs) ← fixed? 2 0 60 cs
  let (nanosecond, cs) ← fraction? cs
  some (⟨hour, minute, second, nanosecond⟩, cs)

/-- The offset of a time, if it has one. -/
def offset? : Step (Option Offset)
  | 'Z' :: cs => some (some .universal, cs)
  | 'z' :: cs => some (some .universal, cs)
  | c :: cs =>
    if c == '+' || c == '-' then do
      let (hour, cs) ← fixed? 2 0 23 cs
      let cs ← expect? ':' cs
      let (minute, cs) ← fixed? 2 0 59 cs
      some (some (.minutes (c == '+') (hour * 60 + minute)), cs)
    else some (none, c :: cs)
  | [] => some (none, [])

/-- The mark between a date and its time. -/
def isTimeMark (c : Char) : Bool := c == 'T' || c == 't' || c == ' '

/-- A date, a time, or both. -/
def datetime? : Step Datetime := fun cs =>
  match date? cs with
  | none => (time? cs).map fun r => (.time r.1, r.2)
  | some (d, rest) =>
    let withTime := match rest with
      | c :: tail => if isTimeMark c then time? tail else none
      | [] => none
    match withTime with
    | none => some (.date d, rest)
    | some (t, rest) => (offset? rest).map fun r => (.both d t r.1, r.2)

/-! ## Numbers -/

/-- Digits with single underscores between them, without the underscores. -/
def digitRun : List Char → List Char × List Char
  | [] => ([], [])
  | '_' :: c :: cs =>
    if Text.isDigit c then let r := digitRun cs; (c :: r.1, r.2) else ([], '_' :: c :: cs)
  | c :: cs => if Text.isDigit c then let r := digitRun cs; (c :: r.1, r.2) else ([], c :: cs)

/-- At least one digit, with underscores between digits. -/
def digits? : Step (List Char)
  | c :: cs =>
    if Text.isDigit c then let r := digitRun cs; some (c :: r.1, r.2) else none
  | [] => none

/-- A sign, if there is one. -/
def sign : List Char → Bool × List Char
  | '-' :: cs => (true, cs)
  | '+' :: cs => (false, cs)
  | cs => (false, cs)

/-- A sign and decimal digits; a zero stands alone. -/
def decimal? : Step (Bool × List Char) := fun cs =>
  let (negative, rest) := sign cs
  match rest with
  | '0' :: rest => some ((negative, ['0']), rest)
  | rest => (digits? rest).map fun r => ((negative, r.1), r.2)

/-- An exponent, if there is one. -/
def exponent? : Step (Option Int)
  | c :: cs =>
    if c == 'e' || c == 'E' then
      let (negative, rest) := sign cs
      (digits? rest).map fun r =>
        let n : Int := Text.digitsValue r.1
        (some (if negative then -n else n), r.2)
    else some (none, c :: cs)
  | [] => some (none, [])

/-- A float in digits, with a fraction, an exponent or both. One that is too large is refused
unless it is negative. -/
def plainFloat? : Step Text.Binary64 := fun cs => do
  let ((negative, whole), cs) ← decimal? cs
  let (fraction, cs) ← match cs with
    | '.' :: cs => digits? cs
    | cs => some ([], cs)
  let (exponent, cs) ← exponent? cs
  if fraction.isEmpty && exponent.isNone then none
  else
    let x := Text.Binary64.ofDecimal negative (Text.digitsValue (whole ++ fraction))
      (exponent.getD 0 - fraction.length)
    if x = .infinite false then none else some (x, cs)

/-- A word at the front of a text. -/
def word? (word : List Char) (cs : List Char) : Option (List Char) :=
  if word.isPrefixOf cs then some (cs.drop word.length) else none

/-- The floats that are not finite numbers. -/
def specialFloat? : Step Text.Binary64 := fun cs =>
  let (negative, rest) := sign cs
  match word? ['i', 'n', 'f'] rest with
  | some rest => some (.infinite negative, rest)
  | none => (word? ['n', 'a', 'n'] rest).map fun rest => (.nan negative, rest)

/-- Digits of a base with single underscores between them, without the underscores. -/
def baseRun (base : Nat) : List Char → List Char × List Char
  | [] => ([], [])
  | '_' :: c :: cs =>
    if (Text.digitsInBase? base [c]).isSome then let r := baseRun base cs; (c :: r.1, r.2)
    else ([], '_' :: c :: cs)
  | c :: cs =>
    if (Text.digitsInBase? base [c]).isSome then let r := baseRun base cs; (c :: r.1, r.2)
    else ([], c :: cs)

/-- The bound of positive integers. -/
def integerBound : Nat := 9223372036854775808

/-- The rest of an integer in another base. -/
def based? (base : Nat) : Step Int
  | '_' :: _ => none
  | cs =>
    let r := baseRun base cs
    match Text.digitsInBase? base r.1 with
    | some n => if n < integerBound then some ((n : Int), r.2) else none
    | none => none

/-- An integer of 64 bits with a sign. -/
def integer? : Step Int
  | '0' :: 'x' :: cs => based? 16 cs
  | '0' :: 'o' :: cs => based? 8 cs
  | '0' :: 'b' :: cs => based? 2 cs
  | cs => do
    let ((negative, ds), rest) ← decimal? cs
    let n := Text.digitsValue ds
    if negative then if n ≤ integerBound then some (-(n : Int), rest) else none
    else if n < integerBound then some ((n : Int), rest) else none

/-- A date, a time, a float or an integer, whichever fits first. -/
def number? : Step Value := fun cs =>
  match datetime? cs with
  | some (d, rest) => some (.datetime d, rest)
  | none =>
    match (plainFloat? cs).or (specialFloat? cs) with
    | some (x, rest) => some (.float x, rest)
    | none => (integer? cs).map fun r => (.integer r.1, r.2)

/-- A value without parts. -/
def scalarValue? : Step Value := fun cs =>
  match cs with
  | [] => none
  | c :: _ =>
    if c == '"' || c == '\'' then (string? cs).map fun r => (.string r.1, r.2)
    else if c == 't' then (word? ['t', 'r', 'u', 'e'] cs).map fun r => (.boolean true, r)
    else if c == 'f' then (word? ['f', 'a', 'l', 's', 'e'] cs).map fun r => (.boolean false, r)
    else if c == 'i' || c == 'n' then (specialFloat? cs).map fun r => (.float r.1, r.2)
    else number? cs

end SheetMarkup.Toml
