/-!
# Numbers in a text

Reading and writing whole numbers, and recognising decimal numbers.

* `parseNat?`: a whole number below a bound, with an optional plus sign.
* `isDecimal`: the texts that denote a floating-point number.
-/

namespace SheetMarkup.Text

/-- A digit from `0` to `9`. -/
def isDigit (c : Char) : Bool := 48 ≤ c.toNat && c.toNat ≤ 57

/-- The value of a digit. -/
def digitValue (c : Char) : Nat := c.toNat - 48

/-- The value of a row of digits, most significant first. -/
def digitsValue (cs : List Char) : Nat := cs.foldl (fun n c => 10 * n + digitValue c) 0

/-- A row of at least one digit. -/
def digits? (cs : List Char) : Option Nat :=
  if !cs.isEmpty && cs.all isDigit then some (digitsValue cs) else none

/-- A whole number below `bound`: digits, with an optional plus sign before them. -/
def parseNat? (bound : Nat) (s : String) : Option Nat :=
  let ds := match s.toList with
    | '+' :: ds => ds
    | ds => ds
  (digits? ds).filter (· < bound)

/-- The bound of 32-bit numbers. -/
def bound32 : Nat := 4294967296

/-- The bound of 64-bit numbers. -/
def bound64 : Nat := 18446744073709551616

/-- The decimal digits of a number. -/
def decimal (n : Nat) : String := String.ofList (Nat.toDigits 10 n)

/-- The value of a hexadecimal digit of either case. -/
def hexValue? (c : Char) : Option Nat :=
  let n := c.toNat
  if 48 ≤ n && n ≤ 57 then some (n - 48)
  else if 97 ≤ n && n ≤ 102 then some (n - 87)
  else if 65 ≤ n && n ≤ 70 then some (n - 55)
  else none

/-- The value of a row of at least one digit in a base of at most sixteen. -/
def digitsInBase? (base : Nat) (cs : List Char) : Option Nat :=
  if cs.isEmpty then none
  else cs.foldl (fun n? c => n?.bind fun n =>
    ((hexValue? c).filter (· < base)).map (base * n + ·)) (some 0)

/-- The small form of an ASCII capital. -/
def asciiLower (c : Char) : Char :=
  if 65 ≤ c.toNat && c.toNat ≤ 90 then Char.ofNat (c.toNat + 32) else c

/-- The capital form of a small ASCII letter. -/
def asciiUpper (c : Char) : Char :=
  if 97 ≤ c.toNat && c.toNat ≤ 122 then Char.ofNat (c.toNat - 32) else c

/-- An ASCII letter. -/
def isAsciiLetter (c : Char) : Bool :=
  (65 ≤ c.toNat && c.toNat ≤ 90) || (97 ≤ c.toNat && c.toNat ≤ 122)

/-- An ASCII letter or digit. -/
def isAsciiAlphanumeric (c : Char) : Bool := isAsciiLetter c || isDigit c

/-- An exponent mark, an optional sign and at least one digit, or nothing at all. -/
def isExponentPart : List Char → Bool
  | [] => true
  | c :: cs =>
    (c == 'e' || c == 'E') &&
      let ds := match cs with
        | '+' :: ds => ds
        | '-' :: ds => ds
        | ds => ds
      !ds.isEmpty && ds.all isDigit

/-- Digits with an optional point among them, at least one digit, and an optional exponent. -/
def isPlainDecimal (cs : List Char) : Bool :=
  let whole := cs.takeWhile isDigit
  let afterWhole := cs.dropWhile isDigit
  match afterWhole with
  | '.' :: r =>
    let fraction := r.takeWhile isDigit
    (!whole.isEmpty || !fraction.isEmpty) && isExponentPart (r.dropWhile isDigit)
  | r => !whole.isEmpty && isExponentPart r

/-- The text denotes a floating-point number: an optional sign, then a decimal, `inf`, `infinity`
or `nan` in any case. -/
def isDecimal (cs : List Char) : Bool :=
  let body := match cs with
    | '+' :: r => r
    | '-' :: r => r
    | r => r
  let word := body.map asciiLower
  word == ['i', 'n', 'f'] || word == ['i', 'n', 'f', 'i', 'n', 'i', 't', 'y'] ||
    word == ['n', 'a', 'n'] || isPlainDecimal body

end SheetMarkup.Text
