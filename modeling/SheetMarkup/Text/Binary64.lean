import SheetMarkup.Text.Number

/-!
# Double precision numbers in decimal

A finite double is `significand · 2 ^ exponent` with a significand below `2 ^ 53` and an exponent
of at least `-1074`. Both directions between decimals and doubles are computed exactly on natural
numbers.

* `ofDecimal`: the double nearest to a decimal, a tie going to the even significand.
* `shortest`: the fewest decimal digits that read back as the same double, nearest to it.
* `positional`: a number written without an exponent.
-/

namespace SheetMarkup.Text

/-- A double precision number. -/
inductive Binary64 where
  | nan (negative : Bool)
  | infinite (negative : Bool)
  | finite (negative : Bool) (significand : Nat) (exponent : Int)
  deriving DecidableEq

namespace Binary64

/-- A ratio rounded to the nearest whole number, a tie going to the even one. -/
def roundRatio (num den : Nat) : Nat :=
  let q := num / den
  let r := 2 * (num % den)
  if r < den then q else if den < r then q + 1 else q + q % 2

/-- The ratio `num / den · 2 ^ -e` as a ratio. -/
def shiftRatio (num den : Nat) (e : Int) : Nat × Nat :=
  if e < 0 then (num * Nat.pow 2 (-e).toNat, den) else (num, den * Nat.pow 2 e.toNat)

/-- The double nearest to a positive ratio. -/
def ofRatio (negative : Bool) (num den : Nat) : Binary64 :=
  let low := max (-1074) ((num.log2 : Int) - den.log2 - 53)
  let atLow := shiftRatio num den low
  let e := if atLow.1 / atLow.2 < Nat.pow 2 53 then low else low + 1
  let scaled := shiftRatio num den e
  let s := roundRatio scaled.1 scaled.2
  let (s, e) := if s == Nat.pow 2 53 then (Nat.pow 2 52, e + 1) else (s, e)
  if 971 < e then .infinite negative else .finite negative s e

/-- The double nearest to `digits · 10 ^ exponent`. Decimals far outside the range of doubles are
settled by their magnitude alone. -/
def ofDecimal (negative : Bool) (digits : Nat) (exponent : Int) : Binary64 :=
  let magnitude := (Nat.toDigits 10 digits).length + exponent
  if digits == 0 || magnitude < -330 then .finite negative 0 0
  else if 320 < magnitude then .infinite negative
  else if exponent < 0 then ofRatio negative digits (Nat.pow 10 (-exponent).toNat)
  else ofRatio negative (digits * Nat.pow 10 exponent.toNat) 1

/-- The point `n · 10 ^ p` lies among the reals that round to `significand · 2 ^ exponent`. -/
def readsBack (significand : Nat) (exponent : Int) (n : Nat) (p : Int) : Bool :=
  -- all four numbers are scaled by the same positive factor
  let binary := if exponent < 2 then 1 else Nat.pow 2 (exponent - 2).toNat
  let binary' := if exponent < 2 then Nat.pow 2 (2 - exponent).toNat else 1
  let ten := if p < 0 then 1 else Nat.pow 10 p.toNat
  let ten' := if p < 0 then Nat.pow 10 (-p).toNat else 1
  let point := n * ten * binary'
  let below := if significand == Nat.pow 2 52 && -1074 < exponent then 1 else 2
  let least := (4 * significand - below) * binary * ten'
  let most := (4 * significand + 2) * binary * ten'
  if significand % 2 == 0 then least ≤ point && point ≤ most else least < point && point < most

/-- The multiple of `10 ^ p` next to the double that reads back as it, if there is one: of two,
the nearer, and the larger when both are equally near. -/
def onGrid? (significand : Nat) (exponent : Int) (p : Int) : Option Nat :=
  let num := significand * (if exponent < 0 then 1 else Nat.pow 2 exponent.toNat) *
    (if p < 0 then Nat.pow 10 (-p).toNat else 1)
  let den := (if exponent < 0 then Nat.pow 2 (-exponent).toNat else 1) *
    (if p < 0 then 1 else Nat.pow 10 p.toNat)
  let n := num / den
  let lowFits := 0 < n && readsBack significand exponent n p
  let highFits := readsBack significand exponent (n + 1) p
  if lowFits && highFits then some (if 2 * (num % den) < den then n else n + 1)
  else if lowFits then some n
  else if highFits then some (n + 1)
  else none

/-- Tries ever finer decimal grids. -/
def shortestFrom (significand : Nat) (exponent : Int) : Nat → Int → Nat × Int
  | 0, p => (0, p)
  | tries + 1, p =>
    match onGrid? significand exponent p with
    | some n => (n, p)
    | none => shortestFrom significand exponent tries (p - 1)

/-- The shortest decimal `n · 10 ^ p` that reads back as a positive double. -/
def shortest (significand : Nat) (exponent : Int) : Nat × Int :=
  -- the double is below `2 ^ bits`, hence below `10 ^ p` for the first grid
  let bits := (significand.log2 : Int) + 1 + exponent
  let p := if bits < 0 then 1 - ((-bits) * 3 / 10) else bits / 3 + 1
  shortestFrom significand exponent 100 p

/-- The decimal `n · 10 ^ p` without an exponent and without needless zeros. -/
def positional (n : Nat) (p : Int) : List Char :=
  let ds := Nat.toDigits 10 n
  if 0 ≤ p then ds ++ List.replicate p.toNat '0'
  else
    let places := (-p).toNat
    let padded := List.replicate (places + 1 - ds.length) '0' ++ ds
    padded.take (padded.length - places) ++ '.' :: padded.drop (padded.length - places)

/-- The digits of a finite double without its sign: whole numbers have no point. -/
def magnitudeText (significand : Nat) (exponent : Int) : List Char :=
  if significand == 0 then ['0']
  else let d := shortest significand exponent
    positional d.1 d.2

/-- The text of a number as a cell shows it: `NaN`, `inf`, `-0`, `1`, `0.5`. -/
def cellText : Binary64 → String
  | nan _ => "NaN"
  | infinite negative => if negative then "-inf" else "inf"
  | finite negative s e =>
    String.ofList ((if negative then ['-'] else []) ++ magnitudeText s e)

end Binary64

end SheetMarkup.Text
