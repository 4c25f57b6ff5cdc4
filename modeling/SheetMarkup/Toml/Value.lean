import SheetMarkup.Sheet.Cell
import SheetMarkup.Text.Binary64

/-!
# Values of a configuration text

The values of the TOML format. Items of an array keep their place in the source text, and the
entries of a table are sorted by key.

* `Datetime`: a date, a time, or both with an optional offset from universal time.
* `Value`: any value, with decidable equality.
-/

namespace SheetMarkup.Toml

/-- A day of the calendar. -/
structure Date where
  year : Nat
  month : Nat
  day : Nat
  deriving DecidableEq

/-- A time of day. -/
structure Time where
  hour : Nat
  minute : Nat
  second : Nat
  nanosecond : Nat
  deriving DecidableEq

/-- The distance from universal time. -/
inductive Offset where
  | universal
  | minutes (east : Bool) (amount : Nat)
  deriving DecidableEq

/-- A date, a time, or a date with a time and perhaps an offset. -/
inductive Datetime where
  | date (d : Date)
  | time (t : Time)
  | both (d : Date) (t : Time) (offset : Option Offset)
  deriving DecidableEq

/-- A value of the format. -/
inductive Value where
  | string (s : String)
  | integer (n : Int)
  | float (x : Text.Binary64)
  | boolean (b : Bool)
  | datetime (d : Datetime)
  | array (items : List (Span × Value))
  | table (entries : List (String × Value))

/-! ## Equality -/

mutual

/-- Two values are the same, the places of items included. -/
def Value.beq : Value → Value → Bool
  | .string s, .string t => s == t
  | .integer m, .integer n => m == n
  | .float x, .float y => x == y
  | .boolean b, .boolean c => b == c
  | .datetime d, .datetime e => d == e
  | .array xs, .array ys => beqItems xs ys
  | .table es, .table fs => beqEntries es fs
  | _, _ => false

/-- Two lists of items are the same. -/
def beqItems : List (Span × Value) → List (Span × Value) → Bool
  | [], [] => true
  | x :: xs, y :: ys => x.1 == y.1 && x.2.beq y.2 && beqItems xs ys
  | _, _ => false

/-- Two lists of entries are the same. -/
def beqEntries : List (String × Value) → List (String × Value) → Bool
  | [], [] => true
  | e :: es, f :: fs => e.1 == f.1 && e.2.beq f.2 && beqEntries es fs
  | _, _ => false

end

mutual

theorem Value.beq_iff : ∀ v w : Value, v.beq w = true ↔ v = w
  | .string s, w | .integer n, w | .float x, w | .boolean b, w | .datetime d, w => by
    cases w <;> simp [Value.beq]
  | .array xs, w => by
    cases w <;> simp [Value.beq, beqItems_iff xs]
  | .table es, w => by
    cases w <;> simp [Value.beq, beqEntries_iff es]

theorem beqItems_iff : ∀ xs ys : List (Span × Value), beqItems xs ys = true ↔ xs = ys
  | [], ys => by cases ys <;> simp [beqItems]
  | (span, v) :: xs, ys => by
    cases ys with
    | nil => simp [beqItems]
    | cons y ys =>
      obtain ⟨span', w⟩ := y
      simp [beqItems, Value.beq_iff v, beqItems_iff xs]

theorem beqEntries_iff : ∀ es fs : List (String × Value), beqEntries es fs = true ↔ es = fs
  | [], fs => by cases fs <;> simp [beqEntries]
  | (key, v) :: es, fs => by
    cases fs with
    | nil => simp [beqEntries]
    | cons f fs =>
      obtain ⟨key', w⟩ := f
      simp [beqEntries, Value.beq_iff v, beqEntries_iff es]

end

instance : DecidableEq Value := fun v w => decidable_of_iff _ (Value.beq_iff v w)

/-! ## Texts of dates, times and numbers -/

/-- A number with leading zeros up to a width. -/
def padded (width n : Nat) : String :=
  let ds := Nat.toDigits 10 n
  String.ofList (List.replicate (width - ds.length) '0' ++ ds)

/-- Year, month and day between hyphens. -/
def Date.text (d : Date) : String :=
  padded 4 d.year ++ "-" ++ padded 2 d.month ++ "-" ++ padded 2 d.day

/-- Hour, minute and second between colons, and the digits of a fraction up to the last that is
not zero. -/
def Time.text (t : Time) : String :=
  let fraction := if t.nanosecond = 0 then [] else
    '.' :: ((padded 9 t.nanosecond).toList.reverse.dropWhile (· == '0')).reverse
  padded 2 t.hour ++ ":" ++ padded 2 t.minute ++ ":" ++ padded 2 t.second ++
    String.ofList fraction

/-- `Z`, or a sign with hours and minutes; no distance is east. -/
def Offset.text : Offset → String
  | universal => "Z"
  | minutes east amount =>
    (if east || amount = 0 then "+" else "-") ++ padded 2 (amount / 60) ++ ":" ++
      padded 2 (amount % 60)

/-- The text of a date, a time or both. -/
def Datetime.text : Datetime → String
  | date d => d.text
  | time t => t.text
  | both d t offset => d.text ++ "T" ++ t.text ++ (offset.map Offset.text).getD ""

/-- The digits of a whole number with its sign. -/
def integerText (n : Int) : String :=
  if n < 0 then "-" ++ Text.decimal n.natAbs else Text.decimal n.natAbs

/-- The value of a key of a table. -/
def lookup? {α : Type} (entries : List (String × α)) (key : String) : Option α :=
  (entries.find? (·.1 == key)).map Prod.snd

end SheetMarkup.Toml
