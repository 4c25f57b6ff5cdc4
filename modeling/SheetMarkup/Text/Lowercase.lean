import SheetMarkup.Text.Lowercase.Table

/-!
# Lower case

Full lower-casing of a text: one character may become two, and a capital sigma at the end of a
word takes its final form.

* `lowerChar`: the lower-case form of one character, out of context.
* `endsWord`: the rule for the final sigma.
* `lowercase`: the lower-case form of a text.
-/

namespace SheetMarkup.Text.Lowercase

/-- Membership in a list of ranges with both ends. -/
def inRanges (ranges : List (Nat × Nat)) (n : Nat) : Bool :=
  ranges.any fun r => r.1 ≤ n && n ≤ r.2

/-- The run holds the code point. -/
def CapitalRun.covers (r : CapitalRun) (n : Nat) : Bool :=
  r.first ≤ n && n ≤ r.last && (n - r.first) % r.stride == 0

/-- The lower-case form of a character out of context. Only `İ` has two characters. -/
def lowerChar (c : Char) : List Char :=
  let n := c.toNat
  if n == 0x130 then ['i', '\u0307']
  else match capitalRuns.find? (·.covers n) with
    | some r => [Char.ofNat (n - r.first + r.lower)]
    | none => [c]

/-- The first character that is not case-ignorable exists and is cased. -/
def meetsCased (cs : List Char) : Bool :=
  match cs.find? fun c => !inRanges caseIgnorableRanges c.toNat with
  | some c => inRanges casedRanges c.toNat
  | none => false

/-- A sigma between these two texts, the first one reversed, ends a word. -/
def endsWord (before after : List Char) : Bool := meetsCased before && !meetsCased after

/-- Lower-cases the rest of a text whose earlier characters are given in reverse. -/
def lowerFrom : List Char → List Char → List Char
  | _, [] => []
  | before, c :: rest =>
    (if c.toNat == 0x3A3 then [if endsWord before rest then 'ς' else 'σ'] else lowerChar c) ++
      lowerFrom (c :: before) rest

end SheetMarkup.Text.Lowercase

namespace SheetMarkup.Text

/-- The lower-case form of a list of characters. -/
def lowercaseChars (cs : List Char) : List Char := Lowercase.lowerFrom [] cs

/-- The lower-case form of a text. -/
def lowercase (s : String) : String := String.ofList (lowercaseChars s.toList)

end SheetMarkup.Text
