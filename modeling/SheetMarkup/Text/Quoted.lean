import SheetMarkup.Text.Quoted.Table

/-!
# Quoted texts

A text between double quotes in which every character is visible: quotes, backslashes and the
usual controls have a two-character escape, and every other character without a glyph of its own
is given by its code point in hexadecimal.

* `hexDigits`: a number in lower-case hexadecimal.
* `escapeChar`: how one character is written.
* `quoted`: the whole text.
-/

namespace SheetMarkup.Text

/-- A number in lower-case hexadecimal, without leading zeros. -/
def hexDigits (n : Nat) : List Char := Nat.toDigits 16 n

namespace Quoted

/-- The character has no glyph of its own. -/
def isHidden (c : Char) : Bool :=
  hiddenRanges.any fun r => r.1 ≤ c.toNat && c.toNat ≤ r.2

/-- How one character stands in a quoted text. -/
def escapeChar (c : Char) : List Char :=
  if c == '\x00' then ['\\', '0']
  else if c == '\t' then ['\\', 't']
  else if c == '\r' then ['\\', 'r']
  else if c == '\n' then ['\\', 'n']
  else if c == '\\' then ['\\', '\\']
  else if c == '"' then ['\\', '"']
  else if isHidden c then ['\\', 'u', '\x7b'] ++ hexDigits c.toNat ++ ['\x7d']
  else [c]

end Quoted

/-- The text between double quotes, with every character visible. -/
def quoted (s : String) : String :=
  String.ofList ('"' :: s.toList.flatMap Quoted.escapeChar ++ ['"'])

end SheetMarkup.Text
