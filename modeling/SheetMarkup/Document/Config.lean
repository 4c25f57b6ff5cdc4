import SheetMarkup.Toml.Parse

/-!
# Render configuration

The settings of a document that the sheet itself does not make, and their form in a configuration
text. A setting that is missing has its default, and no other key may stand among them.

* `Config.ofValue?`: the settings of a table, or of an array that gives them in order.
* `Config.parse?`: the settings of a text.
-/

namespace SheetMarkup

/-- The settings of a document. -/
structure Config where
  /-- On all four sides, in twentieths of a point. -/
  pageMargin : Nat := 1134
  /-- The style of paragraphs that name none; it is known without a declaration. -/
  defaultStyle : String := "Normal"
  deriving DecidableEq

namespace Config

/-- A whole number of 32 bits. -/
def margin? : Toml.Value → Option Nat
  | .integer n => if 0 ≤ n && n < Text.bound32 then some n.toNat else none
  | _ => none

/-- A text. -/
def text? : Toml.Value → Option String
  | .string s => some s
  | _ => none

/-- Takes up the setting of a key. -/
def set? (c : Config) (key : String) (v : Toml.Value) : Option Config :=
  if key == "page_margin" then (margin? v).map fun n => { c with pageMargin := n }
  else if key == "default_style" then (text? v).map fun s => { c with defaultStyle := s }
  else none

/-- The settings of a table, or of an array that gives them in order. -/
def ofValue? : Toml.Value → Option Config
  | .table entries => entries.foldlM (fun c e => c.set? e.1 e.2) {}
  | .array [] => some {}
  | .array [m] => set? {} "page_margin" m.2
  | .array (m :: s :: _) => (set? {} "page_margin" m.2).bind fun c => c.set? "default_style" s.2
  | _ => none

/-- The settings of a configuration text. -/
def parse? (source : String) : Option Config := do
  let entries ← Toml.parse? source
  ofValue? (.table (← Toml.entriesValue? entries))

end Config

end SheetMarkup
