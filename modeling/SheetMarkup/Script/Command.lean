import SheetMarkup.Text.Blank
import SheetMarkup.Text.Lowercase

/-!
# Commands

The two instructions of a sheet, the words that open them and the arguments that each takes.

* `Command.ofAlias?`: the command that a word opens, in any case.
* `Command.accepts`: the arguments of a command.
-/

namespace SheetMarkup

/-- What a command row asks for. -/
inductive Command where
  | paragraph
  | style
  deriving DecidableEq

namespace Command

/-- The full name of a command. -/
def name : Command → String
  | paragraph => "paragraph"
  | style => "style"

/-- The words that open a command, in order. -/
def aliases : Command → List String
  | paragraph => ["p", "paragraph"]
  | style => ["s", "style"]

/-- The names of the arguments that a command takes. -/
def legalArguments : Command → List String
  | paragraph => ["style"]
  | style => ["name", "parent", "color", "size", "font"]

/-- The command takes an argument of this lower-case name. -/
def accepts (c : Command) (name : String) : Bool := c.legalArguments.contains name

/-- The command that exactly this word opens. -/
def ofWord? (word : String) : Option Command :=
  [paragraph, style].find? fun c => c.aliases.contains word

/-- The command that a word opens; blanks around it and its case do not count. -/
def ofAlias? (word : String) : Option Command :=
  (ofWord? word).or (ofWord? (Text.lowercase (Text.trim word)))

end Command

end SheetMarkup
