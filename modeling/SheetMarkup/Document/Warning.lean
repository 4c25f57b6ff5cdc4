import SheetMarkup.Script.Error

/-!
# Warnings

Something doubtful that stops nothing, with the cell of the command that it is about.
-/

namespace SheetMarkup

/-- What is doubtful about a block. -/
inductive Doubt where
  | ignoredBody (style : String)
  | redeclared (id : String)
  | unknownParent (id parent : String)
  | repeatedStyle (count : Nat)
  deriving DecidableEq

/-- The wording of a doubt. -/
def Doubt.message : Doubt → String
  | ignoredBody style => "body content under style `" ++ style ++ "` is ignored"
  | redeclared id =>
    "style `" ++ id ++ "` is declared more than once; the last declaration wins"
  | unknownParent id parent =>
    "style `" ++ id ++ "` inherits from unknown style `" ++ parent ++ "`"
  | repeatedStyle count =>
    "paragraph has " ++ Text.decimal count ++ " `style` arguments; using the last one"

/-- A doubt and the cell of the command that it is about. -/
structure Warning where
  doubt : Doubt
  origin : Option Origin
  deriving DecidableEq

namespace Warning

/-- The wording of a warning. -/
def message (w : Warning) : String := w.doubt.message

/-- The warning as one line, with its cell. -/
def display (w : Warning) : String :=
  w.message ++
    match w.origin with
    | some o => " (at " ++ o.cell.text ++ ")"
    | none => ""

/-- The report of a warning in the source text with this number. -/
def diagnostic (w : Warning) (file : Nat) : Diagnostic :=
  Diagnostic.at .warning w.message w.origin file

end Warning

end SheetMarkup
