import SheetMarkup.Text.Number

/-!
# Paths

A path is a text of segments between slashes. Empty segments count for nothing, and neither do
single dots, except for one at the very start.

* `parent?`: the path without its last component.
* `extension?`: what follows the last dot of the last component.
* `join`: a path from a folder.
-/

namespace SheetMarkup.Path

/-- The segments of a path. -/
def segments (path : String) : List String := (path.toList.splitOn '/').map String.ofList

/-- The path starts at the root of the file system. -/
def isAbsolute (path : String) : Bool := path.toList.head? == some '/'

/-- The segments after the root, in reverse, and whether each counts as a component. -/
def marked (path : String) : List (String × Bool) :=
  let all := segments path
  if isAbsolute path then (all.drop 1).map (fun s => (s, s != "" && s != ".")) |>.reverse
  else (all.zipIdx.map fun s => (s.1, s.1 != "" && (s.1 != "." || s.2 = 0))).reverse

/-- The text of segments that are given in reverse. -/
def textOf (absolute : Bool) (reversed : List (String × Bool)) : String :=
  (if absolute then "/" else "") ++ "/".intercalate (reversed.reverse.map Prod.fst)

/-- The path without its last component. The empty path and the root have none. -/
def parent? (path : String) : Option String :=
  match (marked path).dropWhile fun s => !s.2 with
  | [] => none
  | _ :: rest => some (textOf (isAbsolute path) (rest.dropWhile fun s => !s.2))

/-- The last component, if it is a name. -/
def fileName? (path : String) : Option String :=
  match (marked path).dropWhile fun s => !s.2 with
  | [] => none
  | (s, _) :: _ => if s == ".." || s == "." then none else some s

/-- What follows the last dot of the last component, if something stands before it. -/
def extension? (path : String) : Option String := do
  let name := (← fileName? path).toList
  let ending := (name.reverse.takeWhile (· != '.')).reverse
  if ending.length + 1 < name.length then some (String.ofList ending) else none

/-- A path from a folder. An absolute path stays as it is. -/
def join (folder path : String) : String :=
  if isAbsolute path || folder.isEmpty then path
  else if folder.toList.getLast? == some '/' then folder ++ path
  else folder ++ "/" ++ path

/-- The path ends in this extension, in either case. -/
def hasExtension (path extension : String) : Bool :=
  match extension? path with
  | some e => e.toList.map Text.asciiLower == extension.toList
  | none => false

end SheetMarkup.Path
