import SheetMarkup.Files.System
import SheetMarkup.Text.Blank

/-!
# Categories of fixtures

The fixtures of a folder are the files under it with the ending `.test.toml`. The folder in which a
fixture lies is its category.

* `fixturesIn`: the fixtures of a folder.
* `categories`: the categories with their fixtures, all of them sorted.
* `select`: the categories that are asked for.
-/

namespace SheetMarkup.Fixture

/-- A fixture: the names of the folders on the way to it, and its own name. -/
structure Location where
  folders : List String
  name : String
  deriving DecidableEq

/-- The ending of the name of a fixture. -/
def ending : String := ".test.toml"

/-- The name is one of a fixture. -/
def isFixtureName (name : String) : Bool := ending.toList.isSuffixOf name.toList

mutual

/-- The fixtures in an entry of a folder. -/
def fixturesAt (folders : List String) (name : String) : FolderTree Unit → List Location
  | .file _ => if isFixtureName name then [⟨folders, name⟩] else []
  | .folder entries => fixturesIn (folders ++ [name]) entries

/-- The fixtures in the entries of a folder. -/
def fixturesIn (folders : List String) : List (String × FolderTree Unit) → List Location
  | [] => []
  | e :: es => fixturesAt folders e.1 e.2 ++ fixturesIn folders es

end

namespace Location

/-- The category of a fixture: the folders on the way to it between slashes. A backslash in a name
counts as a slash. -/
def category (l : Location) : String :=
  String.ofList (("/".intercalate l.folders).toList.map fun c => if c == '\\' then '/' else c)

/-- The path of a fixture, from where the path of the folder is. -/
def path (root : String) (l : Location) : String :=
  Path.join root ("/".intercalate (l.folders ++ [l.name]))

/-- The first of two lists of names does not come after the second. -/
def namesLe : List String → List String → Bool
  | [], _ => true
  | _ :: _, [] => false
  | a :: as, b :: bs => Text.precedes a b || (a == b && namesLe as bs)

/-- The first of two fixtures does not come after the second. -/
def le (a b : Location) : Bool := namesLe (a.folders ++ [a.name]) (b.folders ++ [b.name])

end Location

/-- A category with its fixtures. -/
structure Category where
  /-- Empty for fixtures that lie in no further folder. -/
  name : String
  fixtures : List Location

/-- The name of a category as it is shown. -/
def Category.label (c : Category) : String := if c.name.isEmpty then "(root)" else c.name

/-- The categories of some fixtures, sorted by name, each with its fixtures, sorted by path. -/
def categories (found : List Location) : List Category :=
  (Text.sortedDistinct (found.map Location.category)).map fun name =>
    ⟨name, (found.filter (·.category == name)).mergeSort Location.le⟩

/-- A request without the slashes around it. -/
def requested (request : String) : String :=
  String.ofList (Text.trimWhile (· == '/') request.toList)

/-- The request selects the category: it names the category itself or a folder around it. -/
def selects (request : String) (c : Category) : Bool :=
  c.name == requested request ||
    ((requested request).toList ++ ['/']).isPrefixOf c.name.toList

/-- The categories that are asked for; all of them where no request is made. -/
def select (all : List Category) (requests : List String) : List Category :=
  if requests.isEmpty then all else all.filter fun c => requests.any (selects · c)

/-- The requests that select nothing. -/
def unmatched (all : List Category) (requests : List String) : List String :=
  requests.filter fun r => !all.any (selects r)

end SheetMarkup.Fixture
