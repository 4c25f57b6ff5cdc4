import SheetMarkup.Files.Error
import SheetMarkup.Files.Path
import SheetMarkup.Text.Order

/-!
# File trees

Files in folders, and what the operating system does with paths in them. A path is followed from
the folder at the root of the tree; what lies outside the tree does not exist.

* `FolderTree`: a file or a folder.
* `FolderTree.follow`: what a path leads to.
* `FolderTree.read`, `FolderTree.write`, `FolderTree.makeFolder`: the operations.
-/

namespace SheetMarkup

/-- A file with its content, or a folder with its entries. -/
inductive FolderTree (α : Type) where
  | file (content : α)
  | folder (entries : List (String × FolderTree α))

/-- Files with bytes. -/
abbrev FileTree : Type := FolderTree ByteArray

namespace FolderTree

variable {α : Type}

/-- The entry of a folder with a name. -/
def child? (t : FolderTree α) (name : String) : Option (FolderTree α) :=
  match t with
  | file _ => none
  | folder entries => (entries.find? (·.1 == name)).map Prod.snd

/-- What stands at a place, given by the names on the way. -/
def at? : List String → FolderTree α → Option (FolderTree α)
  | [], t => some t
  | name :: names, t => (t.child? name).bind (at? names)

/-- Puts an entry into a folder, in the place of the one with its name. -/
def put (entries : List (String × FolderTree α)) (name : String) (t : FolderTree α) :
    List (String × FolderTree α) :=
  if entries.any (·.1 == name) then entries.map fun e => if e.1 == name then (name, t) else e
  else entries ++ [(name, t)]

/-- Puts a tree at a place, where all folders on the way exist. -/
def set (new : FolderTree α) : List String → FolderTree α → FolderTree α
  | [], _ => new
  | name :: names, t =>
    match t with
    | file content => file content
    | folder entries =>
      match (entries.find? (·.1 == name)).map Prod.snd with
      | some inner => folder (put entries name (set new names inner))
      | none => if names.isEmpty then folder (put entries name new) else folder entries

/-! ## Following paths -/

/-- The longest name of a file, in bytes. -/
def nameLimit : Nat := 255

/-- The bound of the length of a path, in bytes. -/
def pathLimit : Nat := 4096

/-- Where one segment leads from a place, given by the names on the way in reverse. -/
def followSegment (root : FolderTree α) (place : List String) (segment : String) :
    Except FileError (List String) :=
  match at? place.reverse root with
  | none => .error .notFound
  | some (file _) => .error .notDirectory
  | some (folder _) =>
    if segment == "" || segment == "." then .ok place
    else if segment == ".." then
      match place with
      | [] => .error .notFound
      | _ :: outer => .ok outer
    else if nameLimit < segment.utf8ByteSize then .error .nameTooLong
    else match at? (segment :: place).reverse root with
      | some _ => .ok (segment :: place)
      | none => .error .notFound

/-- The faults of a path as such. -/
def checkPath (path : String) : Except FileError Unit :=
  if path.toList.contains '\x00' then .error .nulInName
  else if path.isEmpty then .error .notFound
  else if pathLimit ≤ path.utf8ByteSize then .error .nameTooLong
  else if Path.isAbsolute path then .error .notFound
  else .ok ()

/-- Where a path leads: the names on the way, in reverse. -/
def follow (root : FolderTree α) (path : String) : Except FileError (List String) := do
  checkPath path
  (Path.segments path).foldlM (followSegment root) []

/-- What a path leads to. -/
def get (root : FolderTree α) (path : String) : Except FileError (FolderTree α) := do
  match at? (← root.follow path).reverse root with
  | some t => .ok t
  | none => .error .notFound

/-- Reads a file. -/
def read (root : FolderTree α) (path : String) : Except FileError α := do
  match ← root.get path with
  | file content => .ok content
  | folder _ => .error .isDirectory

/-- The path leads to a file. -/
def isFile (root : FolderTree α) (path : String) : Bool :=
  match root.get path with
  | .ok (file _) => true
  | _ => false

/-- The path leads to a folder. -/
def isFolder (root : FolderTree α) (path : String) : Bool :=
  match root.get path with
  | .ok (folder _) => true
  | _ => false

/-- The folder in which the last name of a path stands, that name, and whether a slash follows
it. -/
def split (path : String) : List String × String × Bool :=
  let reversed := (Path.segments path).reverse
  match reversed.dropWhile (· == "") with
  | [] => ([], "", true)
  | name :: outer => (outer.reverse, name, reversed.head? == some "")

/-- Writes a file; one that is there already is replaced. A path that ends in a slash is one of a
folder. -/
def write (root : FolderTree α) (path : String) (content : α) :
    Except FileError (FolderTree α) := do
  checkPath path
  let (outer, name, slash) := split path
  let place ← outer.foldlM (followSegment root) []
  match followSegment root place name with
  | .ok found =>
    match at? found.reverse root, slash with
    | some (file _), false => .ok (set (file content) found.reverse root)
    | _, _ => .error .isDirectory
  | .error .notFound =>
    if slash || name == ".." then .error .isDirectory
    else .ok (set (file content) (name :: place).reverse root)
  | .error e => .error e

/-- Makes one folder. -/
def makeFolder (root : FolderTree α) (path : String) : Except FileError (FolderTree α) := do
  checkPath path
  let (outer, name, _) := split path
  let place ← outer.foldlM (followSegment root) []
  match followSegment root place name with
  | .ok _ => .error .exists
  | .error .notFound =>
    if name == ".." then .error .exists
    else .ok (set (folder []) (name :: place).reverse root)
  | .error e => .error e

end FolderTree

end SheetMarkup
