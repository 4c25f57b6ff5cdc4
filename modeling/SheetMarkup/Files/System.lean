import SheetMarkup.Files.Tree
import SheetMarkup.Text.Bytes

/-!
# File systems

What a program does with files, in any monad. The one on file trees is a model of the operating
system, so that what a program leaves behind can be told from what it found.

* `FileSystem`: the operations.
* `FolderTree.names`: a tree without the content of its files.
* `makeFolders`: a folder with all folders on the way to it.
-/

namespace SheetMarkup

/-- The operations on files. -/
class FileSystem (m : Type → Type) where
  read : String → m (Except FileError ByteArray)
  /-- Writes a file; one that is there already is replaced. -/
  write : String → ByteArray → m (Except FileError Unit)
  /-- Makes one folder. -/
  makeFolder : String → m (Except FileError Unit)
  isFile : String → m Bool
  isFolder : String → m Bool
  /-- All that lies in a folder and the folders in it; nothing where it cannot be listed. -/
  listing : String → m (List (String × FolderTree Unit))

namespace FolderTree

variable {α : Type}

mutual

/-- A tree without the content of its files. -/
def names : FolderTree α → FolderTree Unit
  | file _ => file ()
  | folder entries => folder (entryNames entries)

/-- The entries of a folder without the content of files. -/
def entryNames : List (String × FolderTree α) → List (String × FolderTree Unit)
  | [] => []
  | e :: es => (e.1, e.2.names) :: entryNames es

end

/-- What lies under a path. -/
def listing (root : FolderTree α) (path : String) : List (String × FolderTree Unit) :=
  match root.get path with
  | .ok (folder entries) => entryNames entries
  | _ => []

end FolderTree

/-- Takes up a new tree, where there is one. -/
def FileTree.update (change : FileTree → Except FileError FileTree) :
    StateM FileTree (Except FileError Unit) := fun t =>
  match change t with
  | .ok t' => (.ok (), t')
  | .error e => (.error e, t)

instance : FileSystem (StateM FileTree) where
  read path := fun t => (t.read path, t)
  write path content := FileTree.update (·.write path content)
  makeFolder path := FileTree.update (·.makeFolder path)
  isFile path := fun t => (t.isFile path, t)
  isFolder path := fun t => (t.isFolder path, t)
  listing path := fun t => (t.listing path, t)

/-- Reads a file as text. -/
def readText {m : Type → Type} [Monad m] [FileSystem m] (path : String) :
    m (Except FileError String) := do
  match ← FileSystem.read path with
  | .error e => return .error e
  | .ok bytes =>
    match Text.decodeUtf8? bytes with
    | some text => return .ok text
    | none => return .error .notText

/-- A path and the paths of the folders it lies in, the innermost first. The first argument bounds
their number. -/
def Path.ancestors : Nat → String → List String
  | 0, _ => []
  | bound + 1, path =>
    path :: match Path.parent? path with
      | some parent => Path.ancestors bound parent
      | none => []

/-- Makes the first of some folders, each of which lies in the next; those that are missing on the
way are made first. -/
def makeFirst {m : Type → Type} [Monad m] [FileSystem m] :
    List String → m (Except FileError Unit)
  | [] => return .error (.other "failed to create whole tree")
  | path :: outer => do
    if path.isEmpty then return .ok ()
    match ← FileSystem.makeFolder path with
    | .ok () => return .ok ()
    | .error .notFound =>
      match ← makeFirst outer with
      | .error e => return .error e
      | .ok () =>
        match ← FileSystem.makeFolder path with
        | .ok () => return .ok ()
        | .error e => if ← FileSystem.isFolder path then return .ok () else return .error e
    | .error e => if ← FileSystem.isFolder path then return .ok () else return .error e

/-- Makes a folder with all folders on the way to it; those that are there already stay. -/
def makeFolders {m : Type → Type} [Monad m] [FileSystem m] (path : String) :
    m (Except FileError Unit) :=
  makeFirst (Path.ancestors (path.length + 1) path)

end SheetMarkup
