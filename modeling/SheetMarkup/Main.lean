import SheetMarkup.Cli.Execute

/-!
# The program

The file system of the operating system, and the command line over it.
-/

namespace SheetMarkup

/-- The error with a number of the operating system, which may come with its sign changed. -/
def FileError.ofCode (number : UInt32) (text : String) : FileError :=
  let code := if number < 0x80000000 then number else 0 - number
  if code == 2 then .notFound
  else if code == 17 then .exists
  else if code == 20 then .notDirectory
  else if code == 21 then .isDirectory
  else if code == 36 then .nameTooLong
  else .other (text ++ " (os error " ++ Text.decimal code.toNat ++ ")")

/-- The error that the operating system reports. -/
def FileError.ofSystem : IO.Error → FileError
  | .noFileOrDirectory _ code text | .alreadyExists _ code text | .inappropriateType _ code text
  | .permissionDenied _ code text | .invalidArgument _ code text | .resourceExhausted _ code text
  | .noSuchThing _ code text => FileError.ofCode code text
  | .resourceBusy code text | .otherError code text | .hardwareFault code text
  | .unsupportedOperation code text => FileError.ofCode code text
  | e => .other (toString e)

/-- An action with its error as a value. -/
def attempt {α : Type} (action : IO α) : IO (Except FileError α) := do
  try return .ok (← action) catch e => return .error (FileError.ofSystem e)

/-- The path leads to a folder, or to something else; nothing where it leads nowhere. -/
def isFolder? (path : String) : IO (Option Bool) := do
  try return some (← (← IO.FS.realPath path).isDir) catch _ => return none

/-- All that lies in a folder and the folders in it. -/
partial def listFolder (path : String) : IO (List (String × FolderTree Unit)) := do
  try
    let entries ← (← IO.FS.realPath path).readDir
    entries.toList.mapM fun entry => do
      if ← entry.path.isDir then
        return (entry.fileName, .folder (← listFolder entry.path.toString))
      else return (entry.fileName, .file ())
  catch _ => return []

instance : FileSystem IO where
  read path := attempt (IO.FS.readBinFile path)
  write path content := attempt (IO.FS.writeBinFile path content)
  makeFolder path := attempt (IO.FS.createDir path)
  isFile path := return (← isFolder? path) == some false
  isFolder path := return (← isFolder? path) == some true
  listing path := listFolder path

end SheetMarkup

/-- Does what the command line asks for. -/
def main (args : List String) : IO UInt32 := do
  let report ← SheetMarkup.Cli.execute (m := IO) args
  IO.print report.stdout
  IO.eprint report.stderr
  return report.code.toUInt32
