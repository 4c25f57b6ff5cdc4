import SheetMarkup.Files.System
import SheetMarkup.Source.Csv
import SheetMarkup.Source.Toml
import SheetMarkup.Workbook.Read

/-!
# Sheets

A sheet is read from a file in one of three formats, told apart by the extension of its path.

* `SheetFormat.ofPath?`: the format of a path.
* `SheetFormat.read`: a sheet from the bytes of its file.
* `Sheet.load`: a sheet from a file system.
-/

namespace SheetMarkup

/-- The formats of sheets. -/
inductive SheetFormat where
  | csv
  | toml
  | xlsx
  deriving DecidableEq

/-- The format of a path. -/
def SheetFormat.ofPath? (path : String) : Option SheetFormat :=
  if Path.hasExtension path "csv" then some .csv
  else if Path.hasExtension path "toml" then some .toml
  else if Path.hasExtension path "xlsx" then some .xlsx
  else none

/-- The rows of a sheet, and the images that it carries with it, sorted by name. -/
structure Sheet where
  rows : List Row
  images : List (String × ByteArray) := []

/-- Why a sheet cannot be read. -/
inductive SheetRefusal where
  | unsupported
  | file (error : FileError)
  | toml (refusal : TomlSheet.Refusal)
  | workbook (refusal : Workbook.Refusal)

/-- The wording of a refusal, which names the path of the sheet. -/
def SheetRefusal.message (path : String) : SheetRefusal → String
  | unsupported =>
    "unsupported sheet format '" ++ path ++ "' (expected .csv, .toml or .xlsx)"
  | file error => "cannot read '" ++ path ++ "': " ++ error.message
  | toml refusal => refusal.message
  | workbook refusal => "invalid workbook: " ++ refusal.message

/-- The refusal is no answer: the reader is stopped. -/
def SheetRefusal.stops : SheetRefusal → Bool
  | toml .tooWide | workbook .tooWide => true
  | _ => false

/-- The images of a workbook, sorted by name. -/
def sortedImages (images : List (String × ByteArray)) : List (String × ByteArray) :=
  images.foldl (fun sorted i => Text.insertSorted i.1 i.2 sorted) []

namespace SheetFormat

/-- A sheet from the bytes of its file. -/
def read (format : SheetFormat) (bytes : ByteArray) : Except SheetRefusal Sheet :=
  match format with
  | xlsx =>
    match Workbook.read bytes with
    | .ok content => .ok ⟨content.rows, sortedImages content.images⟩
    | .error e => .error (.workbook e)
  | csv =>
    match Text.decodeUtf8? bytes with
    | some source => .ok { rows := Csv.rowsOf source }
    | none => .error (.file .notText)
  | toml =>
    match Text.decodeUtf8? bytes with
    | some source => ((TomlSheet.rowsOf source).map fun rows => { rows := rows }).mapError .toml
    | none => .error (.file .notText)

/-- Why a sheet whose file cannot be read is refused. A folder can be opened, but it is no
workbook. -/
def unreadable : SheetFormat → FileError → SheetRefusal
  | xlsx, .isDirectory => .workbook .archive
  | _, e => .file e

end SheetFormat

/-- Reads a sheet in the format of its path. -/
def Sheet.load {m : Type → Type} [Monad m] [FileSystem m] (path : String) :
    m (Except SheetRefusal Sheet) := do
  match SheetFormat.ofPath? path with
  | none => return .error .unsupported
  | some format =>
    match ← FileSystem.read path with
    | .error e => return .error (format.unreadable e)
    | .ok bytes => return format.read bytes

end SheetMarkup
