import SheetMarkup.Cli.Report
import SheetMarkup.Cli.Request
import SheetMarkup.Document.Render
import SheetMarkup.Docx.Package
import SheetMarkup.Script.Parse
import SheetMarkup.Source.Sheet
import SheetMarkup.Zip.Archive

/-!
# Runs

A run reads a sheet, renders it and prints the document or writes it to a file. It may stop on the
way, where only a part of the work is asked for.

* `extractImages`: the pictures of a workbook as files.
* `loadConfig`: the settings of the document.
* `writeDocument`: the document as a file.
* `run`: the whole.
-/

namespace SheetMarkup.Cli

variable {m : Type → Type} [Monad m] [FileSystem m]

/-! ## Pictures -/

/-- What follows the last slash of the name of a part. -/
def partName (part : String) : String :=
  String.ofList (part.toList.reverse.takeWhile (· != '/')).reverse

/-- Writes images into a folder. -/
def writeImages (folder : String) :
    List (String × ByteArray) → m (Except FileError Unit)
  | [] => return .ok ()
  | image :: images => do
    match ← FileSystem.write (Path.join folder (partName image.1)) image.2 with
    | .error e => return .error e
    | .ok () => writeImages folder images

/-- Writes images into a folder, which is made if it is missing. -/
def extractImages (folder : String) (images : List (String × ByteArray)) :
    m (Except FileError Unit) := do
  match ← makeFolders folder with
  | .error e => return .error e
  | .ok () => writeImages folder images

/-! ## Settings of the document -/

/-- The name of the configuration file beside a sheet. -/
def configName : String := "xmlyze.toml"

/-- Why the settings of the document cannot be read. -/
inductive ConfigRefusal where
  | file (path : String) (error : FileError)
  | malformed
  deriving DecidableEq

/-- The wording of a refusal. -/
def ConfigRefusal.message : ConfigRefusal → String
  | file path error => "cannot read '" ++ path ++ "': " ++ error.message
  | malformed => "invalid render config: "

/-- The settings in a file. -/
def readConfig (path : String) : m (Except ConfigRefusal Config) := do
  match ← readText path with
  | .error e => return .error (.file path e)
  | .ok source =>
    match Config.parse? source with
    | some config => return .ok config
    | none => return .error .malformed

/-- The settings of a run. A file that is asked for must exist, the one beside the sheet need
not. -/
def loadConfig (file : String) (config : Option String) : m (Except ConfigRefusal Config) := do
  match config with
  | some path => readConfig path
  | none =>
    match Path.parent? file with
    | none => return .ok {}
    | some folder =>
      let path := Path.join folder configName
      if ← FileSystem.isFile path then readConfig path else return .ok {}

/-! ## The document as a file -/

/-- The folder of a sheet. Images in the sheet are named from there. -/
def sheetFolder (file : String) : String := (Path.parent? file).getD ""

/-- What reading each of some images from a folder gives. -/
def readImages (folder : String) :
    List String → m (List (String × Except FileError ByteArray))
  | [] => return []
  | source :: sources => do
    let data ← FileSystem.read (Path.join folder source)
    return (source, data) :: (← readImages folder sources)

/-- The images of a document: those of the sheet, then files in its folder. -/
def mediaOf (file : String) (sheet : Sheet) (d : Document) : m Docx.Media := do
  let files ← readImages (sheetFolder file) (Docx.imageSources d)
  let read (source : String) : Except FileError ByteArray :=
    match files.find? (·.1 == source) with
    | some f => f.2
    | none => .error .notFound
  return ({ file := read } : Docx.Media).extend sheet.images

/-- The bytes of a package. -/
def packageBytes (parts : List Docx.Part) : ByteArray :=
  Zip.write (parts.map fun p => (p.name, p.content.bytes))

/-- An output that cannot be written. -/
def unwritten (output message : String) : Report :=
  .failure ("cannot write '" ++ output ++ "': " ++ message)

/-- A document that cannot be made a package. -/
def unpacked (output : String) : Docx.Refusal → Report
  | .overflow => .stopped
  | e => unwritten output e.message

/-- Writes a document as a package. The file is made before the images are read. -/
def writePackage (file output : String) (sheet : Sheet) (d : Document) :
    m (Except Report Unit) := do
  match ← FileSystem.write output ByteArray.empty with
  | .error e => return .error (unwritten output e.message)
  | .ok () =>
    match Docx.package d (← mediaOf file sheet d) with
    | .error e => return .error (unpacked output e)
    | .ok parts =>
      return (← FileSystem.write output (packageBytes parts)).mapError (unwritten output ·.message)

/-- The path is one of a package. -/
def isPackagePath (path : String) : Bool := Path.hasExtension path "docx"

/-- Writes a document in the form that the extension of the path asks for. -/
def writeDocument (file output : String) (sheet : Sheet) (d : Document) :
    m (Except Report Unit) := do
  if isPackagePath output then writePackage file output sheet d
  else
    return (← FileSystem.write output d.display.toUTF8).mapError (unwritten output ·.message)

/-! ## The run -/

/-- What is printed of a document, or where it is written. -/
def deliver (file : String) (settings : RunSettings) (sheet : Sheet) (d : Document) :
    m Report := do
  if settings.styles then
    return { stdout := String.join (d.styles.map fun s =>
      s.id ++ " (" ++ Text.quoted s.name ++ ")\n") }
  match settings.output with
  | some output =>
    match ← writeDocument file output sheet d with
    | .error report => return report
    | .ok () => return {}
  | none => return { stdout := if settings.quiet then "" else d.display }

/-- Renders the blocks of a sheet. -/
def runBlocks (file : String) (settings : RunSettings) (sheet : Sheet) (blocks : List Block) :
    m Report := do
  match ← loadConfig file settings.config with
  | .error e => return .failure e.message
  | .ok config =>
    match render blocks config with
    | .error e => return .diagnosed e
    | .ok rendered =>
      let noted := String.join (rendered.warnings.map fun w => (w.diagnostic 0).report)
      return (← deliver file settings sheet rendered.document).after noted

/-- Works on a sheet that has been read. -/
def runSheet (file : String) (settings : RunSettings) (sheet : Sheet) : m Report := do
  if settings.tokens then
    return { stdout := String.join ((tokensOf sheet.rows).map fun t => t.display ++ "\n") }
  match parse sheet.rows with
  | .error e => return .diagnosed e
  | .ok blocks =>
    if settings.check then return { stderr := "ok: " ++ file ++ " parsed successfully\n" }
    else if settings.blocks then return { stdout := String.join (blocks.map Block.display) }
    else runBlocks file settings sheet blocks

/-- Extracts the images of a sheet, where that is asked for. -/
def extractFor (settings : RunSettings) (sheet : Sheet) : m (Option Report) := do
  match settings.extractImages with
  | none => return none
  | some folder =>
    match ← extractImages folder sheet.images with
    | .ok () => return none
    | .error e =>
      return some (.failure ("cannot extract images to '" ++ folder ++ "': " ++ e.message))

/-- Runs a sheet. -/
def run (file : String) (settings : RunSettings) : m Report := do
  match ← Sheet.load file with
  | .error e => return if e.stops then .stopped else .failure (file ++ ": " ++ e.message file)
  | .ok sheet =>
    match ← extractFor settings sheet with
    | some report => return report
    | none => runSheet file settings sheet

end SheetMarkup.Cli
