import SheetMarkup.Zip.Crc32
import SheetMarkup.Zip.Inflate
import SheetMarkup.Text.Bytes

/-!
# Archives

Named files in one, as the ZIP format keeps them: each with a header of its own, a directory of
all of them behind the last, and a record of the directory at the very end.

* `Archive.ofBytes?`: the directory of an archive.
* `Archive.read`: the bytes of a file in it.
* `write`: an archive of some files, none of them compressed.
-/

namespace SheetMarkup.Zip

/-- What the directory says about a file. -/
structure Entry where
  name : String
  flags : Nat
  method : Nat
  checksum : Nat
  /-- As it is stored. -/
  size : Nat
  /-- Where its own header stands. -/
  header : Nat

/-- An archive: its bytes and its directory. -/
structure Archive where
  data : ByteArray
  entries : List Entry

/-- Why a file of an archive cannot be read. -/
inductive Failure where
  /-- Its header is not understood, or its method is not known. -/
  | unsupported
  /-- Its data is damaged. -/
  | damaged
  deriving DecidableEq

/-! ## Fields -/

/-- A number of `width` bytes, the lowest first. -/
def number? (data : ByteArray) (start : Nat) : Nat → Option Nat
  | 0 => some 0
  | width + 1 =>
    if h : start < data.size then
      (number? data (start + 1) width).map fun n => 256 * n + data[start].toNat
    else none

/-- The characters of the bytes from 128 on in the code page of old archives. -/
def highCharacters : String :=
  "ÇüéâäàåçêëèïîìÄÅÉæÆôöòûùÿÖÜ¢£¥₧ƒáíóúñÑªº¿⌐¬½¼¡«»░▒▓│┤╡╢╖╕╣║╗╝╜╛┐" ++
  "└┴┬├─┼╞╟╚╔╩╦╠═╬╧╨╤╥╙╘╒╓╫╪┘┌█▄▌▐▀αßΓπΣσµτΦΘΩδ∞φε∩≡±≥≤⌠⌡÷≈°∙·√ⁿ²■\u00A0"

/-- A name in the code page of old archives. -/
def oldName (bytes : ByteArray) : String :=
  String.ofList (bytes.data.toList.map fun b =>
    if b.toNat < 128 then Char.ofNat b.toNat
    else highCharacters.toList.getD (b.toNat - 128) '\ufffd')

/-- A name, in the encoding that the flags tell. -/
def nameOf (flags : Nat) (bytes : ByteArray) : String :=
  if flags.testBit 11 then (Text.decodeUtf8? bytes).getD (oldName bytes) else oldName bytes

/-! ## The directory -/

/-- The entry of the directory at a place, and the place of the next. -/
def entryAt? (data : ByteArray) (base start : Nat) : Option (Entry × Nat) := do
  let signature ← number? data start 4
  if signature != 0x02014B50 then none
  else
    let flags ← number? data (start + 8) 2
    let method ← number? data (start + 10) 2
    let checksum ← number? data (start + 16) 4
    let size ← number? data (start + 20) 4
    let nameLength ← number? data (start + 28) 2
    let extraLength ← number? data (start + 30) 2
    let commentLength ← number? data (start + 32) 2
    let header ← number? data (start + 42) 4
    let nameStop := start + 46 + nameLength
    let stop := nameStop + extraLength + commentLength
    if data.size < stop then none
    else
      let name := nameOf flags (data.extract (start + 46) nameStop)
      some (⟨name, flags, method, checksum, size, base + header⟩, stop)

/-- Some entries of the directory, one behind the other. -/
def entriesAt? (data : ByteArray) (base : Nat) : Nat → Nat → Option (List Entry)
  | 0, _ => some []
  | count + 1, start => do
    let (e, next) ← entryAt? data base start
    let es ← entriesAt? data base count next
    some (e :: es)

/-- The directory whose record stands at a place. What precedes the archive is no part of it. -/
def directoryAt? (data : ByteArray) (record : Nat) : Option (List Entry) := do
  let signature ← number? data record 4
  let disk ← number? data (record + 4) 2
  let directoryDisk ← number? data (record + 6) 2
  let count ← number? data (record + 10) 2
  let size ← number? data (record + 12) 4
  let start ← number? data (record + 16) 4
  let commentLength ← number? data (record + 20) 2
  if signature != 0x06054B50 || disk != directoryDisk then none
  else if data.size < record + 22 + commentLength then none
  else if record < start + size then none
  else
    let base := record - (start + size)
    (entriesAt? data base count (base + start)).or (entriesAt? data 0 count start)

/-- Searches the record of the directory backwards from a place. -/
def searchRecord? (data : ByteArray) : Nat → Option (List Entry)
  | 0 => directoryAt? data 0
  | place + 1 => (directoryAt? data (place + 1)).or (searchRecord? data place)

namespace Archive

/-- The directory of an archive. -/
def ofBytes? (data : ByteArray) : Option Archive :=
  if data.size < 22 then none
  else (searchRecord? data (data.size - 22)).map (⟨data, ·⟩)

/-- The file with a name; of several the last. -/
def find? (a : Archive) (name : String) : Option Entry :=
  (a.entries.filter (·.name == name)).getLast?

/-- Where the data of a file starts, behind its own header. -/
def dataStart? (a : Archive) (e : Entry) : Option Nat := do
  let signature ← number? a.data e.header 4
  let nameLength ← number? a.data (e.header + 26) 2
  let extraLength ← number? a.data (e.header + 28) 2
  if signature != 0x04034B50 then none else some (e.header + 30 + nameLength + extraLength)

/-- The bytes of a file. -/
def read (a : Archive) (e : Entry) : Except Failure ByteArray :=
  match a.dataStart? e with
  | none => .error .unsupported
  | some start =>
    if e.flags.testBit 0 || (e.method != 0 && e.method != 8) then .error .unsupported
    else
      let stored := a.data.extract start (start + e.size)
      match if e.method = 0 then some stored else inflate stored with
      | none => .error .damaged
      | some bytes => if (crc32 bytes).toNat = e.checksum then .ok bytes else .error .damaged

end Archive

/-! ## Writing -/

/-- A number in bytes, the lowest first. -/
def numberBytes (n : Nat) : Nat → List UInt8
  | 0 => []
  | width + 1 => n.toUInt8 :: numberBytes (n / 256) width

/-- What the two headers of a file have in common. -/
def commonFields (name data : ByteArray) : List UInt8 :=
  numberBytes 20 2 ++ numberBytes 0x800 2 ++ numberBytes 0 2 ++ numberBytes 0 2 ++
    numberBytes 0x21 2 ++ numberBytes (crc32 data).toNat 4 ++ numberBytes data.size 4 ++
    numberBytes data.size 4 ++ numberBytes name.size 2 ++ numberBytes 0 2

/-- A file with its header. -/
def localRecord (name data : ByteArray) : ByteArray :=
  ⟨(numberBytes 0x04034B50 4 ++ commonFields name data).toArray⟩ ++ name ++ data

/-- The entry of a file in the directory. -/
def directoryRecord (name data : ByteArray) (header : Nat) : ByteArray :=
  ⟨(numberBytes 0x02014B50 4 ++ numberBytes 20 2 ++ commonFields name data ++ numberBytes 0 2 ++
    numberBytes 0 2 ++ numberBytes 0 2 ++ numberBytes 0 4 ++ numberBytes header 4).toArray⟩ ++ name

/-- The record of the directory. -/
def endRecord (count size start : Nat) : ByteArray :=
  ⟨(numberBytes 0x06054B50 4 ++ numberBytes 0 2 ++ numberBytes 0 2 ++ numberBytes count 2 ++
    numberBytes count 2 ++ numberBytes size 4 ++ numberBytes start 4 ++ numberBytes 0 2).toArray⟩

/-- An archive of some files. -/
def write (files : List (String × ByteArray)) : ByteArray :=
  let (body, directory) := files.foldl
    (fun (body, directory) f =>
      let name := f.1.toUTF8
      (body ++ localRecord name f.2, directory ++ directoryRecord name f.2 body.size))
    (ByteArray.empty, ByteArray.empty)
  body ++ directory ++ endRecord files.length directory.size body.size

end SheetMarkup.Zip
