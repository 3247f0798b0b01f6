import Reckon.Archive.Extract
import Reckon.Archive.Unpack
import Reckon.Path.Posix
import Reckon.Text.Words
import Reckon.Text.Utf8

set_option autoImplicit false

/-!
# Input files

The expressions come from a text file, or from the first text file inside an archive. A file
whose name has the suffix `.txt` is text; one with the suffix `.zip` is a zip archive, one whose
last two suffixes are `.tar` and `.xz` is a tar archive compressed with xz, and one with the
suffix `.7z` is read by the 7z library, which is a parameter. Suffixes are compared letter for
letter, so `.TXT` is no text file. In an archive, the first member whose name ends with `.txt` is
extracted and read back, and the extraction folder is then removed, which may fail whatever the
member held.

Text is strict UTF-8, and a carriage return, alone or before a line feed, reads as a line feed.
-/

namespace Reckon
open Archive

/-- Why an input file gives no text. -/
inductive InputFault where
  | unsupported (suffix : String)
  | noText (format : String)
  | extract (e : ExtractFault)
  | text (e : Text.Utf8Error)

def InputFault.message : InputFault → String
  | .unsupported s => "📄❌ Unsupported archive format: " ++ s
  | .noText f => "📄❌ No .txt file found in " ++ f ++ " archive"
  | .extract e => e.message
  | .text e => e.message

/-- The 7z library, as the client calls it on an archive's bytes: the names of the members, in
order, and the folder after one named member is extracted into it. Either call may fail, with the
fault the library raises. -/
structure SevenZip where
  names : ByteArray → Except InputFault (List String)
  extract : ByteArray → String → Folder → Except InputFault Folder

/-- Without the 7z library the format is not supported. -/
def SevenZip.missing : SevenZip :=
  ⟨fun _ => .error (.unsupported ".7z"), fun _ _ _ => .error (.unsupported ".7z")⟩

namespace Input

def readText (b : ByteArray) : Except InputFault String :=
  match Text.decodeUtf8 b with
  | .ok s => .ok (String.ofList (Text.unifyNewlines s.toList))
  | .error e => .error (.text e)

/-- The text of a zip archive's first member named as a text file. -/
def zipText (s : Scratch) (host : Host) (bytes : ByteArray) : Except InputFault String := do
  let z ← (ZipArchive.read bytes).mapError (.extract ∘ .zip)
  match z.names.find? (·.endsWith ".txt") with
  | none => throw (.noText "zip")
  | some n =>
    let (read, f) := (extractZipMember s host z n).run.run (Folder.empty s.folderLength)
    (s.remove f).mapError .extract
    readText (← read.mapError .extract)

/-- The text of an xz-compressed tar archive's first member named as a text file. The archive is
read through one reader, for listing the members and then for extracting; the compressed file may
hold streams of the LZMA family one after another. Every member takes at least a header block of
the decoded bytes, which bounds the members. -/
def tarText (s : Scratch) (host : Host) (bytes : ByteArray) : Except InputFault String :=
  let bound := unpackedSize bytes (bytes.size + 1) 0 / 512 + 2
  let reading : Reading InputFault String := do
    let ms ← (tarMembers bound).adapt (.extract ∘ .tar)
    match ms.zipIdx.find? (fun p => RawPath.endsWith p.1.name ".txt") with
    | none => throw (.noText "tar.xz")
    | some (m, i) =>
      let (read, f) ← (extractTarMember s host ms i m).run.run (Folder.empty s.folderLength)
      liftExcept ((s.remove f).mapError InputFault.extract)
      liftExcept (readText (← liftExcept (read.mapError InputFault.extract)))
  (reading.run.run (Buffered.start unpack bytes)).1

/-- The text of a 7z archive's first member named as a text file. The library extracts the
member into the folder; the client reads it back by its name. -/
def sevenZipText (s : Scratch) (host : Host) (lib : SevenZip) (bytes : ByteArray) :
    Except InputFault String := do
  let names ← lib.names bytes
  match names.find? (·.endsWith ".txt") with
  | none => throw (.noText "7z")
  | some n =>
    let f ← lib.extract bytes n (Folder.empty s.folderLength)
    let (read, f) := (s.readBack host (RawPath.ofText n) : Making Id ByteArray).run.run f
    (s.remove f).mapError .extract
    readText (← read.mapError .extract)

/-- The text of an archive named `name`, chosen by the name's suffixes. -/
def archiveText (s : Scratch) (name : String) (bytes : ByteArray) (host : Host := Host.bare)
    (lib : SevenZip := SevenZip.missing) : Except InputFault String :=
  let n := (PosixPath.parse name).name
  let sfx := FileName.suffixes n
  if FileName.suffix n = ".zip" then zipText s host bytes
  else if sfx.drop (sfx.length - 2) = [".tar", ".xz"] then tarText s host bytes
  else if FileName.suffix n = ".7z" then sevenZipText s host lib bytes
  else .error (.unsupported (FileName.suffix n))

/-- The text of an input file named `name`: its own text when it is a text file, else that of
the archive it is. -/
def text (s : Scratch) (name : String) (bytes : ByteArray) (host : Host := Host.bare)
    (lib : SevenZip := SevenZip.missing) : Except InputFault String :=
  if FileName.suffix (PosixPath.parse name).name = ".txt" then readText bytes
  else archiveText s name bytes host lib

end Input

end Reckon
