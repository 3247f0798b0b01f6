import Reckon.Archive.Drain
import Reckon.Archive.Bzip2
import Reckon.Archive.Xz
import Reckon.Archive.Checksum
import Reckon.Text.Utf8
import Reckon.Text.CodePage437

set_option autoImplicit false

/-!
# Zip archives

A zip archive ends with a record that locates its central directory, possibly followed by a
comment of up to 64 KiB; zip64 records stand before it when sizes or offsets do not fit, and
offsets are shifted when the archive sits behind other bytes. Names are UTF-8 when flag bit 11 is
set and code page 437 otherwise; of a name found twice, the later entry is the one found. Data is
stored, deflated, bzip2 or LZMA, cut to the entry's size and checked against its CRC-32. Deflated
data is read 64 KiB at a time, so a fault in the stream shows only if a read reaches it.
-/

namespace Reckon.Archive

inductive ZipFault where
  | notZip
  | multiDisk
  | badDirectoryOffset
  | truncatedDirectory
  | badDirectoryMagic
  | newerVersion (version : Nat)
  | corruptExtra (kind size : Nat)
  | corruptZip64 (field : String)
  | badName (e : Text.Utf8Error)
  | badSeek
  | truncatedHeader
  | badHeaderMagic
  | patchedData
  | strongEncryption
  | nameMismatch (directoryName : String) (headerName : ByteArray)
  | encrypted (entry : String)
  | unsupportedMethod
  | badDeflate (f : InflateFault)
  | badBzip2
  | badLzma (f : StreamFault)
  | dataCut
  | badChecksum (name : String)

def ZipFault.message : ZipFault → String
  | .notZip => "File is not a zip file"
  | .multiDisk => "zipfiles that span multiple disks are not supported"
  | .badDirectoryOffset => "Bad offset for central directory"
  | .truncatedDirectory => "Truncated central directory"
  | .badDirectoryMagic => "Bad magic number for central directory"
  | .newerVersion v => "zip file version " ++ toString (v / 10) ++ "." ++ toString (v % 10)
  | .corruptExtra kind size =>
    "Corrupt extra field " ++ String.ofList (Text.hexDigits 4 kind) ++ " (size=" ++ toString size ++ ")"
  | .corruptZip64 field => "Corrupt zip64 extra field. " ++ field ++ " not found."
  | .badName e => e.message
  | .badSeek => "[Errno 22] Invalid argument"
  | .truncatedHeader => "Truncated file header"
  | .badHeaderMagic => "Bad magic number for file header"
  | .patchedData => "compressed patched data (flag bit 5)"
  | .strongEncryption => "strong encryption (flag bit 6)"
  | .nameMismatch d h =>
    "File name in directory " ++ Text.quote d ++ " and header " ++ Text.quoteBytes h ++ " differ."
  | .encrypted d => "File " ++ d ++ " is encrypted, password required for extraction"
  | .unsupportedMethod => "That compression method is not supported"
  | .badDeflate f => "Error -3 while decompressing data: " ++ f.reason
  | .badBzip2 => "Invalid data stream"
  | .badLzma f => f.message
  | .dataCut => ""
  | .badChecksum n => "Bad CRC-32 for file " ++ Text.quote n

structure ZipEntry where
  name : String
  fullName : String
  flags : Nat
  method : Nat
  crc : Nat
  compressedSize : Nat
  size : Nat
  headerOffset : Int
  externalAttr : Nat := 0

namespace ZipEntry

def methodName? (m : Nat) : Option String :=
  [(0, "store"), (1, "shrink"), (2, "reduce"), (3, "reduce"), (4, "reduce"), (5, "reduce"),
    (6, "implode"), (7, "tokenize"), (8, "deflate"), (9, "deflate64"), (10, "implode"),
    (12, "bzip2"), (14, "lzma"), (18, "terse"), (19, "lz77"), (97, "wavpack"), (98, "ppmd")].lookup m

/-- The letter of a file mode's type: `-` regular, `d` directory, `l` link, `b` and `c` devices,
`p` pipe, `s` socket, `?` anything else. -/
def typeLetter (mode : Nat) : Char :=
  match (mode / 4096) % 16 with
  | 8 => '-'
  | 4 => 'd'
  | 10 => 'l'
  | 6 => 'b'
  | 2 => 'c'
  | 1 => 'p'
  | 12 => 's'
  | _ => '?'

/-- A file mode as ten letters: the type, then read, write and execute for the owner, the group
and others; set-user-id, set-group-id and sticky show in the execute places as `s`, `s` and `t`,
capitalised when the execute bit is off. -/
def modeText (mode : Nat) : String :=
  let bit (k : Nat) : Bool := mode / Nat.pow 2 k % 2 = 1
  let triple (r w x special : Nat) (mark : Char) : List Char :=
    [if bit r then 'r' else '-', if bit w then 'w' else '-',
      if bit special then (if bit x then mark else mark.toUpper) else if bit x then 'x' else '-']
  String.ofList (typeLetter mode :: triple 8 7 6 11 's' ++ triple 5 4 3 10 's' ++ triple 2 1 0 9 't')

def isDir (e : ZipEntry) : Bool := e.name.endsWith "/"

/-- How reports describe an entry: its name, its method unless stored, its file mode and system
flags when set, its size unless it is an empty directory, and its compressed size when it is
compressed or differs from the size. -/
def describe (e : ZipEntry) : String :=
  let hi := e.externalAttr / 65536
  let lo := e.externalAttr % 65536
  let parts : List String :=
    [if e.method = 0 then ""
      else " compress_type=" ++ (methodName? e.method).getD (toString e.method),
     if hi = 0 then "" else " filemode=" ++ Text.quote (modeText hi),
     if lo = 0 then "" else " external_attr=0x" ++ String.ofList (Nat.toDigits 16 lo),
     if !e.isDir || e.size ≠ 0 then " file_size=" ++ toString e.size else "",
     if (!e.isDir || e.compressedSize ≠ 0) && (e.method ≠ 0 || e.size ≠ e.compressedSize) then
       " compress_size=" ++ toString e.compressedSize
     else ""]
  "<ZipInfo filename=" ++ Text.quote e.name ++ String.join parts ++ ">"

end ZipEntry

structure ZipArchive where
  bytes : ByteArray
  entries : List ZipEntry

namespace ZipArchive

def endSignature : Nat := 0x06054b50

def findEnd (b : ByteArray) : Option (Nat × Nat × Nat) :=
  let n := b.size
  let record (p : Nat) : Option (Nat × Nat × Nat) := do
    let size ← readLE b (p + 12) 4
    let offset ← readLE b (p + 16) 4
    pure (p, size, offset)
  if 22 ≤ n && readLE b (n - 22) 4 = some endSignature && readLE b (n - 2) 2 = some 0 then
    record (n - 22)
  else
    let lowest := if n < 65536 + 22 then 0 else n - 65536 - 22
    -- the last signature found from `lowest` on
    let hits := (List.range (n - lowest)).filter fun k => readLE b (lowest + k) 4 = some endSignature
    match hits.getLast? with
    | none => none
    | some k => if n < lowest + k + 22 then none else record (lowest + k)

/-- The directory's size and offset from a zip64 end record, when the end record at `found` has
a locator before it; the locator must name the only disk, and the zip64 record, right before the
locator, must fit in the file. -/
def zip64End (b : ByteArray) (found : Nat) : Except ZipFault (Option (Nat × Nat)) :=
  if found < 20 || readLE b (found - 20) 4 ≠ some 0x07064b50 then .ok none
  else if readLE b (found - 16) 4 ≠ some 0 || 1 < (readLE b (found - 4) 4).getD 0 then
    .error .multiDisk
  else if found < 76 then .error .notZip
  else if readLE b (found - 76) 4 ≠ some 0x06064b50 then .ok none
  else .ok (some ((readLE b (found - 36) 8).getD 0, (readLE b (found - 28) 8).getD 0))

def decodeName (flags : Nat) (raw : ByteArray) : Except ZipFault String :=
  if flags / 2048 % 2 = 1 then
    match Text.decodeUtf8 raw with
    | .ok s => .ok s
    | .error e => .error (.badName e)
  else .ok (Text.decodeCodePage437 raw)

/-- Applies a zip64 field: each of the size, the compressed size and the header offset that is all
ones is replaced, in that order, by the field's next eight bytes, which must be there. -/
def zip64 (data : ByteArray) (e : ZipEntry) : Except ZipFault ZipEntry := do
  let take (field : String) (j : Nat) : Except ZipFault (Nat × Nat) :=
    match readLE data j 8 with
    | some v => .ok (v, j + 8)
    | none => .error (.corruptZip64 field)
  let (size, j) ←
    if e.size = 0xFFFFFFFF || e.size = 0xFFFFFFFFFFFFFFFF then take "File size" 0 else pure (e.size, 0)
  let (compressedSize, j) ←
    if e.compressedSize = 0xFFFFFFFF then take "Compress size" j else pure (e.compressedSize, j)
  let (headerOffset, _) ←
    if e.headerOffset = 0xFFFFFFFF then take "Header offset" j else pure (e.headerOffset.toNat, j)
  pure { e with size, compressedSize, headerOffset }

/-- Checks the extra fields of a directory entry; a zip64 field gives the sizes and offset that do
not fit in four bytes. -/
def readExtra (extra : ByteArray) (e : ZipEntry) : Except ZipFault ZipEntry :=
  go (extra.size + 1) 0 e
where
  go : Nat → Nat → ZipEntry → Except ZipFault ZipEntry
    | 0, _, e => .ok e
    | fuel + 1, i, e =>
      if extra.size < i + 4 then .ok e
      else
        let kind := (readLE extra i 2).getD 0
        let len := (readLE extra (i + 2) 2).getD 0
        if extra.size < i + 4 + len then .error (.corruptExtra kind len)
        else if kind = 1 then
          match zip64 (extra.extract (i + 4) (i + 4 + len)) e with
          | .ok e => go fuel (i + 4 + len) e
          | .error err => .error err
        else go fuel (i + 4 + len) e

/-- Reads the directory entries from offset `p` of the directory's bytes `d`, while `p` is below
the directory's stated size. Offsets of local headers are moved by `shift`. -/
def readEntries (d : ByteArray) (shift : Int) (size : Nat) : Nat → Nat → Except ZipFault (List ZipEntry)
  | 0, _ => .ok []
  | fuel + 1, p =>
    if size ≤ p then .ok []
    else if d.size < p + 46 then .error .truncatedDirectory
    else if readLE d p 4 ≠ some 0x02014b50 then .error .badDirectoryMagic
    else
      let f (k n : Nat) : Nat := (readLE d (p + k) n).getD 0
      let nameLen := f 28 2
      let extraLen := f 30 2
      let commentLen := f 32 2
      let flags := f 8 2
      let version := f 6 1
      let raw := d.extract (p + 46) (p + 46 + nameLen)
      match decodeName flags raw with
      | .error e => .error e
      | .ok full =>
        if 63 < version then .error (.newerVersion version)
        else
          let entry : ZipEntry :=
            { name := String.ofList (full.toList.takeWhile (· ≠ '\x00')), fullName := full,
              flags, method := f 10 2, crc := f 16 4, compressedSize := f 20 4, size := f 24 4,
              headerOffset := f 42 4, externalAttr := f 38 4 }
          let extra := d.extract (p + 46 + nameLen) (p + 46 + nameLen + extraLen)
          match readExtra extra entry with
          | .error e => .error e
          | .ok entry =>
            let entry := { entry with headerOffset := entry.headerOffset + shift }
            (readEntries d shift size fuel (p + 46 + nameLen + extraLen + commentLen)).map
              (entry :: ·)

def read (b : ByteArray) : Except ZipFault ZipArchive := do
  let some (found, size, offset) := findEnd b | .error .notZip
  let (size, offset, records) := match ← zip64End b found with
    | some (size, offset) => (size, offset, 76)
    | none => (size, offset, 0)
  if found < size + records then .error .badDirectoryOffset
  else
    let shift : Int := (found : Int) - size - offset - records
    let start := found - size - records
    let es ← readEntries (b.extract start (start + size)) shift size (size + 1) 0
    pure ⟨b, es⟩

def names (z : ZipArchive) : List String := z.entries.map ZipEntry.name

def find? (z : ZipArchive) (name : String) : Option Nat :=
  ((List.range z.entries.length).filter fun i => (z.entries[i]?.map (·.name)) = some name).getLast?

def supported (method : Nat) : Bool := [0, 8, 12, 14].contains method

/-- The data of an LZMA entry: a version of two bytes, the size of the properties in two bytes,
the properties (five bytes: the literal parameters and the dictionary size), then raw LZMA data
decoded to its end marker or the end of the data, all of it, though only the entry's size is
kept. Data too short to hold the properties yields nothing. Also whether the end marker was
read. -/
def lzmaData (packed : ByteArray) : Except ZipFault (ByteArray × Bool) :=
  let propsSize := (readLE packed 2 2).getD 0
  if packed.size ≤ 4 + propsSize then .ok (ByteArray.empty, false)
  else if propsSize ≠ 5 then .error (.badLzma .options)
  else
    let dictionary := (readLE packed 5 4).getD 0
    match lzma1 (packed[4]?.getD 0).toNat dictionary (packed.extract 9 packed.size) with
    | (_, some .corrupt) => .error (.badLzma .corrupt)
    | (_, some .badOptions) => .error (.badLzma .options)
    | (out, some .truncated) => .ok (out, false)
    | (out, none) => .ok (out, true)

/-- The compressed bytes of an entry, once its local header is read and checked: the header
must lie in the file, carry its signature and the entry's name, and the entry must be neither
patched, nor encrypted, nor compressed by a method not read here. A header before the start of the
file cannot be read at all. This is all that opening the entry checks; its data is read later. -/
def payload (z : ZipArchive) (e : ZipEntry) : Except ZipFault ByteArray :=
  let b := z.bytes
  if e.headerOffset < 0 then .error .badSeek
  else
    let h := e.headerOffset.toNat
    if b.size < h + 30 then .error .truncatedHeader
    else if readLE b h 4 ≠ some 0x04034b50 then .error .badHeaderMagic
    else
      let f (k n : Nat) : Nat := (readLE b (h + k) n).getD 0
      let nameLen := f 26 2
      let extraLen := f 28 2
      let raw := b.extract (h + 30) (h + 30 + nameLen)
      let start := min b.size (h + 30 + nameLen + extraLen)
      if e.flags / 32 % 2 = 1 then .error .patchedData
      else if e.flags / 64 % 2 = 1 then .error .strongEncryption
      else
        match decodeName (f 6 2) raw with
        | .error err => .error err
        | .ok headerName =>
          if headerName ≠ e.fullName then .error (.nameMismatch e.fullName raw)
          else if e.flags % 2 = 1 then .error (.encrypted e.describe)
          else if !supported e.method then .error .unsupportedMethod
          else .ok (b.extract start (start + e.compressedSize))

/-- An entry's data from its compressed bytes, decompressed and checked. Data that the file cuts
short is a fault unless the stream ends, or gives the entry's size, within what there is. -/
def unpackEntry (e : ZipEntry) (packed : ByteArray) : Except ZipFault ByteArray :=
  -- the bytes decoded, and whether the stream came to its end
  let decoded : Except ZipFault (ByteArray × Bool) :=
    if e.method = 0 then .ok (packed, false)
    else if e.method = 8 then
      match drainDeflated packed e.compressedSize e.size with
      | .ok out => .ok (out, true)
      | .error .cut => .error .dataCut
      | .error (.fault f) => .error (.badDeflate f)
    else if e.method = 12 then
      match bunzip2 packed with
      | .complete out => .ok (out, true)
      | .cut out => .ok (out, false)
      | .invalid => .error .badBzip2
    else lzmaData packed
  if 0 < e.compressedSize && packed.size = 0 then .error .dataCut
  else
    match decoded with
    | .error err => .error err
    | .ok (out, ended) =>
      if packed.size < e.compressedSize && !ended && out.size < e.size then .error .dataCut
      else
        let out := out.extract 0 e.size
        if (crc32 out).toNat = e.crc then .ok out else .error (.badChecksum e.name)

def data (z : ZipArchive) (e : ZipEntry) : Except ZipFault ByteArray :=
  z.payload e >>= unpackEntry e

end ZipArchive

end Reckon.Archive
