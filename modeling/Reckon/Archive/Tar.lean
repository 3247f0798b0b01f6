import Reckon.Archive.Stream
import Reckon.Text.Integer
import Reckon.Text.Escaped
import Reckon.Text.Words
import Reckon.Text.Quoted
import Reckon.Path.Lexical

set_option autoImplicit false

/-!
# Tar archives

A tar archive is a run of 512-byte headers, each followed by its member's data padded to 512
bytes, and ended by a block of zeros. A header holds NUL-terminated texts, numbers in octal or
base 256, and a checksum of its bytes taken unsigned or signed. Some headers describe the next one:
GNU long names and links, and pax records `length keyword=value`, local or global, which override
the name, link name, size and time. A sparse file's map of pieces comes from an old GNU header
and its extension blocks, or from pax records in one of three forms. Members are read through a
`Buffered` reader until a block of zeros, or a header after the first that cannot be read.
-/

namespace Reckon.Archive

inductive HeaderFault where
  | empty
  | truncated
  | endOfArchive
  | badChecksum
  | invalid
deriving DecidableEq, Repr

def HeaderFault.message : HeaderFault → String
  | .empty => "empty header"
  | .truncated => "truncated header"
  | .endOfArchive => "end of file header"
  | .badChecksum => "bad checksum"
  | .invalid => "invalid header"

inductive EntryKind where
  | file
  | hardLink
  | symlink
  | device
  | directory
  | fifo
  | longName
  | longLink
  | extended (global : Bool)
  | unknown
deriving DecidableEq, Repr

namespace EntryKind

def ofFlag (flag : Nat) : EntryKind :=
  if flag = 0 || flag = 0x30 || flag = 0x37 || flag = 0x53 then .file
  else if flag = 0x31 then .hardLink
  else if flag = 0x32 then .symlink
  else if flag = 0x33 || flag = 0x34 then .device
  else if flag = 0x35 then .directory
  else if flag = 0x36 then .fifo
  else if flag = 0x4C then .longName
  else if flag = 0x4B then .longLink
  else if flag = 0x78 || flag = 0x58 then .extended false
  else if flag = 0x67 then .extended true
  else .unknown

def hasData : EntryKind → Bool
  | .file | .unknown => true
  | _ => false

end EntryKind

/-- A modification time as a member states it: whole seconds in its header, or a numeral in an
extended record. -/
inductive Stamp where
  | seconds (n : Int)
  | numeral (v : Numeral)
deriving DecidableEq, Repr

structure TarMember where
  name : RawPath
  linkName : RawPath
  size : Int
  kind : EntryKind
  mode : Int
  uid : Int
  gid : Int
  uname : RawPath
  gname : RawPath
  mtime : Stamp
  dataOffset : Nat
  sparse : Option (List (Int × Int)) := none

/-- The sparse map in an old GNU sparse header: its pieces, whether an extension block follows,
and the file's whole size. -/
structure SparseHeader where
  pieces : List (Int × Int)
  extended : Bool
  realSize : Int

/-- Why reading an archive fails outside its format: a position too large for the machine's
words, a text that is no integer, a block too short for a field taken from it, a charset name
that is not UTF-8, or a position to seek to that a signed 64-bit offset cannot hold. -/
inductive ReadFault where
  | tooLarge
  | badValue (message : String)
  | shortBlock
  | badCharset (e : Text.Utf8Error)
  | badOffset

def ReadFault.message : ReadFault → String
  | .tooLarge => "Python int too large to convert to C ssize_t"
  | .badValue m => m
  | .shortBlock => "index out of range"
  | .badCharset e => e.message
  | .badOffset => "cannot fit 'int' into an offset-sized integer"

namespace Tar

def blockSpan (n : Int) : Int := (n + 511) / 512 * 512

def fieldBytes (b : ByteArray) : RawPath := b.toList.takeWhile (· ≠ 0)

/-- The number a numeric field holds: base 256 after a first byte 0x80 (0xFF makes it negative),
otherwise octal ASCII text up to a NUL, blanks around it, empty for zero. -/
def fieldNumber (b : ByteArray) : Option Int :=
  let rest := b.toList.drop 1
  let big : Int := rest.foldl (fun n x => 256 * n + x.toNat) 0
  match b.toList.head? with
  | some 0x80 => some big
  | some 0xFF => some (big - Int.pow 256 rest.length)
  | _ =>
    let text := b.toList.takeWhile (· ≠ 0)
    if text.any (0x80 ≤ ·) then none
    else
      let s := Text.trim (String.ofList (text.map fun x => Char.ofNat x.toNat))
      if s.isEmpty then some 0 else Text.readInteger? 8 s

/-- The two checksums a header may carry: 256 plus the sum of its bytes outside the checksum
field, taken unsigned and taken signed. -/
def checksums (buf : ByteArray) : Int × Int :=
  let bytes := (buf.toList.take 148 ++ buf.toList.drop 156).map UInt8.toNat
  let unsigned : Int := 256 + (bytes.foldl (· + ·) 0 : Nat)
  let signed : Int := 256 + bytes.foldl (fun (s : Int) (x : Nat) => s + if x < 128 then (x : Int) else (x : Int) - 256) 0
  (unsigned, signed)

/-- Reads a header block. An old regular header whose name ends with a slash is a directory, and
a directory's name loses its trailing slashes; the prefix, unless the header is one of the GNU
kinds, goes before the name. An old GNU sparse header also gives its sparse map. -/
def parseHeader (buf : ByteArray) : Except HeaderFault (TarMember × Option SparseHeader) := do
  if buf.size = 0 then throw .empty
  if buf.size ≠ 512 then throw .truncated
  if buf.toList.all (· = 0) then throw .endOfArchive
  let field (i n : Nat) : ByteArray := buf.extract i (i + n)
  let number (i n : Nat) : Except HeaderFault Int :=
    match fieldNumber (field i n) with
    | some v => pure v
    | none => throw .invalid
  let sum ← number 148 8
  let (unsigned, signed) := checksums buf
  if sum ≠ unsigned && sum ≠ signed then throw .badChecksum
  let name := fieldBytes (field 0 100)
  let mode ← number 100 8
  let uid ← number 108 8
  let gid ← number 116 8
  for (i, n) in [(329, 8), (337, 8)] do
    let _ ← number i n
  let size ← number 124 12
  let mtime ← number 136 12
  let flag := (buf[156]?.getD 0).toNat
  let linkName := fieldBytes (field 157 100)
  let pre := fieldBytes (field 345 155)
  let flag := if flag = 0 && name.getLast? = some RawPath.slash then 0x35 else flag
  let kind := EntryKind.ofFlag flag
  let name := if kind = .directory then RawPath.dropTrailingSlashes name else name
  let sparse ←
    if flag = 0x53 then do
      let pieces ← (List.range 4).mapM fun k => do
        pure ((← number (386 + 24 * k) 12), (← number (398 + 24 * k) 12))
      pure (some ⟨pieces, buf[482]?.getD 0 ≠ 0, ← number 483 12⟩)
    else pure none
  let gnu := flag = 0x4C || flag = 0x4B || flag = 0x53
  let name := if !pre.isEmpty && !gnu then pre ++ RawPath.slash :: name else name
  let uname := fieldBytes (field 265 32)
  let gname := fieldBytes (field 297 32)
  let member : TarMember :=
    { name, linkName, size, kind, mode, uid, gid, uname, gname, mtime := .seconds mtime
      dataOffset := 0 }
  pure (member, sparse)

/-- Extended records in order of first appearance, keywords and values as bytes; a later value
for a keyword replaces the earlier one in its place. Read as text with stray bytes kept, two
keywords are the same text exactly when they are the same bytes. -/
abbrev Records := List (RawPath × RawPath)

def Records.set (rs : Records) (k v : RawPath) : Records :=
  if rs.any (·.1 = k) then rs.map fun (k', v') => if k' = k then (k', v) else (k', v')
  else rs ++ [(k, v)]

def Records.find? (rs : Records) (k : String) : Option RawPath := rs.lookup (RawPath.ofText k)

def Records.has (rs : Records) (k : String) : Bool := (rs.find? k).isSome

def digitLimit : Nat := 4300

def digitLimitFault (n : Nat) : ReadFault :=
  .badValue ("Exceeds the limit (4300 digits) for integer string conversion: value has " ++
    toString n ++ " digits; use sys.set_int_max_str_digits() to increase the limit")

/-- The digits of the run of digits and underscores that starts a decimal text, when single
underscores stand only between digits; `none` when an underscore starts or ends the run or
follows another. -/
def groupedDigits (cs : List Char) : Option Nat :=
  let run := cs.takeWhile fun c => c.isDigit || c = '_'
  let doubled := (run.zip run.tail).any fun (a, b) => a = '_' && b = '_'
  if run.head? = some '_' || run.getLast? = some '_' || doubled then none
  else some (run.filter Char.isDigit).length

inductive IntegerFault where
  | tooManyDigits (n : Nat)
  | invalid

/-- The integer that glyphs hold, as decimal text is read: blanks around it, a sign, digits that
underscores may group, digits of any script. Before anything else the digits that start it are
counted, a stray byte or a character that is neither blank nor digit ending them, and more than
4300 refuse the text whatever follows. -/
def readDecimal (g : List Text.Glyph) : Except IntegerFault Int :=
  let seen := g.map fun
    | .char c => (Numeral.normalizeChar c).getD '?'
    | .stray _ => '?'
  let body := match seen.dropWhile Text.isAsciiBlank with
    | '-' :: cs | '+' :: cs => cs
    | cs => cs
  match groupedDigits body with
  | some n => if digitLimit < n then .error (.tooManyDigits n) else parse
  | none => parse
where
  parse : Except IntegerFault Int :=
    match (Text.glyphText? g).bind (Text.readInteger? 10) with
    | some v => .ok v
    | none => .error .invalid

def integerOf (g : List Text.Glyph) : Except ReadFault Int :=
  match readDecimal g with
  | .ok v => .ok v
  | .error (.tooManyDigits n) => .error (digitLimitFault n)
  | .error .invalid => .error (.badValue ("invalid literal for int() with base 10: " ++
      String.ofList ((Text.quoteGlyphs g).toList.take 200)))

/-- The integer that bytes hold, read as `integerOf` reads text, a byte beyond ASCII being no
digit and no blank; the fault shows the bytes quoted. -/
def integerOfBytes (b : ByteArray) : Except ReadFault Int :=
  let g := b.toList.map fun x => if x < 0x80 then .char (Char.ofNat x.toNat) else .stray x
  match readDecimal g with
  | .ok v => .ok v
  | .error (.tooManyDigits n) => .error (digitLimitFault n)
  | .error .invalid => .error (.badValue ("invalid literal for int() with base 10: " ++
      String.ofList ((Text.quoteBytes b).toList.take 200)))

/-- The modification time an extended record states: the numeral its text holds, or zero when it
holds none. -/
def Stamp.ofRecord (v : RawPath) : Stamp :=
  match (Text.glyphText? (Text.glyphs v)).bind Numeral.read? with
  | some n => .numeral n
  | none => .seconds 0

def isDigitByte (x : UInt8) : Bool := 0x30 ≤ x && x ≤ 0x39

def digitsEnd (buf : ByteArray) (i : Nat) : Nat :=
  i + ((buf.toList.drop i).takeWhile isDigitByte).length

def findByte (buf : ByteArray) (i : Nat) (x : UInt8) : Option Nat :=
  ((buf.toList.drop i).findIdx? (· = x)).map (i + ·)

/-- The head of an extended record at `pos`: its length and where its `=` stands, when digits, a
space, a keyword of at least one byte and `=` are there. -/
def recordHead (buf : ByteArray) (pos : Nat) : Option (Nat × Nat) :=
  let stop := digitsEnd buf pos
  if stop = pos || buf[stop]? ≠ some 0x20 then none
  else
    match findByte buf (stop + 1) 0x3D with
    | some eq =>
      if eq = stop + 1 then none
      else
        let length := (buf.extract pos stop).toList.foldl (fun v d => 10 * v + (d.toNat - 0x30)) 0
        some (length, eq)
    | none => none

inductive RecordFault where
  | invalid
  | read (f : ReadFault)

/-- Reads the extended records from `pos` on, while a record's head is there. A record is refused
when its length is zero; a length past what a machine word counts fails when the next record would
be looked for. -/
def paxRecords (buf : ByteArray) : Nat → Nat → Records → Except RecordFault Records
  | 0, _, acc => .ok acc
  | fuel + 1, pos, acc =>
    if Nat.pow 2 63 ≤ pos then .error (.read .tooLarge)
    else
      match recordHead buf pos with
      | none => .ok acc
      | some (length, eq) =>
        if digitLimit < digitsEnd buf pos - pos then
          .error (.read (digitLimitFault (digitsEnd buf pos - pos)))
        else if length = 0 then .error .invalid
        else
          let key := (buf.extract (digitsEnd buf pos + 1) eq).toList
          let value := (buf.extract (eq + 1) (min (pos + length - 1) buf.size)).toList
          paxRecords buf fuel (pos + length) (Records.set acc key value)

/-- The value of the first record head `digits hdrcharset=` followed by a line: it must be
UTF-8. -/
def charsetCheck (buf : ByteArray) : Except ReadFault Unit :=
  let key := " hdrcharset=".toUTF8
  let found := (List.range buf.size).find? fun p =>
    p < buf.size && isDigitByte (buf[p]?.getD 0) &&
      (let e := digitsEnd buf p
       buf.extract e (e + key.size) == key &&
         match findByte buf (e + key.size) 0x0A with
         | some nl => e + key.size < nl
         | none => false)
  match found with
  | none => .ok ()
  | some p =>
    let start := digitsEnd buf p + key.size
    let stop := (findByte buf start 0x0A).getD buf.size
    match Text.decodeUtf8 (buf.extract start stop) with
    | .ok _ => .ok ()
    | .error e => .error (.badCharset e)

/-- The numbers of the records `digits GNU?sparse?key=digits` and a line feed in a block, in
order, where each `?` is any byte but a line feed; each search goes on after the last record
found. Each number is read as decimal text, so one of more than 4300 digits is refused. -/
def sparseNumbers (buf : ByteArray) (key : String) : Except ReadFault (List Nat) :=
  let tail := key.toUTF8
  let matchAt (p : Nat) : Option (Nat × Nat × Nat) := do
    let e := digitsEnd buf p
    if e = p || buf[e]? ≠ some 0x20 then none
    let gnu := e + 1
    if buf.extract gnu (gnu + 3) != "GNU".toUTF8 || buf[gnu + 3]? = some 0x0A then none
    if buf.extract (gnu + 4) (gnu + 10) != "sparse".toUTF8 || buf[gnu + 10]? = some 0x0A then none
    let k := gnu + 11
    if buf.extract k (k + tail.size) != tail || buf[k + tail.size]? ≠ some 0x3D then none
    let v := k + tail.size + 1
    let ve := digitsEnd buf v
    if ve = v || buf[ve]? ≠ some 0x0A then none
    pure (ve - v, (buf.extract v ve).toList.foldl (fun n d => 10 * n + (d.toNat - 0x30)) 0, ve + 1)
  let rec go : Nat → Nat → Except ReadFault (List Nat)
    | 0, _ => .ok []
    | fuel + 1, p =>
      if buf.size ≤ p then .ok []
      else
        match matchAt p with
        | some (count, n, next) =>
          if digitLimit < count then .error (digitLimitFault count)
          else (go fuel next).map (n :: ·)
        | none => go fuel (p + 1)
  go (buf.size + 1) 0

/-- The pieces of a sparse map given as numbers: an offset and a length each, a number left over
being dropped. -/
def pairUp : List Int → List (Int × Int)
  | o :: n :: rest => (o, n) :: pairUp rest
  | _ => []

def commaPieces : List UInt8 → List (List UInt8)
  | [] => [[]]
  | b :: bs =>
    if b = 0x2C then [] :: commaPieces bs
    else
      match commaPieces bs with
      | [] => [[b]]
      | p :: ps => (b :: p) :: ps

def sparseMap (v : RawPath) : Except ReadFault (List (Int × Int)) :=
  ((commaPieces v).mapM fun p => integerOf (Text.glyphs p)).map pairUp

/-- A member with extended records applied, in their order: `path` sets the name without its
trailing slashes and `GNU.sparse.name` the name as it is, `linkpath` the link name; `size`, `uid`
and `gid` set their numbers, zero when they are no integer, and `GNU.sparse.size` and
`GNU.sparse.realsize` set the size too, but must be integers; `uname` and `gname` set the owner's
names, and `mtime` the modification time. -/
def applyRecords (m : TarMember) (rs : Records) : Except ReadFault TarMember :=
  rs.foldlM (fun m (k, v) =>
    let is (key : String) : Bool := k == RawPath.ofText key
    if is "path" then pure { m with name := RawPath.dropTrailingSlashes v }
    else if is "GNU.sparse.name" then pure { m with name := v }
    else if is "linkpath" then pure { m with linkName := v }
    else if is "size" then pure { m with size := (integerOf (Text.glyphs v)).toOption.getD 0 }
    else if is "uid" then pure { m with uid := (integerOf (Text.glyphs v)).toOption.getD 0 }
    else if is "gid" then pure { m with gid := (integerOf (Text.glyphs v)).toOption.getD 0 }
    else if is "uname" then pure { m with uname := v }
    else if is "gname" then pure { m with gname := v }
    else if is "mtime" then pure { m with mtime := Stamp.ofRecord v }
    else if is "GNU.sparse.size" || is "GNU.sparse.realsize" then
      (integerOf (Text.glyphs v)).map fun size => { m with size }
    else pure m) m

inductive Halt where
  | header (h : HeaderFault)
  | following (h : HeaderFault)
  | negativeLength
  | stream (e : StreamStop)
  | read (f : ReadFault)

def Halt.deeper : Halt → Halt
  | .header h => .following h
  | h => h

def liftRead {α : Type} : Except ReadFault α → Reading Halt α
  | .ok a => pure a
  | .error f => throw (.read f)

/-- Reads the data that a describing header announces: `span` bytes, none for a span of zero; a
negative span is refused. -/
def readSpan (span : Int) : Reading Halt ByteArray :=
  if span < 0 then throw .negativeLength
  else (Reading.read span.toNat).adapt .stream

def readBlock : Reading Halt ByteArray := (Reading.read 512).adapt .stream

def readHeader : Reading Halt (TarMember × Option SparseHeader) := do
  match parseHeader (← readBlock) with
  | .ok m => pure m
  | .error h => throw (.header h)

/-- The pieces of an extension block of an old sparse map: 21 offsets and lengths of twelve bytes,
those with both non-zero. A field cut short by the block's end reads nothing. -/
def extensionPieces (buf : ByteArray) : Except Halt (List (Int × Int)) :=
  (List.range 21).foldlM (fun acc k => do
    let field (i : Nat) : Except Halt Int :=
      let b := buf.extract i (i + 12)
      if b.size = 0 then .error (.read .shortBlock)
      else match fieldNumber b with
        | some v => .ok v
        | none => .error (.header .invalid)
    let o ← field (24 * k)
    let n ← field (24 * k + 12)
    pure (if o ≠ 0 && n ≠ 0 then acc ++ [(o, n)] else acc)) []

/-- Reads the extension blocks of an old sparse map while one is announced, after the pieces
`acc`; each block's byte 504 announces another. `fuel` bounds the blocks. -/
def sparseExtensions : Nat → Bool → List (Int × Int) → Reading Halt (List (Int × Int))
  | 0, _, acc => pure acc
  | _ + 1, false, acc => pure acc
  | fuel + 1, true, acc => do
    let buf ← readBlock
    let pieces ← match extensionPieces buf with
      | .ok ps => pure ps
      | .error h => throw h
    if buf.size ≤ 504 then throw (.read .shortBlock)
    sparseExtensions fuel (buf[504]?.getD 0 ≠ 0) (acc ++ pieces)

def noLine : Halt := .read (.badValue "not enough values to unpack (expected 2, got 1)")

def splitLine (buf : ByteArray) : Option (ByteArray × ByteArray) :=
  (findByte buf 0 0x0A).map fun i => (buf.extract 0 i, buf.extract (i + 1) buf.size)

/-- Reads `want` numbers of a sparse map of format 1.0, one a line, after `acc`, from the bytes
`buf` and then from blocks read where the reader stands, a block read whenever no line is whole.
`fuel` bounds the lines. -/
def mapNumbers : Nat → Int → ByteArray → List Int → Reading Halt (List Int)
  | 0, _, _, acc => pure acc.reverse
  | fuel + 1, want, buf, acc => do
    if want ≤ acc.length then return acc.reverse
    let buf ← if (findByte buf 0 0x0A).isSome then pure buf else do pure (buf ++ (← readBlock))
    match splitLine buf with
    | none => throw noLine
    | some (line, rest) => mapNumbers fuel want rest ((← liftRead (integerOfBytes line)) :: acc)

/-- Reads a sparse map of format 1.0 where the reader stands: a block whose first line counts
the pieces, then an offset and a length a line. `fuel` bounds the lines. -/
def readSparseMap (fuel : Nat) : Reading Halt (List (Int × Int)) := do
  match splitLine (← readBlock) with
  | none => throw noLine
  | some (first, rest) =>
    let count ← liftRead (integerOfBytes first)
    pure (pairUp (← mapNumbers fuel (2 * count) rest []))

/-- The sparse map that extended records `rs`, read from the block `body`, give the member `next`
whose header followed them: a `GNU.sparse.map`; or, with a `GNU.sparse.size`, the offset and
length records in the block; or, for format 1.0, the map at the start of the member's data, whose
data then starts after it. `fuel` bounds the map's lines. -/
def withSparseMap (fuel : Nat) (rs : Records) (body : ByteArray) (next : TarMember) :
    Reading Halt TarMember := do
  match rs.find? "GNU.sparse.map" with
  | some v => pure { next with sparse := some (← liftRead (sparseMap v)) }
  | none =>
    if rs.has "GNU.sparse.size" then
      let offsets := (← liftRead (sparseNumbers body "offset")).map Int.ofNat
      let lengths := (← liftRead (sparseNumbers body "numbytes")).map Int.ofNat
      pure { next with sparse := some (offsets.zip lengths) }
    else if rs.find? "GNU.sparse.major" = some (RawPath.ofText "1") &&
        rs.find? "GNU.sparse.minor" = some (RawPath.ofText "0") then
      let pieces ← readSparseMap fuel
      pure { next with sparse := some pieces, dataOffset := ← Reading.tell }
    else pure next

/-- Completes the member whose header `h` was just read, following long-name and extended
headers, with the global records `global`: the member, where the next header starts, and the
global records after it. `fuel` bounds the describing headers and the blocks of sparse maps. -/
def completeMember : Nat → Records → TarMember × Option SparseHeader →
    Reading Halt (TarMember × Int × Records)
  | 0, _, _ => throw (.header .invalid)
  | fuel + 1, global, (m, oldSparse) => do
    let dataStart ← Reading.tell
    match m.kind with
    | .longName | .longLink =>
      let body ← readSpan (blockSpan m.size)
      let (next, nextPos, global) ← (do completeMember fuel global (← readHeader)).adapt Halt.deeper
      let text := fieldBytes body
      let next := if m.kind = .longName then { next with name := text }
        else { next with linkName := text }
      -- a directory loses one trailing slash of the long name
      let next := if next.kind = .directory && next.name.getLast? = some RawPath.slash then
          { next with name := next.name.dropLast }
        else next
      pure (next, nextPos, global)
    | .extended isGlobal =>
      let body ← readSpan (blockSpan m.size)
      liftRead (charsetCheck body)
      let records ← match paxRecords body (body.size + 1) 0 [] with
        | .ok rs => pure rs
        | .error .invalid => throw (.header .invalid)
        | .error (.read f) => throw (.read f)
      let forNext := records.foldl (fun rs (k, v) => Records.set rs k v) global
      let global := if isGlobal then forNext else global
      let (next, nextPos, global) ← (do completeMember fuel global (← readHeader)).adapt Halt.deeper
      let next ← withSparseMap (512 * (fuel + 2)) forNext body next
      if isGlobal then pure (next, nextPos, global)
      else
        let next ← liftRead (applyRecords next forNext)
        let nextPos :=
          if forNext.has "size" then
            next.dataOffset + (if next.kind.hasData then blockSpan next.size else 0)
          else nextPos
        pure (next, nextPos, global)
    | _ =>
      match oldSparse with
      | some sh =>
        -- an old sparse header: its extension blocks, then the data; no records apply
        let pieces ← sparseExtensions (fuel + 1) sh.extended sh.pieces
        let dataStart ← Reading.tell
        pure ({ m with dataOffset := dataStart, sparse := some pieces, size := sh.realSize },
          dataStart + blockSpan m.size, global)
      | none =>
        let nextPos : Int := dataStart + (if m.kind.hasData then blockSpan m.size else 0)
        let m ← liftRead (applyRecords { m with dataOffset := dataStart } global)
        let m := if m.kind = .directory then { m with name := RawPath.dropTrailingSlashes m.name }
          else m
        pure (m, nextPos, global)

end Tar

inductive TarFault where
  | unreadable
  | emptyArchive
  | firstHeader (h : HeaderFault)
  | following (h : HeaderFault)
  | negativeLength
  | dataCut
  | stream (e : StreamStop)
  | read (f : ReadFault)

def TarFault.message : TarFault → String
  | .unreadable => "not an lzma file"
  | .emptyArchive => "empty file"
  | .firstHeader h | .following h => h.message
  | .negativeLength => "read length must be non-negative or -1"
  | .dataCut => "unexpected end of data"
  | .stream e => e.message
  | .read f => f.message

namespace Tar

/-- Lists the members from the header at `offset` on, after the members `acc`, last first, with
the global records `global`. The stream failing before the first member is read makes the archive
unreadable. `fuel` bounds the members. -/
def members : Nat → Int → Records → List TarMember → Reading TarFault (List TarMember)
  | 0, _, _, acc => pure acc.reverse
  | fuel + 1, offset, global, acc => do
    let stream (e : StreamStop) : TarFault := if acc.isEmpty then .unreadable else .stream e
    let tell ← Reading.tell
    if offset ≠ tell then
      if offset = 0 then return acc.reverse
      if offset - 1 < -Int.pow 2 63 || Int.pow 2 63 ≤ offset - 1 then throw (.read .badOffset)
      (Reading.seek (offset - 1)).adapt stream
      let before ← (Reading.read 1).adapt stream
      if before.size = 0 then throw .dataCut
    let read : Reading Halt (TarMember × Int × Records) := do
      completeMember (fuel + 1) global (← readHeader)
    match ← (read.run : StateM Buffered _) with
    | .ok (m, next, global) => members fuel next global (m :: acc)
    | .error (.header .endOfArchive) => pure acc.reverse
    | .error (.header h) =>
      if offset ≠ 0 then pure acc.reverse
      else throw (if h = .empty then .emptyArchive else .firstHeader h)
    | .error (.following h) => throw (.following h)
    | .error .negativeLength => throw .negativeLength
    | .error (.stream e) => throw (stream e)
    | .error (.read f) => throw (.read f)

end Tar

/-- The members of a tar archive read through `r`, in order, and the reader after them; `bound`
bounds the members. -/
def tarMembers (bound : Nat) : Reading TarFault (List TarMember) :=
  Tar.members bound 0 [] []

end Reckon.Archive
