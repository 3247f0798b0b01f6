import Reckon.Archive.Zip
import Reckon.Archive.Tar
import Reckon.Archive.Folder
import Reckon.Path.Lexical

set_option autoImplicit false

/-!
# Extracting one member

One member of an archive is written into an empty folder and read back from it; names are bytes
(`RawPath`). A zip member is written at its name less its empty, `.` and `..` components. A tar
member first passes the data filter: no leading slash, a name and any link leading inside the
folder, only files, directories and links; a link that cannot be made is replaced by a copy of
the member it names. Each member written then has its mode and time set. A tar member's data is
copied through the archive's reader in reads of 16 KiB, a sparse file piece by piece. The member
is read back at its name as the archive gives it, an absolute name on the host. What each step
makes stays in the folder when a later step fails, and removing the folder fails once its entries
go too deep.
-/

namespace Reckon.Archive

/-- The files outside the extraction folder, as reading one at an absolute path finds them: its
bytes, or why the system refuses. -/
abbrev Host := RawPath → Except OsFault ByteArray

/-- A host with nothing to read outside the folder: only a component too long is refused before
nothing is found. -/
def Host.bare : Host := fun path =>
  match (Folder.empty 0).resolve true path.components with
  | .error e => .error e
  | .ok _ => .error .noEntry

/-- How reports name the extraction folder and the folder that holds it, and the folders above
that one, from the root down. -/
structure Scratch where
  folder : String
  parent : String
  ancestors : List String
  folderLength : Nat
  levelLimit : Nat

/-- Why a modification time cannot be set: it is not a number, or it lies outside the signed
64-bit seconds the system counts. -/
inductive StampFault where
  | notANumber
  | outOfRange
deriving DecidableEq, Repr

def StampFault.message : StampFault → String
  | .notANumber => "Invalid value NaN (not a number)"
  | .outOfRange => "timestamp out of range for platform time_t"

/-- The bits of the double 2^63, the first positive number of seconds beyond the system's count.
Non-negative doubles are ordered as their bits are. -/
def timeLimitBits : UInt64 := 0x43E0000000000000

/-- Why a stamp cannot be set on a file, if it cannot: whole seconds must lie in
`[-2^63, 2^63)`; a numeral is taken as the double nearest to it, which must lie there too. -/
def Stamp.fault? : Stamp → Option StampFault
  | .seconds n => if n < -Int.pow 2 63 || Int.pow 2 63 ≤ n then some .outOfRange else none
  | .numeral (.nan _) => some .notANumber
  | .numeral (.infinity _) => some .outOfRange
  | .numeral (.finite negative digits exp) =>
    let bits := Numeral.magnitudeBits digits exp
    if bits < timeLimitBits || (negative && bits == timeLimitBits) then none
    else some .outOfRange

/-- Why a member cannot be extracted and read back. -/
inductive ExtractFault where
  | zip (f : ZipFault)
  | tar (f : TarFault)
  | outside (name path : RawPath)
  | special (name : RawPath)
  | absoluteLink (name : RawPath)
  | linkOutside (name path : RawPath)
  | missingLink (linkName : RawPath)
  | os (e : OsError)
  | osUnnamed (f : OsFault)
  | invalidSeek
  | offsetTooLarge
  | fileTooLarge
  | owner (which : String) (below : Bool)
  | tooLarge
  | nullByte
  | stamp (f : StampFault)
  | modeTooLarge
  | unresolved
  | tooDeep

def ExtractFault.message : ExtractFault → String
  | .zip f => f.message
  | .tar f => f.message
  | .outside n p =>
    n.quote ++ " would be extracted to " ++ p.quote ++ ", which is outside the destination"
  | .special n => n.quote ++ " is a special file"
  | .absoluteLink n => n.quote ++ " is a link to an absolute path"
  | .linkOutside n p =>
    n.quote ++ " would link to " ++ p.quote ++ ", which is outside the destination"
  | .missingLink l => Text.quote ("linkname " ++ l.quote ++ " not found")
  | .os e => e.message
  | .osUnnamed f => f.message
  | .invalidSeek => "[Errno 22] Invalid argument"
  | .offsetTooLarge => "cannot fit 'int' into an offset-sized integer"
  | .fileTooLarge => "[Errno 27] File too large"
  | .owner which below =>
    which ++ (if below then " is less than minimum" else " is greater than maximum")
  | .tooLarge => ""
  | .nullByte => "embedded null byte"
  | .stamp f => f.message
  | .modeTooLarge => "Python int too large to convert to C int"
  | .unresolved => "unable to resolve link inside archive"
  | .tooDeep => "maximum recursion depth exceeded"

/-- Whether a fault is one the system reports on a file operation; a link that cannot be made
gives way to a copy after such a fault. -/
def ExtractFault.isOsError : ExtractFault → Bool
  | .os _ | .osUnnamed _ | .invalidSeek | .fileTooLarge => true
  | _ => false

/-- Extraction into the folder, over a monad `m` that the archive is read in: it fails with a
fault, and the folder keeps what was made before the fault, as a disk does. -/
abbrev Making (m : Type → Type) := ExceptT ExtractFault (StateT Folder m)

namespace Scratch

def pathText (s : Scratch) (rel : RawPath) : RawPath :=
  if rel.isEmpty then RawPath.ofText s.folder else RawPath.join (RawPath.ofText s.folder) rel

/-- Follows components by their letters from the folder: `above` counts the levels climbed above
it, `acc` holds the components below where the path stands, last first. -/
def climb : Nat → List RawPath → List RawPath → Nat × List RawPath
  | above, acc, [] => (above, acc)
  | above, acc, c :: cs =>
    if c = [] || c = RawPath.dot then climb above acc cs
    else if c = RawPath.dotDot then
      match acc with
      | [] => climb (above + 1) [] cs
      | _ :: rest => climb above rest cs
    else climb above (c :: acc) cs

/-- Where a path relative to the folder leads by its letters: its components inside the folder,
or the place outside it. Above the parent, the path climbs through its ancestors and stops at the
root. -/
def place (s : Scratch) (rel : RawPath) : Except RawPath (List RawPath) :=
  match climb 0 [] (RawPath.pieces rel) with
  | (0, acc) => .ok acc.reverse
  | (1, acc) => .error (RawPath.ofText s.parent ++ acc.reverse.flatMap (RawPath.slash :: ·))
  | (above, acc) =>
    match (s.ancestors.map RawPath.ofText).take (s.ancestors.length - (above - 2)) ++
        acc.reverse with
    | [] => .error [RawPath.slash]
    | cs => .error (cs.flatMap (RawPath.slash :: ·))

/-- Applies a file operation to the folder; when the system refuses it, the fault is reported on
the path `p` relative to the folder, and the folder stays as it was. -/
def change {m : Type → Type} [Monad m] (s : Scratch) (op : Folder → Except OsFault Folder)
    (p : RawPath) : Making m Unit := do
  match op (← get) with
  | .ok f => set f
  | .error e => throw (.os ⟨e, s.pathText p⟩)

/-- Makes the directories above a path relative to the folder, when they do not exist. Those made
before a failure stay. -/
def makeAbove {m : Type → Type} [Monad m] (s : Scratch) (target : RawPath) : Making m Unit := do
  let upper := RawPath.dirname target
  let f ← get
  unless upper.isEmpty || f.existsAt upper do
    let (f, failed) := f.makedirs (upper.length + 1) upper
    set f
    if let some (e, p) := failed then throw (.os ⟨e, s.pathText p⟩)

def rootOf (name : RawPath) : RawPath :=
  match (name.takeWhile (· = RawPath.slash)).length with
  | 0 => []
  | 2 => [RawPath.slash, RawPath.slash]
  | _ => [RawPath.slash]

/-- Reads back a member by the name the archive gives it, its empty and `.` components
dropped. An absolute name is read on the host, outside the folder. -/
def readBack {m : Type → Type} [Monad m] (s : Scratch) (host : Host) (name : RawPath) :
    Making m ByteArray := do
  let f ← get
  let root := rootOf name
  let rel := RawPath.ofComponents (name.components.filter (· ≠ RawPath.dot))
  if !root.isEmpty then
    let path := root ++ rel
    if pathLimit ≤ path.length then throw (.os ⟨.nameTooLong, path⟩)
    match host path with
    | .ok d => pure d
    | .error e => throw (.os ⟨e, path⟩)
  else
    match f.readFile rel with
    | .ok d => pure d
    | .error e => throw (.os ⟨e, s.pathText rel⟩)

/-- Removes the folder as extraction left it. The removal goes down one call per level of the
folder's entries, so entries `levelLimit` levels deep or more make it fail. -/
def remove (s : Scratch) (f : Folder) : Except ExtractFault Unit :=
  if s.levelLimit ≤ f.depth then .error .tooDeep else .ok ()

end Scratch

/-- The name a tar member is written at, once it passes the filter. Following the name, and a
link's target, looks at each of their components, so a NUL byte in either is refused there. -/
def Scratch.targetName (s : Scratch) (m : TarMember) : Except ExtractFault RawPath :=
  let name := RawPath.dropLeadingSlashes m.name
  if name.contains 0 then .error .nullByte
  else
    match s.place name with
    | .error p => .error (.outside m.name p)
    | .ok _ =>
      match m.kind with
      | .file | .directory => .ok name
      | .hardLink | .symlink =>
        if m.linkName.isAbsolute then .error (.absoluteLink m.name)
        else if m.linkName.contains 0 then .error .nullByte
        else
          let target := if m.kind = .symlink then RawPath.join (RawPath.dirname name) m.linkName
            else m.linkName
          match s.place target with
          | .error p => .error (.linkOutside m.name p)
          | .ok _ => .ok name
      | _ => .error (.special m.name)

namespace TarExtract

/-- The position and value of the last member before `before` (all members when `none`) whose
name, normalised, is the normalised `name`. -/
def findMember (ms : List TarMember) (before : Option Nat) (name : RawPath) :
    Option (Nat × TarMember) :=
  let key := RawPath.normalize name
  let range := match before with
    | some k => ms.zipIdx.take k
    | none => ms.zipIdx
  (range.filter fun (m, _) => RawPath.normalize m.name = key).getLast?.map fun (m, i) => (i, m)

def readExactly (n : Nat) : Reading ExtractFault ByteArray := do
  let b ← (Reading.read n).adapt (.tar ∘ .stream)
  if b.size < n then throw (.tar .dataCut)
  pure b

def readBlocks : Nat → ByteArray → Reading ExtractFault ByteArray
  | 0, acc => pure acc
  | k + 1, acc => do readBlocks k (acc ++ (← readExactly 16384))

/-- Copies a file member's data from where the reader stands: its size in bytes, as blocks of
16 KiB and then the rest. A negative size copies no block and the size's remainder modulo 16384. -/
def copyData (size : Int) : Reading ExtractFault ByteArray := do
  if size = 0 then return ByteArray.empty
  let out ← readBlocks (size / 16384).toNat ByteArray.empty
  let rest := (size % 16384).toNat
  if rest = 0 then pure out else pure (out ++ (← readExactly rest))

def largestFile : Nat := Nat.pow 2 28

/-- The pieces written into a file later cut or extended to `size` bytes: of each piece, in
turn, the part below `size` overwrites the bytes at its offset; the bytes no piece covers are
zeros. -/
def placePieces (size : Nat) (pieces : List (Nat × ByteArray)) : ByteArray :=
  pieces.foldl (fun content (offset, data) =>
    if size ≤ offset then content
    else
      let part := data.extract 0 (size - offset)
      content.extract 0 offset ++ part ++ content.extract (offset + part.size) size)
    ⟨Array.replicate size 0⟩

def maxFileSize : Int := (Int.pow 2 32 - 1) * 4096

/-- Seeks a file to a position: one that a signed 64-bit offset cannot hold is refused before the
system sees it, and the system refuses one below zero or past the largest file. -/
def seekTo (p : Int) : Reading ExtractFault Unit :=
  if p < -Int.pow 2 63 || Int.pow 2 63 ≤ p then throw .offsetTooLarge
  else if p < 0 || maxFileSize < p then throw .invalidSeek
  else pure ()

/-- A sparse file's content from where the reader stands: each piece's data, in turn, written at
its offset, then the whole cut or extended with zeros to `size`. A piece's data reaches the file
before the next seek, and may not pass the largest file. -/
def sparseData (pieces : List (Int × Int)) (size : Int) : Reading ExtractFault ByteArray := do
  let placed ← pieces.mapM fun (offset, length) => do
    seekTo offset
    let d ← copyData length
    if 0 < d.size && maxFileSize < offset + d.size then throw .fileTooLarge
    pure (offset.toNat, d)
  seekTo size
  if largestFile < size then throw ExtractFault.tooLarge
  pure (placePieces size.toNat placed)

/-- The member a link copies when the link itself cannot be made: for a symbolic link, the last
member named by the link read from the member's directory; for a hard link, the last one of the
link's name before the member at `pos`. -/
def copied (ms : List TarMember) (pos : Nat) (m : TarMember) : Option (Nat × TarMember) :=
  if m.kind = .symlink then
    findMember ms none (RawPath.ofComponents ([RawPath.dirname m.name, m.linkName].filter (· ≠ [])))
  else findMember ms (some pos) m.linkName

def systemUsers : List (String × Int) :=
  [("root", 0), ("daemon", 1), ("bin", 2), ("sys", 3), ("sync", 4), ("games", 5), ("man", 6),
    ("lp", 7), ("mail", 8), ("news", 9), ("uucp", 10), ("proxy", 13), ("www-data", 33),
    ("backup", 34), ("list", 38), ("irc", 39), ("_apt", 42), ("nobody", 65534)]

def systemGroups : List (String × Int) :=
  [("root", 0), ("daemon", 1), ("bin", 2), ("sys", 3), ("adm", 4), ("tty", 5), ("disk", 6),
    ("lp", 7), ("mail", 8), ("news", 9), ("uucp", 10), ("man", 12), ("proxy", 13), ("kmem", 15),
    ("dialout", 20), ("fax", 21), ("voice", 22), ("cdrom", 24), ("floppy", 25), ("tape", 26),
    ("sudo", 27), ("audio", 29), ("dip", 30), ("www-data", 33), ("backup", 34),
    ("operator", 37), ("list", 38), ("irc", 39), ("src", 40), ("shadow", 42), ("utmp", 43),
    ("video", 44), ("sasl", 45), ("plugdev", 46), ("staff", 50), ("games", 60), ("users", 100),
    ("nogroup", 65534)]

def numberOf (table : List (String × Int)) (name : RawPath) : Option Int :=
  (table.find? fun (n, _) => RawPath.ofText n = name).map (·.2)

/-- Whether the system refuses an owner number, which it keeps in 32 bits, and how: `-1` leaves
the owner as it is; any other negative number, and a number that a machine word holds but 32 bits
do not, is below the least (`true`); a number past the machine word is above the greatest
(`false`). -/
def ownerRefusal? (n : Int) : Option Bool :=
  if n = -1 then none
  else if n < 0 then some true
  else if n < Int.pow 2 32 then none
  else if n < Int.pow 2 63 then some true
  else some false

/-- Why a member's owner cannot be given to the file written for it, if it cannot: a name is
looked up when it is not empty, the group's first, and one holding a NUL byte cannot be; a name the
system knows gives its number, and otherwise the member's own number stands; then the user's
number is handed over, and the group's. -/
def ownerFault? (m : TarMember) : Option ExtractFault :=
  if m.gname.contains 0 || m.uname.contains 0 then some .nullByte
  else
    let g := (numberOf systemGroups m.gname).getD m.gid
    let u := (numberOf systemUsers m.uname).getD m.uid
    match ownerRefusal? u, ownerRefusal? g with
    | some below, _ => some (.owner "uid" below)
    | none, some below => some (.owner "gid" below)
    | none, none => none

def reading {α : Type} (r : Reading ExtractFault α) : Making (StateM Buffered) α :=
  ExceptT.mk (StateT.lift r.run)

/-- Writes the member at position `pos` at `target`, relative to the folder, whose directories
above exist. `filtered` tells whether the member went through the filter, which alone lets a hard
link see its target in the folder, and leaves it no owner to set. `fuel` bounds the links
followed. -/
def write (s : Scratch) (ms : List TarMember) :
    Nat → Nat → TarMember → Bool → RawPath → Making (StateM Buffered) Unit
  | 0, _, _, _, _ => pure ()
  | fuel + 1, pos, m, filtered, target => do
    -- a link that cannot be made becomes a copy of the member it names; naming none stops here
    let copy (_ : Unit) : Making (StateM Buffered) Unit :=
      match copied ms pos m with
      | none => throw .unresolved
      | some (i, t) => write s ms fuel i t false target
    -- the member made, its owner is set, then, but for a symbolic link, its permission bits and
    -- its modification time
    let settled : Making (StateM Buffered) Unit := do
      if !filtered then
        if let some e := ownerFault? m then throw e
      if m.kind = .symlink then return
      if !filtered && (m.mode < -Int.pow 2 31 || Int.pow 2 31 ≤ m.mode) then throw .modeTooLarge
      if let some e := m.mtime.fault? then throw (.stamp e)
    match m.kind with
    | .file | .unknown =>
      reading ((Reading.seek m.dataOffset).adapt (.tar ∘ .stream))
      s.change (·.writeFile target ByteArray.empty) target
      let d ← reading (match m.sparse with
        | none => copyData m.size
        | some pieces => sparseData pieces m.size)
      s.change (·.writeFile target d) target
      settled
    | .directory =>
      match (← get).mkdir target with
      | .ok f => set f
      | .error .exists_ =>
        match (← get).readFile target with
        | .error .isDirectory => pure ()
        | _ => throw (.os ⟨.exists_, s.pathText target⟩)
      | .error e => throw (.os ⟨e, s.pathText target⟩)
      settled
    | .device =>
      match (← get).mknod target with
      | .ok f => set f
      | .error e => throw (.osUnnamed e)
      settled
    | .symlink =>
      match (← get).symlink target m.linkName with
      | .ok f => set f
      | .error _ => copy ()
      settled
    | .hardLink =>
      let f ← get
      if !filtered then copy ()
      else if f.existsAt m.linkName then
        match f.hardLink m.linkName target with
        | .ok f => set f
        | .error _ => copy ()
      else
        match findMember ms (some pos) m.linkName with
        | none => throw (.missingLink m.linkName)
        | some (i, t) =>
          tryCatch (write s ms fuel i t false target) fun e =>
            if e.isOsError then copy () else throw e
      settled
    | _ => pure ()

end TarExtract

/-- Extracts the tar member at position `pos` into the folder, reading through the archive's
reader, and reads it back. What is written is the member as the filter passes it, named without
its leading slashes, so a symbolic link's copy is looked for from that name. -/
def extractTarMember (s : Scratch) (host : Host) (ms : List TarMember) (pos : Nat)
    (m : TarMember) : Making (StateM Buffered) ByteArray := do
  let name ← liftExcept (s.targetName m)
  let target := RawPath.dropTrailingSlashes name
  s.makeAbove target
  tryCatch (TarExtract.write s ms (ms.length + 1) pos { m with name } true target) fun
    | .unresolved => pure ()
    | e => throw e
  s.readBack host m.name

/-- Extracts the zip member of a name into the folder and reads it back: the last entry of that
name is the one written. The directories above it are made, the entry opened, the file created,
and the data read into it. -/
def extractZipMember (s : Scratch) (host : Host) (z : ZipArchive) (name : String) :
    Making Id ByteArray := do
  let key := RawPath.ofText name
  match z.find? name >>= (z.entries[·]?) with
  | none => s.readBack host key
  | some e =>
    let parts := (RawPath.ofText e.name).components.filter
      fun c => c ≠ RawPath.dot && c ≠ RawPath.dotDot
    if parts.isEmpty then s.readBack host key
    else
      let target := RawPath.ofComponents parts
      if (RawPath.dirname target).contains 0 then throw .nullByte
      s.makeAbove target
      let packed ← liftExcept ((z.payload e).mapError ExtractFault.zip)
      if target.contains 0 then throw .nullByte
      s.change (·.writeFile target ByteArray.empty) target
      let d ← liftExcept ((ZipArchive.unpackEntry e packed).mapError ExtractFault.zip)
      s.change (·.writeFile target d) target
      s.readBack host key

end Reckon.Archive
