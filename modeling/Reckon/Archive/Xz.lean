import Reckon.Archive.Lzma
import Reckon.Archive.Stream
import Reckon.Archive.Checksum
import Reckon.Archive.Sha256
import Reckon.Archive.Bits
import Reckon.Archive.Filter

set_option autoImplicit false

/-!
# The xz container

An xz stream is a header of twelve bytes, a run of blocks, an index and a footer. The header
names the check that follows each block's data: none, CRC-32, CRC-64 or a longer one. A block
header gives its own size, optionally the block's compressed and uncompressed sizes, and its filter
chain: up to three filters that do not change the size, then LZMA2. After the block's LZMA2 data
come zero bytes up to a multiple of four, then the check of the decoded bytes, once the filters are
undone. The index lists each block's sizes again, and the footer repeats the header's flags and
gives the index's size.

Decoding gives the bytes it produces and the way it ended: at the footer, at the end of the
input, or at a fault. A fault of the container lies between symbols: a reader meets it once it asks
for the bytes decoded before it.
-/

namespace Reckon.Archive

def LzmaFault.ending (reach : Nat) : LzmaFault → Ending
  | .truncated => .cut
  | .corrupt => .broken .corrupt reach
  | .badOptions => .broken .options reach

namespace Xz

def headerMagic : List Nat := [0xFD, 0x37, 0x7A, 0x58, 0x5A, 0x00]

def footerMagic : List Nat := [0x59, 0x5A]

def lzma2Filter : Nat := 0x21

/-- The filter of an identifier other than LZMA2, with its properties: the delta filter takes one
byte, its distance less one; a branch filter none, or a start offset of four bytes. Other
identifiers, and other properties, are not supported. -/
def filterOf (id : Nat) (props : ByteArray) : Option Filter :=
  if id = 3 then
    if props.size = 1 then some (.delta ((props[0]?.getD 0).toNat + 1)) else none
  else
    let start? : Option UInt32 :=
      if props.size = 0 then some 0
      else if props.size = 4 then (readLE props 0 4).map (·.toUInt32)
      else none
    match start?, [(4, Filter.x86), (5, .powerPc), (6, .ia64), (7, .arm), (8, .armThumb),
        (9, .sparc), (10, .arm64)].lookup id with
    | some start, some mk => some (mk start)
    | _, _ => none

/-- The number of bytes of the check of each check type: none for type 0, then four, eight,
sixteen, thirty-two and sixty-four bytes for each three types. -/
def checkSize (t : Nat) : Nat := if t = 0 then 0 else 4 * Nat.pow 2 ((t - 1) / 3)

def bytesAre (b : ByteArray) (i : Nat) (expected : List Nat) : Bool :=
  (List.range expected.length).all fun k => (b[i + k]?.map (·.toNat)) = expected[k]?

/-- Reads a variable-length number at `i` below `limit`: seven bits a byte, low bits first, the
high bit set on every byte but the last; at most nine bytes, and no last byte of zero after the
first. The number and where it ends. The input ending first cuts the number short. -/
def readVli (b : ByteArray) (limit : Nat) : Nat → Nat → Nat → Nat → Except StreamStop (Nat × Nat)
  | 0, _, _, _ => .error (.broken .corrupt)
  | fuel + 1, i, k, acc =>
    match b[i]? with
    | none => .error .cut
    | some x =>
      if limit ≤ i then .error (.broken .corrupt)
      else
        let x := x.toNat
        let acc := acc + x % 128 * Nat.pow 128 k
        if x < 128 then
          if x = 0 && k ≠ 0 then .error (.broken .corrupt) else .ok (acc, i + 1)
        else readVli b limit fuel (i + 1) (k + 1) acc

def vli (b : ByteArray) (i limit : Nat) : Except StreamStop (Nat × Nat) := readVli b limit 9 i 0 0

/-- What a block header says: the sizes it states, the filters before LZMA2, LZMA2's dictionary
size, and where the block's data starts. -/
structure BlockHeader where
  compressedSize : Option Nat
  size : Option Nat
  filters : List Filter
  dictionary : Nat
  dataStart : Nat

inductive Link where
  | lzma2 (dictionary : Nat)
  | other (f : Filter)

/-- The dictionary size LZMA2's property byte `p` states: `2^(p/2 + 12)`, times one and a half
when `p` is odd, and all ones of 32 bits for 40. -/
def lzma2Dictionary (p : Nat) : Nat :=
  if p = 40 then 0xFFFFFFFF else (2 + p % 2) * Nat.pow 2 (p / 2 + 11)

/-- Reads `n` filters of a block header from `i`, up to `limit`: each an identifier below 2^62, the
size of its properties and the properties; LZMA2's property byte is a dictionary size no larger than
40. The filters and where they end. -/
def filterLinks (b : ByteArray) (limit : Nat) : Nat → Nat → Except StreamStop (List Link × Nat)
  | 0, i => .ok ([], i)
  | n + 1, i => do
    let (id, i) ← vli b i limit
    if Nat.pow 2 62 ≤ id then throw (.broken .corrupt)
    let (propsSize, i) ← vli b i limit
    if limit - i < propsSize then throw (.broken .corrupt)
    let props := b.extract i (i + propsSize)
    let link ←
      if id = lzma2Filter then
        if propsSize ≠ 1 || 40 < (props[0]?.getD 0).toNat then throw (.broken .options)
        else pure (Link.lzma2 (lzma2Dictionary (props[0]?.getD 0).toNat))
      else
        match filterOf id props with
        | some f => pure (Link.other f)
        | none => throw (.broken .options)
    let (rest, i) ← filterLinks b limit n (i + propsSize)
    pure (link :: rest, i)

/-- The filters before LZMA2 in a chain that ends with LZMA2 and holds it nowhere else, and
LZMA2's dictionary size. -/
def chainOf : List Link → Option (List Filter × Nat)
  | [] => none
  | [.lzma2 d] => some ([], d)
  | .other f :: rest => (chainOf rest).map fun (fs, d) => (f :: fs, d)
  | .lzma2 _ :: _ :: _ => none

/-- The largest size of a block without its padding: the largest number of 63 bits that is a
multiple of four. -/
def maxUnpadded : Nat := Nat.pow 2 63 - 4

/-- Reads the block header at `p`, whose first byte `s` is not zero, for check type `t`: its size is
`(s + 1) * 4` bytes, the last four a CRC-32 of the others; then flags, the optional sizes, the
filters, and zero bytes to the end. The block's size without padding may not pass
`maxUnpadded`, the chain must end with LZMA2 alone, and a branch filter's start offset must be a
multiple of its instruction size. -/
def blockHeader (b : ByteArray) (p s t : Nat) : Except StreamStop BlockHeader := do
  let size := (s + 1) * 4
  let limit := p + size - 4
  if b.size < p + size then throw .cut
  if some (crc32 (b.extract p limit)).toNat ≠ readLE b limit 4 then throw (.broken .corrupt)
  let flags := (b[p + 1]?.getD 0).toNat
  if flags / 4 % 16 ≠ 0 then throw (.broken .options)
  let (compressed, i) ←
    if flags / 64 % 2 = 1 then
      (vli b (p + 2) limit).map fun (v, i) => (some v, i)
    else pure (none, p + 2)
  if compressed.any (fun c => c = 0 || maxUnpadded < c + size + checkSize t) then
    throw (.broken .corrupt)
  let (uncompressed, i) ←
    if flags / 128 = 1 then
      (vli b i limit).map fun (v, i) => (some v, i)
    else pure (none, i)
  let (links, i) ← filterLinks b limit (flags % 4 + 1) i
  if !(List.range (limit - i)).all (fun k => b[i + k]? = some 0) then throw (.broken .options)
  match chainOf links with
  | none => throw (.broken .options)
  | some (chain, dictionary) =>
    if chain.any (fun f => f.start.toNat % f.alignment ≠ 0) then throw (.broken .options)
    pure ⟨compressed, uncompressed, chain, dictionary, p + size⟩

/-- Whether a check of type `t` read at `i` matches the decoded bytes: CRC-32, CRC-64 and
SHA-256 are verified, and a check of a reserved type is skipped unread. -/
def checkMatches (b : ByteArray) (i t : Nat) (data : ByteArray) : Bool :=
  if t = 1 then readLE b i 4 = some (crc32 data).toNat
  else if t = 4 then readLE b i 8 = some (crc64 data).toNat
  else if t = 10 then b.extract i (i + 32) == Sha256.digest data
  else true

/-- A block's record in the index: its size without padding, and its uncompressed size. -/
abbrev Record := Nat × Nat

/-- Decodes one block at `p` with check type `t`: its bytes, its index record and where it ends;
or, when it stops short, the bytes decoded and the ending, its reach counted in the block. Sizes
that the block header states bound the data: output beyond the stated size is a fault once read
up to that size, and data that needs input beyond the stated compressed size is a fault past the
bytes decoded. -/
def block (b : ByteArray) (p s t : Nat) :
    Except (ByteArray × Ending) (ByteArray × Record × Nat) :=
  match blockHeader b p s t with
  | .error e => .error (ByteArray.empty, e.endingAt 0)
  | .ok h =>
    -- a stated compressed size is all the input the block's data may take
    let input := match h.compressedSize with
      | some c => b.extract 0 (h.dataStart + c)
      | none => b
    let (raw, q, fault) := lzma2 input h.dataStart h.dictionary h.size
    let out := undoFilters h.filters raw fault.isNone
    match fault with
    | some (.truncated, _) =>
      -- all the stated input taken, the data still wants more
      if h.compressedSize.any (h.dataStart + · ≤ b.size) then
        .error (out, .broken .corrupt (if h.size = some out.size then out.size else out.size + 1))
      else .error (out, .cut)
    | some (f, reach) => .error (out, f.ending reach)
    | none =>
      let compressed := q - h.dataStart
      let broken : Ending := .broken .corrupt out.size
      if h.compressedSize.any (· ≠ compressed) || h.size.any (· ≠ out.size) then
        .error (out, broken)
      else
        let padded := (q + 3) / 4 * 4
        let checkAt := padded
        let stop := checkAt + checkSize t
        if b.size < stop then .error (out, .cut)
        else if !(List.range (padded - q)).all (fun k => b[q + k]? = some 0) then
          .error (out, broken)
        else if !checkMatches b checkAt t out then .error (out, broken)
        else .ok (out, ((h.dataStart - p) + compressed + checkSize t, out.size), stop)

/-- Decodes the blocks from `p` until the index indicator, a zero byte: all bytes, the records,
and where the index starts; or the bytes decoded and the ending. -/
def blocks (b : ByteArray) (t : Nat) :
    Nat → Nat → ByteArray → List Record → Except (ByteArray × Ending) (ByteArray × List Record × Nat)
  | 0, _, out, _ => .error (out, .broken .corrupt out.size)
  | fuel + 1, p, out, records =>
    match b[p]? with
    | none => .error (out, .cut)
    | some s =>
      if s = 0 then .ok (out, records.reverse, p)
      else
        match block b p s.toNat t with
        | .error (more, e) => .error (out ++ more, e.after out.size)
        | .ok (more, r, q) => blocks b t fuel q (out ++ more) (r :: records)

def records (b : ByteArray) (limit : Nat) : Nat → Nat → Except StreamStop (List Record × Nat)
  | 0, i => .ok ([], i)
  | n + 1, i => do
    let (unpadded, i) ← vli b i limit
    let (size, i) ← vli b i limit
    let (rest, i) ← records b limit n i
    pure ((unpadded, size) :: rest, i)

/-- Checks the index at `p` against the blocks' records, then the footer after it: its magic bytes,
its CRC-32, flags with no reserved bit set, the index's size, and last that the flags are the
header's. Where the footer ends. -/
def indexAndFooter (b : ByteArray) (p : Nat) (flags : List Nat) (rs : List Record) :
    Except StreamStop Nat := do
  let (count, i) ← vli b (p + 1) b.size
  if count ≠ rs.length then throw (.broken .corrupt)
  let (listed, i) ← records b b.size count i
  if listed ≠ rs then throw (.broken .corrupt)
  let padded := (i + 3) / 4 * 4
  if b.size < padded + 4 + 12 then throw .cut
  if !(List.range (padded - i)).all (fun k => b[i + k]? = some 0) then throw (.broken .corrupt)
  if some (crc32 (b.extract p padded)).toNat ≠ readLE b padded 4 then throw (.broken .corrupt)
  let f := padded + 4
  if !bytesAre b (f + 10) footerMagic then throw (.broken .corrupt)
  if some (crc32 (b.extract (f + 4) (f + 10))).toNat ≠ readLE b f 4 then
    throw (.broken .corrupt)
  if b[f + 8]? ≠ some 0 || 15 < (b[f + 9]?.getD 0).toNat then throw (.broken .options)
  if readLE b (f + 4) 4 ≠ some ((padded + 4 - p) / 4 - 1) then throw (.broken .corrupt)
  if !bytesAre b (f + 8) flags then throw (.broken .corrupt)
  pure (f + 12)

end Xz

open Xz in
/-- Decodes an xz stream: the stream header, the blocks, the index and the footer. The header is
looked at only once all its twelve bytes are there, so fewer bytes are a stream cut short,
whatever they are. What follows the footer is not read; a complete stream tells where its footer
ends. -/
def unxz (b : ByteArray) : Unpacked :=
  if b.size < 12 then ⟨ByteArray.empty, .cut⟩
  else if !bytesAre b 0 headerMagic then ⟨ByteArray.empty, .broken .format 0⟩
  else
    let flags := [(b[6]?.getD 0).toNat, (b[7]?.getD 0).toNat]
    let t := flags.getLast?.getD 0 % 16
    if some (crc32 (b.extract 6 8)).toNat ≠ readLE b 8 4 then ⟨ByteArray.empty, .broken .corrupt 0⟩
    else if flags.head? ≠ some 0 || 15 < flags.getLast?.getD 0 then
      ⟨ByteArray.empty, .broken .options 0⟩
    else
      match blocks b t b.size 12 ByteArray.empty [] with
      | .error (out, e) => ⟨out, e⟩
      | .ok (out, rs, p) =>
        match indexAndFooter b p flags rs with
        | .error e => ⟨out, e.endingAt out.size⟩
        | .ok stop => ⟨out, .complete stop⟩

end Reckon.Archive
