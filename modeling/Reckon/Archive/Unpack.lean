import Reckon.Archive.Xz

set_option autoImplicit false

/-!
# Compressed files of the LZMA family

The first byte tells the formats apart: `FD` starts an xz stream, `L` an lzip member, and anything
else is an `.lzma` file. That is a thirteen-byte header (parameters, dictionary size, decoded size)
before raw LZMA data, accepted only with a plausible dictionary size and a known size below
256 GiB. An lzip member is `LZIP`, a version, a coded dictionary size, raw LZMA data to its end
marker and a trailer with the CRC-32 and the sizes. Each format decodes one stream; the reader
starts anew after it.
-/

namespace Reckon.Archive

/-- Whether a dictionary size is one an `.lzma` header may state: `2^n`, `2^n + 2^(n-1)`, or all
ones. The size minus one, with every bit below its top two bits set, plus one, gives it back
exactly then. -/
def lzmaDictionaryOk (size : Nat) : Bool :=
  size = 0xFFFFFFFF ||
    let d : UInt32 := size.toUInt32 - 1
    let d := d ||| (d >>> 2)
    let d := d ||| (d >>> 3)
    let d := d ||| (d >>> 4)
    let d := d ||| (d >>> 8)
    let d := d ||| (d >>> 16)
    (d + 1).toNat = size

/-- The ending of raw LZMA data that stopped, and where: complete at its end when no fault
stopped it. -/
def lzmaEnding (stop : Nat) : Option (LzmaFault × Nat) → Ending
  | none => .complete stop
  | some (f, reach) => f.ending reach

def unlzma (b : ByteArray) : Unpacked :=
  let refused : Unpacked := ⟨ByteArray.empty, .broken .format 0⟩
  let short : Unpacked := ⟨ByteArray.empty, .cut⟩
  match b[0]? with
  | none => short
  | some p =>
    match Lzma.Props.ofByte p.toNat with
    | none => refused
    | some props =>
      if 4 < props.lc + props.lp then refused
      else
        match readLE b 1 4 with
        | none => short
        | some dictionary =>
          if !lzmaDictionaryOk dictionary then refused
          else
            match readLE b 5 8 with
            | none => short
            | some size =>
              let known := size ≠ Nat.pow 2 64 - 1
              if known && Nat.pow 2 38 ≤ size then refused
              else
                let (out, stop, fault) :=
                  lzmaRaw props dictionary b 13 (if known then some size else none)
                ⟨out, lzmaEnding stop fault⟩

def lzipMagic : List Nat := [0x4C, 0x5A, 0x49, 0x50]

def unlzip (b : ByteArray) : Unpacked :=
  let seen := min b.size 4
  if !Xz.bytesAre b 0 (lzipMagic.take seen) then ⟨ByteArray.empty, .broken .format 0⟩
  else
    match b[4]?, b[5]? with
    | none, _ => ⟨ByteArray.empty, .cut⟩
    | some v, ds =>
      if 1 < v.toNat then ⟨ByteArray.empty, .broken .options 0⟩
      else
        match ds with
        | none => ⟨ByteArray.empty, .cut⟩
        | some ds =>
          let log := ds.toNat % 32
          let frac := ds.toNat / 32
          if log < 12 || 29 < log || (log = 12 && 0 < frac) then
            ⟨ByteArray.empty, .broken .corrupt 0⟩
          else
            let (out, stop, fault) := lzmaRaw ⟨3, 0, 2⟩ (Nat.pow 2 log - frac * Nat.pow 2 (log - 4)) b 6 none
            match fault with
            | some _ => ⟨out, lzmaEnding stop fault⟩
            | none =>
              let trailer := if v.toNat = 0 then 12 else 20
              let broken : Unpacked := ⟨out, .broken .corrupt out.size⟩
              if b.size < stop + trailer then ⟨out, .cut⟩
              else if readLE b stop 4 ≠ some (crc32 out).toNat then broken
              else if readLE b (stop + 4) 8 ≠ some out.size then broken
              else if v.toNat = 1 && readLE b (stop + 12) 8 ≠ some (stop + trailer) then broken
              else ⟨out, .complete (stop + trailer)⟩

def unpack (b : ByteArray) : Unpacked :=
  match b[0]? with
  | none => ⟨ByteArray.empty, .cut⟩
  | some x =>
    if x = 0xFD then unxz b
    else if x = 0x4C then unlzip b
    else unlzma b

/-- The bytes that the streams of a compressed file decode to, one after another, as far as they
go; `fuel` bounds the streams. -/
def unpackedSize (b : ByteArray) : Nat → Nat → Nat
  | 0, _ => 0
  | fuel + 1, first =>
    let u := unpack (b.extract first b.size)
    match u.ending with
    | .complete used =>
      if 0 < used then u.bytes.size + unpackedSize b fuel (first + used) else u.bytes.size
    | _ => u.bytes.size

end Reckon.Archive
