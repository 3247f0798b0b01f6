set_option autoImplicit false

/-!
# Reading bits

Compressed streams are read a bit at a time. Deflate takes the bits of each byte from the least
significant up and builds a number of several bits least significant first; bzip2 takes them
from the most significant down and builds a number most significant first. A reader holds the
bytes and the position of the next bit; reading past the last byte fails.

Container formats read whole numbers of bytes instead, least significant byte first.
-/

namespace Reckon.Archive

def readLE (b : ByteArray) (i n : Nat) : Option Nat :=
  (List.range n).foldr (fun k acc => do
    let v ← acc
    let x ← b[i + k]?
    pure (v * 256 + x.toNat)) (some 0)

structure BitReader where
  data : ByteArray
  pos : Nat

namespace BitReader

def ofBytes (data : ByteArray) : BitReader := ⟨data, 0⟩

def currentByte? (r : BitReader) : Option UInt8 := r.data[r.pos / 8]?

def bitLsb (r : BitReader) : Option (Nat × BitReader) :=
  r.currentByte?.map fun b => (((b >>> (r.pos % 8).toUInt8) &&& 1).toNat, ⟨r.data, r.pos + 1⟩)

def bitMsb (r : BitReader) : Option (Nat × BitReader) :=
  r.currentByte?.map fun b => (((b >>> (7 - r.pos % 8).toUInt8) &&& 1).toNat, ⟨r.data, r.pos + 1⟩)

def readLsb (r : BitReader) (n : Nat) : Option (Nat × BitReader) :=
  go n 0 0 r
where
  go : Nat → Nat → Nat → BitReader → Option (Nat × BitReader)
    | 0, _, acc, r => some (acc, r)
    | k + 1, shift, acc, r => do
      let (b, r) ← r.bitLsb
      go k (shift + 1) (acc + b * Nat.pow 2 shift) r

def readMsb (r : BitReader) (n : Nat) : Option (Nat × BitReader) :=
  go n 0 r
where
  go : Nat → Nat → BitReader → Option (Nat × BitReader)
    | 0, acc, r => some (acc, r)
    | k + 1, acc, r => do
      let (b, r) ← r.bitMsb
      go k (2 * acc + b) r

def alignToByte (r : BitReader) : BitReader := ⟨r.data, (r.pos + 7) / 8 * 8⟩

def bytePos (r : BitReader) : Nat := (r.pos + 7) / 8

def atEnd (r : BitReader) : Bool := r.data.size * 8 ≤ r.pos

end BitReader

example : ((BitReader.ofBytes ⟨#[0b10110010]⟩).readLsb 3).map Prod.fst = some 0b010 ∧
    ((BitReader.ofBytes ⟨#[0b10110010]⟩).readMsb 3).map Prod.fst = some 0b101 := by
  decide +kernel

end Reckon.Archive
