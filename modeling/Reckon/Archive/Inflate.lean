import Reckon.Archive.Huffman

set_option autoImplicit false

/-!
# Inflate

A deflate stream is a run of blocks, stored or compressed with fixed or sent prefix codes, the last
one marked. Decoding stops at the first fault, and input that ends early ends the output there.
Decoding may be capped at a number of bytes; once full, it still reads on to the next symbol that
would produce a byte, meeting faults in block headers but not checking a back-reference it does
not copy.
-/

namespace Reckon.Archive

inductive InflateFault where
  | invalidBlockType
  | invalidStoredLengths
  | tooManySymbols
  | invalidCodeLengths
  | invalidRepeat
  | missingEndOfBlock
  | invalidLiteralSet
  | invalidDistanceSet
  | invalidLiteralCode
  | invalidDistanceCode
  | distanceTooFar
deriving DecidableEq, Repr

def InflateFault.reason : InflateFault → String
  | .invalidBlockType => "invalid block type"
  | .invalidStoredLengths => "invalid stored block lengths"
  | .tooManySymbols => "too many length or distance symbols"
  | .invalidCodeLengths => "invalid code lengths set"
  | .invalidRepeat => "invalid bit length repeat"
  | .missingEndOfBlock => "invalid code -- missing end-of-block"
  | .invalidLiteralSet => "invalid literal/lengths set"
  | .invalidDistanceSet => "invalid distances set"
  | .invalidLiteralCode => "invalid literal/length code"
  | .invalidDistanceCode => "invalid distance code"
  | .distanceTooFar => "invalid distance too far back"

/-- How decoding ends: the whole stream; the bytes produced before the input ran out; the bytes up
to the cap, with how many input bytes were taken; or a fault, with the bytes produced before it. -/
inductive Inflated where
  | complete (out : ByteArray)
  | cut (out : ByteArray)
  | full (out : ByteArray) (used : Nat)
  | fault (f : InflateFault) (out : ByteArray)

def Inflated.out : Inflated → ByteArray
  | .complete out | .cut out | .full out _ | .fault _ out => out

/-- Where decoding a block stopped: at its end, with the reader after it; where the input ran
out; or at the cap, with how many input bytes were taken. -/
inductive BlockEnd where
  | next (r : BitReader)
  | cut
  | full (used : Nat)

namespace Inflate

def lengthBase : Array Nat :=
  #[3, 4, 5, 6, 7, 8, 9, 10, 11, 13, 15, 17, 19, 23, 27, 31, 35, 43, 51, 59, 67, 83, 99, 115,
    131, 163, 195, 227, 258]

def lengthExtra : Array Nat :=
  #[0, 0, 0, 0, 0, 0, 0, 0, 1, 1, 1, 1, 2, 2, 2, 2, 3, 3, 3, 3, 4, 4, 4, 4, 5, 5, 5, 5, 0]

def distanceBase : Array Nat :=
  #[1, 2, 3, 4, 5, 7, 9, 13, 17, 25, 33, 49, 65, 97, 129, 193, 257, 385, 513, 769, 1025, 1537,
    2049, 3073, 4097, 6145, 8193, 12289, 16385, 24577]

def distanceExtra : Array Nat :=
  #[0, 0, 0, 0, 1, 1, 2, 2, 3, 3, 4, 4, 5, 5, 6, 6, 7, 7, 8, 8, 9, 9, 10, 10, 11, 11, 12, 12, 13,
    13]

def codeLengthOrder : Array Nat :=
  #[16, 17, 18, 0, 8, 7, 9, 6, 10, 5, 11, 4, 12, 3, 13, 2, 14, 1, 15]

def fixedLiterals : Huffman :=
  Huffman.ofLengths ((List.range 288).toArray.map fun s =>
    if s < 144 then 8 else if s < 256 then 9 else if s < 280 then 7 else 8)

def fixedDistances : Huffman := Huffman.ofLengths (Array.replicate 30 5)

/-- Whether codeword lengths make a usable code: no collision, and no codeword missing unless the
code has a single codeword of one bit, or none at all. -/
def usable (lengths : Array Nat) (single : Bool) : Bool :=
  let h := Huffman.ofLengths lengths
  let maxLen := h.counts.size - 1
  let room := (h.counts.toList.drop 1).foldl (fun left c => 2 * left - c) 1
  h.isPrefixFree && (room = 0 || maxLen = 0 || (single && maxLen = 1))

def copyBack (out : ByteArray) (dist : Nat) : Nat → ByteArray
  | 0 => out
  | k + 1 => copyBack (out.push (out[out.size - dist]?.getD 0)) dist k

/-- Decodes the symbols of a compressed block until its end symbol, producing at most `cap` bytes
in all: the bytes so far, and where the block stopped. A fault comes with the bytes before it. -/
def codes (lit dist : Huffman) (cap : Nat) : Nat → ByteArray → BitReader →
    Except (InflateFault × ByteArray) (ByteArray × BlockEnd)
  | 0, out, _ => .ok (out, .cut)
  | fuel + 1, out, r =>
    match lit.decode BitReader.bitLsb lit.longest r with
    | .cut => .ok (out, .cut)
    | .invalid => .error (.invalidLiteralCode, out)
    | .symbol s r =>
      if s < 256 then
        if cap ≤ out.size then .ok (out, .full r.bytePos)
        else codes lit dist cap fuel (out.push s.toUInt8) r
      else if s = 256 then .ok (out, .next r)
      else if s ≤ 285 then
        match r.readLsb (lengthExtra[s - 257]?.getD 0) with
        | none => .ok (out, .cut)
        | some (e, r) =>
          let len := lengthBase[s - 257]?.getD 0 + e
          match dist.decode BitReader.bitLsb dist.longest r with
          | .cut => .ok (out, .cut)
          | .invalid => .error (.invalidDistanceCode, out)
          | .symbol d r =>
            if 30 ≤ d then .error (.invalidDistanceCode, out)
            else
              match r.readLsb (distanceExtra[d]?.getD 0) with
              | none => .ok (out, .cut)
              | some (e, r) =>
                let back := distanceBase[d]?.getD 0 + e
                let room := cap - out.size
                if room = 0 then .ok (out, .full r.bytePos)
                else if out.size < back then .error (.distanceTooFar, out)
                else if room < len then .ok (copyBack out back room, .full r.bytePos)
                else codes lit dist cap fuel (copyBack out back len) r
      else .error (.invalidLiteralCode, out)

def readLengths (cl : Huffman) (n : Nat) : Nat → Array Nat → BitReader →
    Except InflateFault (Option (Array Nat × BitReader))
  | 0, _, _ => .ok none
  | fuel + 1, acc, r =>
    if n ≤ acc.size then .ok (some (acc, r))
    else
      -- a code-length code without codewords reads each length as one bit, standing for zero
      let next : Huffman.Codeword :=
        if cl.counts.size ≤ 1 then
          match r.bitLsb with
          | some (_, r) => .symbol 0 r
          | none => .cut
        else cl.decode BitReader.bitLsb cl.longest r
      match next with
      | .cut => .ok none
      | .invalid => .error .invalidCodeLengths
      | .symbol s r =>
        if s < 16 then readLengths cl n fuel (acc.push s) r
        else
          let (bits, base, value) :=
            if s = 16 then (2, 3, acc.back?.getD 0) else if s = 17 then (3, 3, 0) else (7, 11, 0)
          -- a repeat is judged once its count bits are in: a first length that repeats the one
          -- before it, or a count past the lengths sent, is refused
          match r.readLsb bits with
          | none => .ok none
          | some (e, r) =>
            let count := base + e
            if s = 16 && acc.isEmpty then .error .invalidRepeat
            else if n < acc.size + count then .error .invalidRepeat
            else readLengths cl n fuel (acc ++ Array.replicate count value) r

def dynamicCodes (r : BitReader) : Except InflateFault (Option (Huffman × Huffman × BitReader)) :=
  match r.readLsb 5, (r.readLsb 5).bind (fun (_, r) => r.readLsb 5) with
  | some (hlit, r1), some (hdist, _) =>
    match (r1.readLsb 5).bind (fun (_, r) => r.readLsb 4) with
    | none => .ok none
    | some (hclen, r) =>
      let nlit := hlit + 257
      let ndist := hdist + 1
      if 286 < nlit || 30 < ndist then .error .tooManySymbols
      else
        let order := (codeLengthOrder.toList.take (hclen + 4))
        let step (acc : Option (Array Nat × BitReader)) (i : Nat) := acc.bind fun (ls, r) =>
          (r.readLsb 3).map fun (v, r) => (ls.set! i v, r)
        match order.foldl step (some (Array.replicate 19 0, r)) with
        | none => .ok none
        | some (cls, r) =>
          if !usable cls false then .error .invalidCodeLengths
          else
            match readLengths (Huffman.ofLengths cls) (nlit + ndist) (nlit + ndist + 1) #[] r with
            | .error f => .error f
            | .ok none => .ok none
            | .ok (some (ls, r)) =>
              let lits := ls.extract 0 nlit
              let dists := ls.extract nlit (nlit + ndist)
              if lits[256]?.getD 0 = 0 then .error .missingEndOfBlock
              else if !usable lits true then .error .invalidLiteralSet
              else if !usable dists true then .error .invalidDistanceSet
              else .ok (some (Huffman.ofLengths lits, Huffman.ofLengths dists, r))
  | _, _ => .ok none

/-- Copies the bytes of a stored block, up to `cap` bytes in all: the bytes so far, and where the
block stopped. Input that ends first, or a full output, stops it inside the block. -/
def stored (cap : Nat) (out : ByteArray) (r : BitReader) :
    Except (InflateFault × ByteArray) (ByteArray × BlockEnd) :=
  let p := r.bytePos
  match r.data[p]?, r.data[p + 1]?, r.data[p + 2]?, r.data[p + 3]? with
  | some a, some b, some c, some d =>
    let len := a.toNat + 256 * b.toNat
    let nlen := c.toNat + 256 * d.toNat
    if len + nlen != 0xFFFF then .error (.invalidStoredLengths, out)
    else
      let room := cap - out.size
      let avail := r.data.size - (p + 4)
      let take := min len (min avail room)
      let out := out ++ r.data.extract (p + 4) (p + 4 + take)
      if take = len then .ok (out, .next ⟨r.data, (p + 4 + len) * 8⟩)
      else if take = avail then .ok (out, .cut)
      else .ok (out, .full (p + 4 + take))
  | _, _, _, _ => .ok (out, .cut)

def blocks (cap : Nat) : Nat → ByteArray → BitReader → Inflated
  | 0, out, _ => .cut out
  | fuel + 1, out, r =>
    match r.readLsb 1, (r.readLsb 1).bind (fun (_, r) => r.readLsb 2) with
    | some (final, _), some (kind, r) =>
      let next (res : Except (InflateFault × ByteArray) (ByteArray × BlockEnd)) : Inflated :=
        match res with
        | .error (f, out) => .fault f out
        | .ok (out, .cut) => .cut out
        | .ok (out, .full used) => .full out used
        | .ok (out, .next r) => if final = 1 then .complete out else blocks cap fuel out r
      let budget := r.data.size * 8 - r.pos + 1
      if kind = 0 then next (stored cap out r)
      else if kind = 1 then next (codes fixedLiterals fixedDistances cap budget out r)
      else if kind = 2 then
        match dynamicCodes r with
        | .error f => .fault f out
        | .ok none => .cut out
        | .ok (some (lit, dist, r)) => next (codes lit dist cap budget out r)
      else .fault .invalidBlockType out
    | _, _ => .cut out

end Inflate

def inflateUpTo (cap : Nat) (data : ByteArray) : Inflated :=
  Inflate.blocks cap (data.size * 8 + 1) ByteArray.empty (BitReader.ofBytes data)

/-- Decodes a raw deflate stream with no cap on its output: a cap that no stream of this input
can reach, since one bit of input makes at most 258 bytes. -/
def inflate (data : ByteArray) : Inflated :=
  inflateUpTo (258 * 8 * data.size + 1) data

end Reckon.Archive
