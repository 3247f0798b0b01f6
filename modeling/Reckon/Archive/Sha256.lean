set_option autoImplicit false

/-!
# SHA-256

The longest check an xz stream may carry after a block is the SHA-256 digest of the block's
bytes. The message is padded with a one bit, zero bits and its length in bits as a 64-bit
big-endian number, up to a multiple of 64 bytes; each 64-byte block is expanded into a schedule
of 64 words and compressed into the eight working words, which start at the fractional parts of
the square roots of the first eight primes; the digest is the eight words, big-endian.
-/

namespace Reckon.Archive.Sha256

def rounds : Array UInt32 := #[
  0x428a2f98, 0x71374491, 0xb5c0fbcf, 0xe9b5dba5, 0x3956c25b, 0x59f111f1, 0x923f82a4, 0xab1c5ed5,
  0xd807aa98, 0x12835b01, 0x243185be, 0x550c7dc3, 0x72be5d74, 0x80deb1fe, 0x9bdc06a7, 0xc19bf174,
  0xe49b69c1, 0xefbe4786, 0x0fc19dc6, 0x240ca1cc, 0x2de92c6f, 0x4a7484aa, 0x5cb0a9dc, 0x76f988da,
  0x983e5152, 0xa831c66d, 0xb00327c8, 0xbf597fc7, 0xc6e00bf3, 0xd5a79147, 0x06ca6351, 0x14292967,
  0x27b70a85, 0x2e1b2138, 0x4d2c6dfc, 0x53380d13, 0x650a7354, 0x766a0abb, 0x81c2c92e, 0x92722c85,
  0xa2bfe8a1, 0xa81a664b, 0xc24b8b70, 0xc76c51a3, 0xd192e819, 0xd6990624, 0xf40e3585, 0x106aa070,
  0x19a4c116, 0x1e376c08, 0x2748774c, 0x34b0bcb5, 0x391c0cb3, 0x4ed8aa4a, 0x5b9cca4f, 0x682e6ff3,
  0x748f82ee, 0x78a5636f, 0x84c87814, 0x8cc70208, 0x90befffa, 0xa4506ceb, 0xbef9a3f7, 0xc67178f2]

def initial : Array UInt32 :=
  #[0x6a09e667, 0xbb67ae85, 0x3c6ef372, 0xa54ff53a, 0x510e527f, 0x9b05688c, 0x1f83d9ab, 0x5be0cd19]

def rotr (x : UInt32) (n : UInt32) : UInt32 := (x >>> n) ||| (x <<< (32 - n))

def wordAt (b : ByteArray) (i : Nat) : UInt32 :=
  (List.range 4).foldl (fun w k => (w <<< 8) ||| (b[i + k]?.getD 0).toUInt32) 0

def schedule (b : ByteArray) (i : Nat) : Array UInt32 :=
  (List.range 48).foldl (fun w t =>
    let x := w.getD (t + 1) 0
    let y := w.getD (t + 14) 0
    let s0 := rotr x 7 ^^^ rotr x 18 ^^^ (x >>> 3)
    let s1 := rotr y 17 ^^^ rotr y 19 ^^^ (y >>> 10)
    w.push (w.getD t 0 + s0 + w.getD (t + 9) 0 + s1))
    ((List.range 16).toArray.map fun k => wordAt b (i + 4 * k))

def round (v : Array UInt32) (k w : UInt32) : Array UInt32 :=
  let a := v.getD 0 0
  let e := v.getD 4 0
  let s1 := rotr e 6 ^^^ rotr e 11 ^^^ rotr e 25
  let ch := (e &&& v.getD 5 0) ^^^ (~~~e &&& v.getD 6 0)
  let t1 := v.getD 7 0 + s1 + ch + k + w
  let s0 := rotr a 2 ^^^ rotr a 13 ^^^ rotr a 22
  let maj := (a &&& v.getD 1 0) ^^^ (a &&& v.getD 2 0) ^^^ (v.getD 1 0 &&& v.getD 2 0)
  #[t1 + s0 + maj, a, v.getD 1 0, v.getD 2 0, v.getD 3 0 + t1, e, v.getD 5 0, v.getD 6 0]

def compress (b : ByteArray) (v : Array UInt32) (i : Nat) : Array UInt32 :=
  let w := schedule b i
  let r := (List.range 64).foldl (fun r t => round r (rounds.getD t 0) (w.getD t 0)) v
  (List.range 8).toArray.map fun k => v.getD k 0 + r.getD k 0

def padding (m : ByteArray) : ByteArray :=
  let zeros := (119 - m.size % 64) % 64
  let bits := 8 * m.size
  (m.push 0x80 ++ ⟨Array.replicate zeros 0⟩) ++
    ⟨(List.range 8).toArray.map fun k => (bits >>> (8 * (7 - k))).toUInt8⟩

def digest (m : ByteArray) : ByteArray :=
  let p := padding m
  let v := (List.range (p.size / 64)).foldl (fun v j => compress p v (64 * j)) initial
  ⟨v.flatMap fun (w : UInt32) =>
    #[(w >>> 24).toUInt8, (w >>> 16).toUInt8, (w >>> 8).toUInt8, w.toUInt8]⟩

example : (padding "abc".toUTF8).size = 64 := by decide +kernel

end Reckon.Archive.Sha256
