set_option autoImplicit false

/-!
# Filters before compression

An xz block may pass its data through filters before compressing it; decoding undoes them in
reverse order. The delta filter stores each byte as its difference from the byte `distance` places
before. The branch filters turn relative call and branch targets of one processor into absolute
ones, in units of its instructions with 32-bit wrap-around; they convert only the units they see
whole, hold back the rest until more data comes, and pass it on as it is at the end.
-/

namespace Reckon.Archive

inductive Filter where
  | delta (distance : Nat)
  | x86 (start : UInt32)
  | powerPc (start : UInt32)
  | ia64 (start : UInt32)
  | arm (start : UInt32)
  | armThumb (start : UInt32)
  | sparc (start : UInt32)
  | arm64 (start : UInt32)
deriving DecidableEq, Repr

namespace Filter

def alignment : Filter → Nat
  | .delta _ | .x86 _ => 1
  | .powerPc _ | .arm _ | .sparc _ | .arm64 _ => 4
  | .ia64 _ => 16
  | .armThumb _ => 2

def start : Filter → UInt32
  | .delta _ => 0
  | .x86 s | .powerPc s | .ia64 s | .arm s | .armThumb s | .sparc s | .arm64 s => s

def byteAt (b : ByteArray) (i : Nat) : UInt8 := b[i]?.getD 0

def wordLE (b : ByteArray) (i : Nat) : UInt32 :=
  (List.range 4).foldr (fun k w => (w <<< 8) ||| (byteAt b (i + k)).toUInt32) 0

def wordBE (b : ByteArray) (i : Nat) : UInt32 :=
  (List.range 4).foldl (fun w k => (w <<< 8) ||| (byteAt b (i + k)).toUInt32) 0

def put (b : ByteArray) (i : Nat) (bytes : List UInt8) : ByteArray :=
  bytes.zipIdx.foldl (fun b (x, k) => b.set! (i + k) x) b

def putLE (b : ByteArray) (i : Nat) (w : UInt32) : ByteArray :=
  put b i ((List.range 4).map fun k => (w >>> (8 * k).toUInt32).toUInt8)

def putBE (b : ByteArray) (i : Nat) (w : UInt32) : ByteArray :=
  put b i ((List.range 4).map fun k => (w >>> (8 * (3 - k)).toUInt32).toUInt8)

def undoDelta (distance : Nat) (b : ByteArray) : ByteArray :=
  (List.range b.size).foldl
    (fun out i => out.push (byteAt b i + (if distance ≤ i then byteAt out (i - distance) else 0)))
    ByteArray.empty

/-- Converts the units of `step` bytes, `width` bytes seen at a time, that lie wholly in the data,
with `convert` given the data and a unit's position; how far the units reach. -/
def units (step width : Nat) (convert : ByteArray → Nat → ByteArray) (b : ByteArray) :
    ByteArray × Nat :=
  let count := if b.size < width then 0 else (b.size - width) / step + 1
  ((List.range count).foldl (fun b k => convert b (step * k)) b, step * count)

def shortTop (x : UInt8) : Bool := x = 0 || x = 0xFF

/-- Turns an x86 target back into a displacement from the end of its instruction at `pc + 5`.
When earlier opcode bytes lie close behind, a result whose byte at the recorded place is again a
short top is undone once more, as the encoder did. -/
def x86Target (pc mask src : UInt32) : Nat → UInt32
  | 0 => src - (pc + 5)
  | fuel + 1 =>
    let dest := src - (pc + 5)
    if mask = 0 then dest
    else
      let i := [0, 1, 2, 2, 3, 3, 3, 3].getD (mask >>> 1).toNat 0
      if !shortTop (dest >>> (24 - i * 8).toUInt32).toUInt8 then dest
      else x86Target pc mask (dest ^^^ (((1 : UInt32) <<< (32 - i * 8).toUInt32) - 1)) fuel

/-- Undoes the x86 filter from position `i`, with the mask of recent opcode bytes and where the last
one was: the data and how far it got. An opcode byte `E8` or `E9` whose displacement ends in a short
top byte, with no opcode in the way in the four bytes before, holds an absolute target. -/
def x86Loop (start : UInt32) (limit : Nat) :
    Nat → ByteArray → Nat → UInt32 → UInt32 → ByteArray × Nat
  | 0, b, i, _, _ => (b, i)
  | fuel + 1, b, i, mask, prev =>
    if limit < i then (b, i)
    else
      let op := byteAt b i
      if op ≠ 0xE8 && op ≠ 0xE9 then x86Loop start limit fuel b (i + 1) mask prev
      else
        let pc := start + i.toUInt32
        let offset := pc - prev
        let mask : UInt32 := if offset > 5 then 0
          else (List.range offset.toNat).foldl (fun m _ => (m &&& 0x77) <<< 1) mask
        let top := byteAt b (i + 4)
        let allowed := [true, true, true, false, true, false, false, false].getD
          ((mask >>> 1) &&& 7).toNat false
        if shortTop top && allowed && (mask >>> 1) < 0x10 then
          let dest := x86Target pc mask (wordLE b (i + 1)) 64
          let b := put b (i + 1) [dest.toUInt8, (dest >>> 8).toUInt8, (dest >>> 16).toUInt8,
            if (dest >>> 24) &&& 1 = 1 then 0xFF else 0]
          x86Loop start limit fuel b (i + 5) 0 pc
        else
          let mask := (mask ||| 1) ||| (if shortTop top then 0x10 else 0)
          x86Loop start limit fuel b (i + 1) mask pc

def undoX86 (start : UInt32) (b : ByteArray) : ByteArray × Nat :=
  if b.size < 5 then (b, 0) else x86Loop start (b.size - 5) b.size b 0 0 (start - 5)

def powerPcUnit (start : UInt32) (b : ByteArray) (i : Nat) : ByteArray :=
  if byteAt b i >>> 2 = 0x12 && byteAt b (i + 3) &&& 3 = 1 then
    let src := wordBE b i &&& 0x03FFFFFC
    let dest := src - (start + i.toUInt32)
    put b i [(0x48 : UInt8) ||| ((dest >>> 24) &&& 3).toUInt8, (dest >>> 16).toUInt8,
      (dest >>> 8).toUInt8, (byteAt b (i + 3) &&& 3) ||| dest.toUInt8]
  else b

def armUnit (start : UInt32) (b : ByteArray) (i : Nat) : ByteArray :=
  if byteAt b (i + 3) = 0xEB then
    let src := (wordLE b i &&& 0xFFFFFF) <<< 2
    let dest := (src - (start + i.toUInt32 + 8)) >>> 2
    put b i [dest.toUInt8, (dest >>> 8).toUInt8, (dest >>> 16).toUInt8]
  else b

/-- Undoes the ARM Thumb filter from position `i`, two bytes at a time; a branch with link takes
four. How far it got. -/
def armThumbLoop (start : UInt32) : Nat → ByteArray → Nat → ByteArray × Nat
  | 0, b, i => (b, i)
  | fuel + 1, b, i =>
    if b.size < i + 4 then (b, i)
    else if byteAt b (i + 1) &&& 0xF8 = 0xF0 && byteAt b (i + 3) &&& 0xF8 = 0xF8 then
      let src : UInt32 := ((((byteAt b (i + 1)).toUInt32 &&& 7) <<< 19) |||
        ((byteAt b i).toUInt32 <<< 11) ||| (((byteAt b (i + 3)).toUInt32 &&& 7) <<< 8) |||
        (byteAt b (i + 2)).toUInt32) <<< 1
      let dest := (src - (start + i.toUInt32 + 4)) >>> 1
      let b := put b i [(dest >>> 11).toUInt8, (0xF0 : UInt8) ||| ((dest >>> 19) &&& 7).toUInt8,
        dest.toUInt8, (0xF8 : UInt8) ||| ((dest >>> 8) &&& 7).toUInt8]
      armThumbLoop start fuel b (i + 4)
    else armThumbLoop start fuel b (i + 2)

def sparcUnit (start : UInt32) (b : ByteArray) (i : Nat) : ByteArray :=
  let b0 := byteAt b i
  let b1 := byteAt b (i + 1)
  if (b0 = 0x40 && b1 &&& 0xC0 = 0) || (b0 = 0x7F && b1 &&& 0xC0 = 0xC0) then
    let src := wordBE b i <<< 2
    let dest := (src - (start + i.toUInt32)) >>> 2
    let dest := ((((0 : UInt32) - ((dest >>> 22) &&& 1)) <<< 22) &&& 0x3FFFFFFF) ||| (dest &&& 0x3FFFFF) |||
      0x40000000
    putBE b i dest
  else b

def ia64Slots : List Nat :=
  [0, 0, 0, 0, 0, 0, 0, 0, 0, 0, 0, 0, 0, 0, 0, 0, 4, 4, 6, 6, 0, 0, 7, 7, 4, 4, 0, 0, 4, 4, 0, 0]

/-- Undoes the IA-64 filter on a bundle of sixteen bytes: each branch slot's instruction of 41
bits, starting at bit `5 + 41 * slot`, whose opcode is 5 and whose bits 9 to 11 are zero, has its
21-bit target turned back. -/
def ia64Unit (start : UInt32) (b : ByteArray) (i : Nat) : ByteArray :=
  let slots := ia64Slots.getD (byteAt b i &&& 0x1F).toNat 0
  (List.range 3).foldl (fun b slot =>
    if slots / Nat.pow 2 slot % 2 = 0 then b
    else
      let bitPos := 5 + 41 * slot
      let base := i + bitPos / 8
      let shift := bitPos % 8
      let instruction := (List.range 6).foldl
        (fun acc j => acc + (byteAt b (base + j)).toNat * Nat.pow 256 j) 0
      let norm := instruction / Nat.pow 2 shift
      if norm / Nat.pow 2 37 % 16 = 5 && norm / Nat.pow 2 9 % 8 = 0 then
        let target := norm / Nat.pow 2 13 % Nat.pow 2 20 + norm / Nat.pow 2 36 % 2 * Nat.pow 2 20
        let src : UInt32 := target.toUInt32 <<< (4 : UInt32)
        let dest := ((src - (start + i.toUInt32)) >>> 4).toNat
        let cleared := norm - (norm / Nat.pow 2 13 % Nat.pow 2 20) * Nat.pow 2 13 - (norm / Nat.pow 2 36 % 2) * Nat.pow 2 36
        let norm := cleared + (dest % Nat.pow 2 20) * Nat.pow 2 13 + (dest / Nat.pow 2 20 % 2) * Nat.pow 2 36
        let instruction := instruction % Nat.pow 2 shift + norm * Nat.pow 2 shift
        put b base ((List.range 6).map fun j => (instruction / Nat.pow 256 j % 256).toUInt8)
      else b) b

/-- Undoes the ARM64 filter on a unit: a branch with link has its 26-bit target turned back, and
a page address within 512 MiB its page. -/
def arm64Unit (start : UInt32) (b : ByteArray) (i : Nat) : ByteArray :=
  let pc := start + i.toUInt32
  let instr := wordLE b i
  if instr >>> 26 = 0x25 then
    putLE b i ((0x94000000 : UInt32) ||| ((instr + ((0 : UInt32) - (pc >>> 2))) &&& 0x03FFFFFF))
  else if instr &&& 0x9F000000 = 0x90000000 then
    let low : UInt32 := (instr >>> (29 : UInt32)) &&& (3 : UInt32)
    let high : UInt32 := (instr >>> (3 : UInt32)) &&& (0x001FFFFC : UInt32)
    let src := low ||| high
    if (src + 0x00020000) &&& 0x001C0000 ≠ 0 then b
    else
      let dest : UInt32 := src + ((0 : UInt32) - (pc >>> 12))
      let kept : UInt32 := instr &&& (0x9000001F : UInt32)
      let lowBits : UInt32 := (dest &&& (3 : UInt32)) <<< (29 : UInt32)
      let highBits : UInt32 := (dest &&& (0x0003FFFC : UInt32)) <<< (3 : UInt32)
      let sign : UInt32 := ((0 : UInt32) - (dest &&& (0x00020000 : UInt32))) &&& (0x00E00000 : UInt32)
      putLE b i (kept ||| lowBits ||| highBits ||| sign)
  else b

def undo : Filter → ByteArray → ByteArray × Nat
  | .delta distance, b => (undoDelta distance b, b.size)
  | .x86 start, b => undoX86 start b
  | .powerPc start, b => units 4 4 (powerPcUnit start) b
  | .ia64 start, b => units 16 16 (ia64Unit start) b
  | .arm start, b => units 4 4 (armUnit start) b
  | .armThumb start, b => armThumbLoop start b.size b 0
  | .sparc start, b => units 4 4 (sparcUnit start) b
  | .arm64 start, b => units 4 4 (arm64Unit start) b

def pass (f : Filter) (b : ByteArray) (final : Bool) : ByteArray :=
  let (out, seen) := f.undo b
  if final then out else out.extract 0 seen

end Filter

/-- Undoes a chain of filters, given in the order they were applied, on decompressed data: the last
applied is undone first. Data not yet at its end passes each filter only as far as it converts. -/
def undoFilters (chain : List Filter) (b : ByteArray) (final : Bool) : ByteArray :=
  chain.foldr (fun f b => f.pass b final) b

example : undoFilters [.delta 1] ⟨#[1, 1, 1]⟩ true = ⟨#[1, 2, 3]⟩ := by decide +kernel

end Reckon.Archive
