set_option autoImplicit false

/-!
# LZMA

LZMA codes a byte stream as literals and matches with an adaptive binary range coder; a small
state machine selects the probabilities, which live in one array, each model at its own offset.
LZMA2 wraps it in chunks, stored or compressed, that may reset the dictionary, the state or the
parameters `lc`, `lp`, `pb`. Each fault is given with its *reach*, the length of output a reader
must ask for to meet it: a fault inside a symbol reaches one byte past the output before it.
-/

namespace Reckon.Archive

inductive LzmaFault where
  | truncated
  | corrupt
  | badOptions
deriving DecidableEq, Repr

namespace Lzma

def isMatchAt : Nat := 0
def isRepAt : Nat := 192
def isRepG0At : Nat := 204
def isRepG1At : Nat := 216
def isRepG2At : Nat := 228
def isRep0LongAt : Nat := 240
def posSlotAt : Nat := 432
def specPosAt : Nat := 688
def alignAt : Nat := 802
def lenAt : Nat := 818
def repLenAt : Nat := 1332
def literalAt : Nat := 1846

structure Props where
  lc : Nat
  lp : Nat
  pb : Nat
deriving DecidableEq, Repr

def Props.ofByte (b : Nat) : Option Props :=
  if b < 225 then some ⟨b % 9, b / 9 % 5, b / 45⟩ else none

/-- The decoder: the input and its range coder, the probabilities, the last four distances, the
state, the output with the position where the dictionary starts, and the most bytes the dictionary
holds. Input from `limit` on belongs to what follows the current chunk. -/
structure Decoder where
  input : ByteArray
  pos : Nat
  limit : Nat
  range : Nat
  code : Nat
  probs : Array Nat
  reps : Nat × Nat × Nat × Nat
  state : Nat
  props : Props
  out : ByteArray
  dictStart : Nat
  window : Nat

def freshProbs (p : Props) : Array Nat := Array.replicate (literalAt + 0x300 * Nat.pow 2 (p.lc + p.lp)) 1024

/-- Starts the range coder at an input position: a zero byte, then four bytes of code. A first
byte other than zero is a fault as soon as it is there, and so is a byte of code past the limit. -/
def Decoder.startCoder (d : Decoder) (start : Nat) : Except LzmaFault Decoder :=
  match d.input[start]? with
  | some b0 =>
    if b0 != 0 then .error .corrupt
    else if d.limit < min (start + 5) d.input.size then .error .corrupt
    else if d.input.size < start + 5 then .error .truncated
    else
      let code := (List.range 4).foldl (fun c k => c * 256 + (d.input[start + 1 + k]?.getD 0).toNat) 0
      .ok { d with pos := start + 5, range := 0xFFFFFFFF, code }
  | none => .error .truncated

def Decoder.resetState (d : Decoder) : Decoder :=
  { d with probs := freshProbs d.props, reps := (0, 0, 0, 0), state := 0 }

/-- Takes in one more byte when the range has shrunk below 2^24; a byte past the limit is a
fault. -/
def Decoder.normalize (d : Decoder) : Except LzmaFault Decoder :=
  if d.range < 0x1000000 then
    match d.input[d.pos]? with
    | some b =>
      if d.limit ≤ d.pos then .error .corrupt
      else .ok { d with range := d.range * 256, code := d.code * 256 % 0x100000000 + b.toNat,
                        pos := d.pos + 1 }
    | none => .error .truncated
  else .ok d

/-- Decodes one bit with the probability at index `i`, and learns from it. The range is brought
back to at least 2^24 before the bit, so a bit needs input only when the range has shrunk. -/
def Decoder.bit (d : Decoder) (i : Nat) : Except LzmaFault (Nat × Decoder) :=
  match d.normalize with
  | .error e => .error e
  | .ok d =>
    let p := d.probs.getD i 1024
    let bound := d.range / 2048 * p
    if d.code < bound then
      .ok (0, { d with range := bound, probs := d.probs.set! i (p + (2048 - p) / 32) })
    else
      .ok (1, { d with range := d.range - bound, code := d.code - bound,
                       probs := d.probs.set! i (p - p / 32) })

def Decoder.direct (d : Decoder) : Nat → Nat → Except LzmaFault (Nat × Decoder)
  | 0, acc => .ok (acc, d)
  | n + 1, acc =>
    match d.normalize with
    | .error e => .error e
    | .ok d =>
      let range := d.range / 2
      if d.code < range then { d with range }.direct n (2 * acc)
      else { d with range, code := d.code - range }.direct n (2 * acc + 1)

/-- Decodes an `n`-bit number through the tree of probabilities at `base`, most significant bit
first; the tree's node `m` is at `base + m`, from `m = 1`. -/
def Decoder.tree (d : Decoder) (base : Nat) : Nat → Nat → Except LzmaFault (Nat × Decoder)
  | 0, m => .ok (m, d)
  | n + 1, m =>
    match d.bit (base + m) with
    | .ok (b, d) => d.tree base n (2 * m + b)
    | .error e => .error e

def Decoder.treeValue (d : Decoder) (base n : Nat) : Except LzmaFault (Nat × Decoder) :=
  (d.tree base n 1).map fun (m, d) => (m - Nat.pow 2 n, d)

def Decoder.reverseTree (d : Decoder) (base : Nat) : Nat → Nat → Nat → Nat →
    Except LzmaFault (Nat × Decoder)
  | 0, _, _, acc => .ok (acc, d)
  | n + 1, m, k, acc =>
    match d.bit (base + m) with
    | .ok (b, d) => d.reverseTree base n (2 * m + b) (k + 1) (acc + b * Nat.pow 2 k)
    | .error e => .error e

def Decoder.length (d : Decoder) (base posState : Nat) : Except LzmaFault (Nat × Decoder) :=
  match d.bit base with
  | .error e => .error e
  | .ok (0, d) => d.treeValue (base + 2 + posState * 8) 3
  | .ok (_, d) =>
    match d.bit (base + 1) with
    | .error e => .error e
    | .ok (0, d) => (d.treeValue (base + 130 + posState * 8) 3).map fun (v, d) => (8 + v, d)
    | .ok (_, d) => (d.treeValue (base + 258) 8).map fun (v, d) => (16 + v, d)

def Decoder.distance (d : Decoder) (len : Nat) : Except LzmaFault (Nat × Decoder) :=
  match d.treeValue (posSlotAt + min len 3 * 64) 6 with
  | .error e => .error e
  | .ok (slot, d) =>
    if slot < 4 then .ok (slot, d)
    else
      let bits := slot / 2 - 1
      let dist := (2 + slot % 2) * Nat.pow 2 bits
      if slot < 14 then
        (d.reverseTree (specPosAt + dist - slot) bits 1 0 0).map fun (v, d) => (dist + v, d)
      else
        match d.direct (bits - 4) 0 with
        | .error e => .error e
        | .ok (hi, d) =>
          (d.reverseTree alignAt 4 1 0 0).map fun (lo, d) => (dist + hi * 16 + lo, d)

def Decoder.produced (d : Decoder) : Nat := d.out.size - d.dictStart

/-- The bytes the dictionary holds: all produced since it started, up to its size. A match may
reach back no further. -/
def Decoder.held (d : Decoder) : Nat := min d.produced d.window

def Decoder.back (d : Decoder) (dist : Nat) : Nat :=
  if dist < d.produced then (d.out[d.out.size - dist - 1]?.getD 0).toNat else 0

/-- Decodes a literal byte. After a match, its bits are read against the byte at the last
distance for as long as they agree with it. -/
def Decoder.literal (d : Decoder) : Except LzmaFault Decoder :=
  let prev := d.back 0
  let litState := (d.produced % Nat.pow 2 d.props.lp) * Nat.pow 2 d.props.lc + prev / Nat.pow 2 (8 - d.props.lc)
  let base := literalAt + 0x300 * litState
  let plain (d : Decoder) (m : Nat) : Except LzmaFault (Nat × Decoder) := d.tree base (8 - (m.log2)) m
  let result :=
    if d.state < 7 then plain d 1
    else
      let matchByte := d.back d.reps.1
      -- reads bits against the match byte while they agree, then plainly
      let rec matched (d : Decoder) : Nat → Nat → Except LzmaFault (Nat × Decoder)
        | 0, m => .ok (m, d)
        | k + 1, m =>
          let mb := matchByte / Nat.pow 2 k % 2
          match d.bit (base + 0x100 * (1 + mb) + m) with
          | .error e => .error e
          | .ok (b, d) => if b = mb then matched d k (2 * m + b) else plain d (2 * m + b)
      matched d 8 1
  result.map fun (m, d) =>
    let state := if d.state < 4 then 0 else if d.state < 10 then d.state - 3 else d.state - 6
    { d with out := d.out.push (m - 0x100).toUInt8, state }

def Decoder.copy (d : Decoder) (dist : Nat) : Nat → Decoder
  | 0 => d
  | k + 1 => { d with out := d.out.push (d.back dist).toUInt8 }.copy dist k

/-- What one step of decoding gave: more output, the end marker, or a match longer than the room
left, copied as far as the room goes. -/
inductive Step where
  | more (d : Decoder)
  | stop (d : Decoder)
  | overlong (d : Decoder)

def Decoder.step (d : Decoder) (room : Nat) : Except LzmaFault Step :=
  let posState := d.produced % Nat.pow 2 d.props.pb
  let s := d.state
  match d.bit (isMatchAt + s * 16 + posState) with
  | .error e => .error e
  | .ok (0, d) => d.literal.map .more
  | .ok (_, d) =>
    match d.bit (isRepAt + s) with
    | .error e => .error e
    | .ok (0, d) =>
      match d.length lenAt posState with
      | .error e => .error e
      | .ok (len, d) =>
        match d.distance len with
        | .error e => .error e
        | .ok (dist, d) =>
          if dist = 0xFFFFFFFF then .ok (.stop d)
          else if d.held ≤ dist then .error .corrupt
          else
            let (r0, r1, r2, _) := d.reps
            let d := { d with reps := (dist, r0, r1, r2), state := if s < 7 then 7 else 10 }
            if room < len + 2 then .ok (.overlong (d.copy dist room))
            else .ok (.more (d.copy dist (len + 2)))
    | .ok (_, d) =>
      if d.held = 0 then .error .corrupt
      else
        let (r0, r1, r2, r3) := d.reps
        let chosen : Except LzmaFault (Option (Nat × (Nat × Nat × Nat × Nat)) × Decoder) :=
          match d.bit (isRepG0At + s) with
          | .error e => .error e
          | .ok (0, d) =>
            match d.bit (isRep0LongAt + s * 16 + posState) with
            | .error e => .error e
            | .ok (0, d) => .ok (none, d)
            | .ok (_, d) => .ok (some (r0, (r0, r1, r2, r3)), d)
          | .ok (_, d) =>
            match d.bit (isRepG1At + s) with
            | .error e => .error e
            | .ok (0, d) => .ok (some (r1, (r1, r0, r2, r3)), d)
            | .ok (_, d) =>
              match d.bit (isRepG2At + s) with
              | .error e => .error e
              | .ok (0, d) => .ok (some (r2, (r2, r0, r1, r3)), d)
              | .ok (_, d) => .ok (some (r3, (r3, r0, r1, r2)), d)
        match chosen with
        | .error e => .error e
        | .ok (none, d) =>
          let d := { d with state := if s < 7 then 9 else 11 }
          .ok (.more (d.copy r0 1))
        | .ok (some (dist, reps), d) =>
          match d.length repLenAt posState with
          | .error e => .error e
          | .ok (len, d) =>
            if d.held ≤ dist then .error .corrupt
            else
              let d := { d with reps, state := if s < 7 then 8 else 11 }
              if room < len + 2 then .ok (.overlong (d.copy dist room))
              else .ok (.more (d.copy dist (len + 2)))

/-- Decodes until `goal` bytes are out, when there is a goal, or else to the end marker; an end
marker is a fault unless `endMarker` allows one, and then the range coder's code must end at zero.
`fuel` bounds the steps. The decoder comes back as far as it got, with the fault that stopped it
and its reach. -/
def Decoder.run (goal : Option Nat) (endMarker : Bool) :
    Nat → Decoder → Decoder × Option (LzmaFault × Nat)
  | 0, d => (d, some (.corrupt, d.out.size))
  | fuel + 1, d =>
    let room := goal.map (· - d.out.size)
    if room = some 0 then (d, none)
    else
      match d.step (room.getD 273) with
      | .error e => (d, some (e, d.out.size + 1))
      | .ok (.stop d') =>
        if !endMarker then (d, some (.corrupt, d.out.size + 1))
        else
          match d'.normalize with
          | .error e => (d', some (e, d'.out.size))
          | .ok d' => (d', if d'.code = 0 then none else some (.corrupt, d'.out.size))
      | .ok (.overlong d) => (d, some (.corrupt, d.out.size))
      | .ok (.more d) => Decoder.run goal endMarker fuel d

/-- Enough steps to decode all of an input: every step reads a bit, and the range shrinks by at
least 31/2048 with each bit, so a byte of input lasts fewer than 400 bits. -/
def stepBound (input : ByteArray) : Nat := 400 * (input.size + 2)

/-- The most bytes a dictionary of a stated size holds: the size, made at least 4096 and rounded
up to a multiple of 16. -/
def windowFor (dictionary : Nat) : Nat := (max 4096 dictionary + 15) / 16 * 16

def Decoder.fresh (input : ByteArray) (props : Props) (dictionary : Nat) : Decoder :=
  { input, pos := 0, limit := input.size, range := 0, code := 0, probs := freshProbs props,
    reps := (0, 0, 0, 0),
    state := 0, props, out := ByteArray.empty, dictStart := 0, window := windowFor dictionary }

def be16 (b : ByteArray) (i : Nat) : Option Nat := do
  let hi ← b[i]?
  let lo ← b[i + 1]?
  pure (hi.toNat * 256 + lo.toNat)

/-- The decoder ready for a compressed chunk at `p` with control byte `c`: the dictionary and the
state reset as the chunk asks, new parameters read when it brings them. Also where its data
starts. -/
def chunkStart (d : Decoder) (p c : Nat) : Except LzmaFault (Decoder × Nat) :=
  if c < 0xA0 then .ok (d, p + 5)
  else if c < 0xC0 then .ok (d.resetState, p + 5)
  else
    match d.input[p + 5]? with
    | none => .error .truncated
    | some b =>
      match Props.ofByte b.toNat with
      | some props =>
        if 4 < props.lc + props.lp then .error .corrupt
        else .ok ({ d with props }.resetState, p + 6)
      | none => .error .corrupt

/-- What the output reaching a stated size `cap` before the stream's end means: a fault there
when input is left to read, else the input is cut. -/
def Decoder.capped (d : Decoder) : Decoder × Option (LzmaFault × Nat) :=
  (d, some (if d.pos < d.input.size then .corrupt else .truncated, d.out.size))

/-- Decodes the chunks of an LZMA2 stream from `d.pos` to its end chunk, the output being at most
`cap` bytes when a size is stated; `fuel` bounds the chunks. The control byte 1, or one from 0xE0
on, resets the dictionary, and then a compressed chunk must bring new parameters (from 0xC0 on)
before any other: `needDict` and `needProps` say what is still owed. The decoder comes back as far
as it got, with the fault that stopped it and its reach. -/
def chunks (cap : Option Nat) : Nat → Bool → Bool → Decoder → Decoder × Option (LzmaFault × Nat)
  | 0, _, _, d => (d, some (.corrupt, d.out.size))
  | fuel + 1, needDict, needProps, d =>
    let p := d.pos
    let room := cap.map (· - d.out.size)
    match d.input[p]? with
    | none => (d, some (.truncated, d.out.size))
    | some c =>
      let c := c.toNat
      if c ≠ 0 && room = some 0 then (d, some (.corrupt, d.out.size)) else
      let resets := c = 1 || 0xE0 ≤ c
      let needProps := needProps || resets
      -- past a control byte that resets the dictionary, faults show one byte later
      let reach := if resets then d.out.size + 1 else d.out.size
      let d := if resets then { d with dictStart := d.out.size } else d
      if c = 0 then ({ d with pos := p + 1 }, none)
      else if needDict && !resets then (d, some (.corrupt, reach))
      else if c = 1 || c = 2 then
        match be16 d.input (p + 1) with
        | none => (d, some (.truncated, reach))
        | some n =>
          let len := min (n + 1) (room.getD (n + 1))
          let stop := p + 3 + len
          let d := { d with out := d.out ++ d.input.extract (p + 3) stop, pos := stop }
          if d.input.size < stop then (d, some (.truncated, reach))
          else if len < n + 1 then d.capped
          else chunks cap fuel false needProps d
      else if c < 0x80 || needProps && c < 0xC0 then (d, some (.corrupt, reach))
      else
        match be16 d.input (p + 1), be16 d.input (p + 3) with
        | some lo, some pk =>
          match chunkStart d p c with
          | .error e => (d, some (e, reach))
          | .ok (d, start) =>
            let stop := start + pk + 1
            match { d with limit := stop }.startCoder start with
            | .error e => (d, some (e, reach))
            | .ok d =>
              let size := (c % 32) * 65536 + lo + 1
              let goal := d.out.size + min size (room.getD size)
              match Decoder.run (some goal) false (goal + 1) d with
              | (d, some e) => (d, some e)
              | (d, none) =>
                if room.any (· < size) then d.capped
                else
                  match d.normalize with
                  | .error e => (d, some (e, d.out.size))
                  | .ok d =>
                    if d.pos != stop || d.code != 0 then (d, some (.corrupt, d.out.size))
                    else chunks cap fuel false false d
        | _, _ => (d, some (.truncated, reach))

end Lzma

/-- Decodes an LZMA2 stream that starts at `start`, with a dictionary of a stated size, to at most
`cap` bytes when a size is stated: the bytes decoded, where the decoding stopped, and the fault
that stopped it with its reach, if any. -/
def lzma2 (input : ByteArray) (start dictionary : Nat) (cap : Option Nat) :
    ByteArray × Nat × Option (LzmaFault × Nat) :=
  let (d, fault) := Lzma.chunks cap (input.size + 1) true true
    { Lzma.Decoder.fresh input ⟨0, 0, 0⟩ dictionary with pos := start }
  (d.out, d.pos, fault)

/-- Decodes raw LZMA data that starts at `start`, with the parameters `props` and a dictionary of
a stated size: to its end marker when no size is known; else to `size` bytes, where the range coder's code must end at zero, or an
end marker must follow. The bytes, where the data ended, and the fault that stopped it with its
reach, if any; a fault at the stated size reaches that size. -/
def lzmaRaw (props : Lzma.Props) (dictionary : Nat) (input : ByteArray) (start : Nat)
    (size : Option Nat) : ByteArray × Nat × Option (LzmaFault × Nat) :=
  match { Lzma.Decoder.fresh input props dictionary with pos := start }.startCoder start with
  | .error e => (ByteArray.empty, start, some (e, 0))
  | .ok d =>
    match size with
    | none =>
      let (d, fault) := Lzma.Decoder.run none true (Lzma.stepBound input) d
      (d.out, d.pos, fault)
    | some u =>
      match Lzma.Decoder.run (some u) false (Lzma.stepBound input + u) d with
      | (d, some f) => (d.out, d.pos, some f)
      | (d, none) =>
        match d.normalize with
        | .error e => (d.out, d.pos, some (e, u))
        | .ok d =>
          if d.code = 0 then (d.out, d.pos, none)
          else
            -- only an end marker may follow
            match d.step 0 with
            | .ok (.stop e) =>
              match e.normalize with
              | .ok e => (d.out, e.pos, if e.code = 0 then none else some (.corrupt, u))
              | .error f => (d.out, e.pos, some (f, u))
            | .error .truncated => (d.out, d.pos, some (.truncated, u))
            | _ => (d.out, d.pos, some (.corrupt, u))

/-- Decodes a raw LZMA stream with the parameters byte `propsByte` and a dictionary of a stated
size, to its end marker or to the end of the input: the bytes, and the fault that stopped it, if
any. -/
def lzma1 (propsByte dictionary : Nat) (input : ByteArray) : ByteArray × Option LzmaFault :=
  match Lzma.Props.ofByte propsByte with
  | none => (ByteArray.empty, some .badOptions)
  | some props =>
    if 4 < props.lc + props.lp then (ByteArray.empty, some .badOptions)
    else
      match (Lzma.Decoder.fresh input props dictionary).startCoder 0 with
      | .error e => (ByteArray.empty, some e)
      | .ok d =>
        let (d, fault) := Lzma.Decoder.run none true (Lzma.stepBound input) d
        (d.out, fault.map Prod.fst)

end Reckon.Archive
