set_option autoImplicit false

/-!
# Reading a compressed stream

A compressed stream is read through two layers. The `Source` takes the input in pieces of 8 KiB as
it needs them and serves the bytes they decode to; a seek forwards reads on, a seek backwards
starts again. Once a stream ends, a new one starts on the input left over, and a fault in its
first decoding marks trailing bytes: the reading ends quietly. `Buffered` keeps a buffer of 8 KiB
over the source, reads whole windows straight through, and moves within the buffer on a short
seek. A fault shows to a read once the read asks for as many bytes as the fault's reach.
-/

namespace Reckon.Archive

inductive StreamFault where
  | format
  | options
  | corrupt
deriving DecidableEq, Repr

def StreamFault.message : StreamFault → String
  | .format => "Input format not supported by decoder"
  | .options => "Invalid or unsupported options"
  | .corrupt => "Corrupt input data"

inductive StreamStop where
  | cut
  | broken (f : StreamFault)
deriving DecidableEq, Repr

def StreamStop.message : StreamStop → String
  | .cut => "Compressed file ended before the end-of-stream marker was reached"
  | .broken f => f.message

inductive Ending where
  | complete (used : Nat)
  | cut
  | broken (f : StreamFault) (reach : Nat)
deriving DecidableEq, Repr

def StreamStop.endingAt (reach : Nat) : StreamStop → Ending
  | .cut => .cut
  | .broken f => .broken f reach

def Ending.after (n : Nat) : Ending → Ending
  | .broken f r => .broken f (n + r)
  | e => e

def Ending.metBy (want : Nat) : Ending → Option StreamStop
  | .broken f r => if r ≤ want then some (.broken f) else none
  | _ => none

structure Unpacked where
  bytes : ByteArray
  ending : Ending

def pieceSize : Nat := 8192

def bufferSize : Nat := 8192

structure Source where
  decode : ByteArray → Unpacked
  input : ByteArray
  first : Nat
  fed : Nat
  decoded : Unpacked
  given : Nat
  pos : Nat
  atEnd : Bool

namespace Source

def start (decode : ByteArray → Unpacked) (input : ByteArray) : Source :=
  ⟨decode, input, 0, 0, decode ByteArray.empty, 0, 0, false⟩

def feed (s : Source) : Source :=
  let fed := min (s.fed + pieceSize) s.input.size
  { s with fed, decoded := s.decode (s.input.extract s.first fed) }

/-- Serves the current stream's bytes from where it stands, up to `want` of them. -/
def serve (s : Source) (want : Nat) : ByteArray × Source :=
  let stop := min want s.decoded.bytes.size
  let data := s.decoded.bytes.extract s.given stop
  (data, { s with given := stop, pos := s.pos + data.size })

/-- Reads up to `size` bytes, for `0 < size`: the bytes decoded from the read position, up to
`size` of them, taking more pieces, or moving on to the next stream, while none are there;
nothing at the end of the input. -/
def read (size : Nat) (s : Source) : Except StreamStop (ByteArray × Source) :=
  go (2 * s.input.size + 2) s
where
  go : Nat → Source → Except StreamStop (ByteArray × Source)
    | 0, _ => .error .cut
    | fuel + 1, s =>
      let u := s.decoded
      let want := s.given + size
      if s.atEnd then .ok (ByteArray.empty, s)
      else if s.given < u.bytes.size then
        match u.ending.metBy want with
        | some e => .error e
        | none => .ok (s.serve want)
      else
        match u.ending with
        | .complete used =>
          -- the next stream, on the input left over, or on the next piece
          let next := s.first + used
          let fed := if next < s.fed then s.fed else min (s.fed + pieceSize) s.input.size
          if fed ≤ next then .ok (ByteArray.empty, { s with atEnd := true })
          else
            let t := { s with first := next, fed, decoded := s.decode (s.input.extract next fed),
                              given := 0 }
            match t.decoded.ending.metBy size with
            | some _ => .ok (ByteArray.empty, { t with atEnd := true })
            | none =>
              if 0 < t.decoded.bytes.size then .ok (t.serve size) else go fuel t
        | _ =>
          match u.ending.metBy want with
          | some e => .error e
          | none => if s.fed < s.input.size then go fuel s.feed else .error .cut

/-- Moves to `target`: backwards by starting again from the first piece, forwards by reading
and dropping up to 8 KiB at a time, stopping early at the end of the stream. -/
def seek (target : Int) (s : Source) : Except StreamStop Source :=
  let s := if target < s.pos then start s.decode s.input else s
  skip (target.toNat - s.pos + 1) s
where
  skip : Nat → Source → Except StreamStop Source
    | 0, s => .ok s
    | fuel + 1, s =>
      if target.toNat ≤ s.pos then .ok s
      else
        match s.read (min bufferSize (target.toNat - s.pos)) with
        | .error e => .error e
        | .ok (data, s) => if data.size = 0 then .ok s else skip fuel s

end Source

/-- The upper layer: a buffer over a source, and the read position inside it. The buffer holds
the bytes just before the source's position. -/
structure Buffered where
  source : Source
  buffer : ByteArray
  cursor : Nat

namespace Buffered

def start (decode : ByteArray → Unpacked) (input : ByteArray) : Buffered :=
  ⟨Source.start decode input, ByteArray.empty, 0⟩

def ahead (b : Buffered) : Nat := b.buffer.size - b.cursor

def tell (b : Buffered) : Nat := b.source.pos - b.ahead

/-- Reads whole windows straight from the source while `remaining` covers one: the bytes read
after `acc`, the source, and whether the stream went on. `fuel` bounds the reads. -/
def direct : Nat → Nat → Source → ByteArray → Except StreamStop (ByteArray × Source × Bool)
  | 0, _, s, acc => .ok (acc, s, true)
  | fuel + 1, remaining, s, acc =>
    let whole := remaining / bufferSize * bufferSize
    if whole = 0 then .ok (acc, s, true)
    else
      match s.read whole with
      | .error e => .error e
      | .ok (data, s) =>
        if data.size = 0 then .ok (acc, s, false)
        else direct fuel (remaining - data.size) s (acc ++ data)

/-- Refills the buffer from the source while `remaining` bytes are still wanted and the buffer
has room, taking the wanted bytes after `acc`. `fuel` bounds the reads. -/
def fill : Nat → Nat → Buffered → ByteArray → Except StreamStop (ByteArray × Buffered)
  | 0, _, b, acc => .ok (acc, b)
  | fuel + 1, remaining, b, acc =>
    if remaining = 0 || bufferSize ≤ b.buffer.size then .ok (acc, b)
    else
      match b.source.read (bufferSize - b.buffer.size) with
      | .error e => .error e
      | .ok (data, s) =>
        if data.size = 0 then .ok (acc, { b with source := s })
        else
          let take := min remaining data.size
          fill fuel (remaining - take) ⟨s, b.buffer ++ data, b.cursor + take⟩
            (acc ++ data.extract 0 take)

/-- Reads up to `n` bytes: from the buffer when it holds enough, else what it holds, then whole
windows from the source, then the rest through a refilled buffer. Fewer come only at the end of
the stream. -/
def read (n : Nat) (b : Buffered) : Except StreamStop (ByteArray × Buffered) :=
  if n ≤ b.ahead then .ok (b.buffer.extract b.cursor (b.cursor + n), { b with cursor := b.cursor + n })
  else
    match direct (n + 1) (n - b.ahead) b.source (b.buffer.extract b.cursor b.buffer.size) with
    | .error e => .error e
    | .ok (out, s, false) => .ok (out, ⟨s, ByteArray.empty, 0⟩)
    | .ok (out, s, true) => fill (n + 1) (n - out.size) ⟨s, ByteArray.empty, 0⟩ out

/-- Moves the read position to `target`: inside the buffer when it has bytes ahead and the
target lies within it, else through the source, emptying the buffer. -/
def seek (target : Int) (b : Buffered) : Except StreamStop Buffered :=
  let first := b.source.pos - b.buffer.size
  if 0 < b.ahead && (first : Int) ≤ target && target ≤ b.source.pos then
    .ok { b with cursor := (target - first).toNat }
  else (b.source.seek target).map fun s => ⟨s, ByteArray.empty, 0⟩

end Buffered

/-- Reading through a buffered reader, failing with `ε`. A failure leaves the reader as it stood,
so reading can go on after a failure that is caught. -/
abbrev Reading (ε : Type) := ExceptT ε (StateM Buffered)

namespace Reading

def read (n : Nat) : Reading StreamStop ByteArray := do
  match (← get).read n with
  | .ok (bytes, r) => set r; pure bytes
  | .error e => throw e

def seek (target : Int) : Reading StreamStop Unit := do
  match (← get).seek target with
  | .ok r => set r
  | .error e => throw e

def tell {ε : Type} : Reading ε Nat := do pure (← get).tell

end Reading

end Reckon.Archive
