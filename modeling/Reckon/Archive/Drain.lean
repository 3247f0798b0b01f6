import Reckon.Archive.Inflate

set_option autoImplicit false

/-!
# Reading deflated data in windows

An entry's deflated data is read 64 KiB at a time. Each read is served by requests of at least
4 KiB to the decoder, which is handed more compressed input when it holds less than a request,
never past the stated compressed size. The reading ends when the stream ends, when the entry's
size is handed out, or when the compressed size is spent; the decoder then gives all it can,
faults ignored. Each request makes progress, so the sizes bound the steps.
-/

namespace Reckon.Archive

inductive DrainStop where
  | cut
  | fault (f : InflateFault)

structure Drain where
  fed : Nat := 0
  used : Nat := 0
  made : Nat := 0
  given : Nat := 0
  ended : Bool := false

namespace Drain

def leastRequest : Nat := 4096

def copyWindow : Nat := 65536

/-- One request for `n` bytes, over the compressed bytes `packed` that the file holds of the
stated `compressed` size, for an entry of `size` bytes: how many bytes it hands out, and how far
reading has gone. -/
def request (packed : ByteArray) (compressed size n : Nat) (d : Drain) :
    Except DrainStop (Nat × Drain) := do
  if d.ended || n = 0 then return (0, d)
  let fed ←
    if d.fed - d.used < n && d.fed < compressed then
      let want := min (max (n - (d.fed - d.used)) leastRequest) (compressed - d.fed)
      let got := min want (packed.size - d.fed)
      if got = 0 then throw DrainStop.cut else pure (d.fed + got)
    else pure d.fed
  let input := packed.extract 0 fed
  let drained := compressed ≤ fed
  let (made, used, ended) ← match inflateUpTo (d.made + max n leastRequest) input with
    | .fault f _ => throw (DrainStop.fault f)
    | .complete out => pure (out.size, fed, true)
    | .cut out => pure (out.size, fed, drained)
    | .full out used =>
      if drained && used = fed then pure ((inflate input).out.size, fed, true)
      else pure (out.size, used, false)
  let given := min (made - d.made) (size - d.given)
  pure (given, ⟨fed, used, made, d.given + given, ended || d.given + given = size⟩)

/-- The copy from a read that still wants `n` bytes and has got `count`, with `kept` bytes kept
from a request: requests while the read wants more and reading goes on, then a new read of a
whole window, served first from the kept bytes, until a read gets nothing. -/
def copy (packed : ByteArray) (compressed size : Nat) :
    Nat → Nat → Nat → Nat → Drain → Except DrainStop Drain
  | 0, _, _, _, d => .ok d
  | fuel + 1, n, count, kept, d =>
    if 0 < n && !d.ended then
      match request packed compressed size n d with
      | .error e => .error e
      | .ok (got, d) =>
        if n < got then copy packed compressed size fuel 0 (count + n) (got - n) d
        else copy packed compressed size fuel (n - got) (count + got) kept d
    else if count = 0 then .ok d
    else if copyWindow < kept then
      copy packed compressed size fuel 0 copyWindow (kept - copyWindow) d
    else copy packed compressed size fuel (copyWindow - kept) kept 0 d

end Drain

/-- The bytes a copy reads from deflated data: the compressed bytes `packed` that the file holds
of the stated `compressed` size, for an entry of `size` bytes. -/
def drainDeflated (packed : ByteArray) (compressed size : Nat) : Except DrainStop ByteArray := do
  let d ← Drain.copy packed compressed size (3 * (packed.size + size) + 8) Drain.copyWindow 0 0 {}
  pure ((inflateUpTo d.given (packed.extract 0 d.fed)).out.extract 0 d.given)

end Reckon.Archive
