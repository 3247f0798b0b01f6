import Mathlib
import Reckon.Batch

set_option autoImplicit false

/-!
# What a worker sends its server

A worker sends its outcome through its pipe as a four-byte length and a record pickled with
protocol 4: opcodes cut into frames of 64 KiB with nine-byte headers, texts of 64 KiB or more
outside any frame, and a memo note after each text. What the pool needs of it is its size
(`Payload.wireSize`), since a pipe holds only so many bytes before its writer waits, and that the
size exceeds the expression's bytes (`utf8ByteSize_lt_wireSize`).
-/

namespace Reckon

/-- What a worker sends: its line, its expression, and the value or the error's text. -/
structure Payload where
  line : Nat
  expression : String
  result : Except String Float

namespace Payload

def ofOutcome (o : Outcome) : Payload :=
  ⟨o.line, o.expression, match o.result with
    | .ok x => .ok x
    | .error e => .error (e.message o.expression)⟩

/-- A piece of the serialised stream: bytes written into the open frame, the point before an
object, where a frame that holds 64 KiB is closed, or bytes written outside any frame. -/
inductive Piece where
  | framed (n : Nat)
  | boundary
  | unframed (n : Nat)

def Piece.bytes : Piece → Nat
  | .framed n => n
  | .boundary => 0
  | .unframed n => n

def frameTarget : Nat := 65536

def closed (n : Nat) : Nat := if 4 ≤ n then n + 9 else n

/-- The size of a stream whose pieces are `ps`, when `out` bytes are already written and the
open frame holds `frame` bytes. -/
def streamSize : List Piece → Nat → Nat → Nat
  | [], out, frame => out + closed frame
  | .framed n :: ps, out, frame => streamSize ps out (frame + n)
  | .boundary :: ps, out, frame =>
    if frameTarget ≤ frame then streamSize ps (out + closed frame) 0
    else streamSize ps out frame
  | .unframed n :: ps, out, frame => streamSize ps (out + closed frame + n) 0

/-- A text: its UTF-8 bytes behind an opcode and a length of one, four or eight bytes, then its
note. A text of 64 KiB or more goes outside the frames. -/
def textPieces (s : String) : List Piece :=
  let n := s.utf8ByteSize
  let body : Piece :=
    if n < 256 then .framed (2 + n)
    else if n < frameTarget then .framed (5 + n)
    else if n < 2 ^ 32 then .unframed (5 + n)
    else .unframed (9 + n)
  [.boundary, body, .framed 1]

/-- A whole number: one, two or four bytes behind its opcode while it fits them, else its bytes
in two's complement behind a length of one or four bytes. -/
def wholePieces (n : Nat) : List Piece :=
  let width := (Nat.log2 n + 1) / 8 + 1
  let body :=
    if n < 256 then 2
    else if n < 65536 then 3
    else if n < 2 ^ 31 then 5
    else if width < 256 then 2 + width
    else 5 + width
  [.boundary, .framed body]

/-- The record: an empty mapping, its note and a mark, then the three keys and their values,
then the opcodes that set the items and stop. -/
def pieces (p : Payload) : List Piece :=
  [.boundary, .framed 3] ++ textPieces "line" ++ wholePieces p.line ++
    textPieces "expression" ++ textPieces p.expression ++
    (match p.result with
      | .ok _ => textPieces "result" ++ [.boundary, .framed 9]
      | .error e => textPieces "error" ++ textPieces e) ++
    [.framed 2]

/-- The bytes the worker writes into its pipe: the length of the serialised record, in four
bytes, or in twelve for a record of 2 GiB or more, then the record. -/
def wireSize (p : Payload) : Nat :=
  let n := 2 + streamSize p.pieces 0 0
  if n < 2 ^ 31 then 4 + n else 12 + n

example : wireSize ⟨1, "1 + 1", .ok 2⟩ = 68 := by decide
example : wireSize ⟨1, "x", .error "'x'"⟩ = 60 := by decide

theorem le_closed (n : Nat) : n ≤ closed n := by
  unfold closed
  split <;> omega

theorem le_streamSize (ps : List Piece) (out frame : Nat) :
    out + frame + (ps.map Piece.bytes).sum ≤ streamSize ps out frame := by
  induction ps generalizing out frame with
  | nil => simpa [streamSize] using le_closed frame
  | cons p ps ih =>
    cases p with
    | framed n =>
      have := ih out (frame + n)
      simp only [streamSize, List.map_cons, List.sum_cons, Piece.bytes]
      omega
    | boundary =>
      simp only [streamSize, List.map_cons, List.sum_cons, Piece.bytes]
      split
      · have := ih (out + closed frame) 0
        have := le_closed frame
        omega
      · have := ih out frame
        omega
    | unframed n =>
      have := ih (out + closed frame + n) 0
      have := le_closed frame
      simp only [streamSize, List.map_cons, List.sum_cons, Piece.bytes]
      omega

theorem utf8ByteSize_le_textPieces (s : String) :
    s.utf8ByteSize ≤ ((textPieces s).map Piece.bytes).sum := by
  simp only [textPieces, List.map_cons, List.map_nil, List.sum_cons, List.sum_nil]
  repeat' split
  all_goals simp only [Piece.bytes]; omega

theorem utf8ByteSize_lt_wireSize (p : Payload) : p.expression.utf8ByteSize < p.wireSize := by
  have hsum : p.expression.utf8ByteSize ≤ (p.pieces.map Piece.bytes).sum := by
    have := utf8ByteSize_le_textPieces p.expression
    simp only [pieces, List.map_append, List.sum_append]
    omega
  have := le_streamSize p.pieces 0 0
  unfold wireSize
  dsimp only
  split <;> omega

end Payload

end Reckon
