import Reckon.Text.Quoted

set_option autoImplicit false

/-!
# Strict UTF-8 decoding

Bytes decode to text only when they are well-formed UTF-8: no overlong form, no surrogate, nothing
above U+10FFFF. Decoding stops at the first fault and reports it by the offset of the first byte
that cannot start or continue a character, and by the longest run of bytes that still begins a
well-formed character there (its maximal subpart). A sequence cut off by the end of the input
reports everything from its first byte to the end.
-/

namespace Reckon.Text

inductive Utf8Fault where
  | invalidStart
  | invalidContinuation
  | truncated
deriving DecidableEq, Repr

structure Utf8Error where
  fault : Utf8Fault
  offset : Nat
  span : Nat
  byte : UInt8
deriving DecidableEq, Repr

def Utf8Fault.reason : Utf8Fault → String
  | .invalidStart => "invalid start byte"
  | .invalidContinuation => "invalid continuation byte"
  | .truncated => "unexpected end of data"

def Utf8Error.message (e : Utf8Error) : String :=
  if e.span ≤ 1 then
    "'utf-8' codec can't decode byte 0x" ++ String.ofList (hexDigits 2 e.byte.toNat) ++
      " in position " ++ toString e.offset ++ ": " ++ e.fault.reason
  else
    "'utf-8' codec can't decode bytes in position " ++ toString e.offset ++ "-" ++
      toString (e.offset + e.span - 1) ++ ": " ++ e.fault.reason

def isContinuation (b : UInt8) : Bool := b &&& 0xC0 == 0x80

def low6 (b : UInt8) : Nat := (b &&& 0x3F).toNat

/-- Whether a second byte may follow a three-byte lead: not overlong after `E0`, no surrogate
after `ED`. -/
def secondOfThree (lead b : UInt8) : Bool :=
  isContinuation b && !(lead == 0xE0 && b < 0xA0) && !(lead == 0xED && 0xA0 ≤ b)

/-- Whether a second byte may follow a four-byte lead: not overlong after `F0`, not beyond
U+10FFFF after `F4`. -/
def secondOfFour (lead b : UInt8) : Bool :=
  isContinuation b && !(lead == 0xF0 && b < 0x90) && !(lead == 0xF4 && 0x90 ≤ b)

def decodeFrom (pos : Nat) : List UInt8 → Except Utf8Error (List Char)
  | [] => .ok []
  | b :: rest =>
    let fail (fault : Utf8Fault) (span : Nat) : Except Utf8Error (List Char) :=
      .error ⟨fault, pos, span, b⟩
    if b < 0x80 then
      (decodeFrom (pos + 1) rest).map (Char.ofNat b.toNat :: ·)
    else if b < 0xC2 then fail .invalidStart 1
    else if b < 0xE0 then
      match rest with
      | [] => fail .truncated 1
      | c :: r =>
        if isContinuation c then
          (decodeFrom (pos + 2) r).map
            (Char.ofNat ((b &&& 0x1F).toNat * 64 + low6 c) :: ·)
        else fail .invalidContinuation 1
    else if b < 0xF0 then
      match rest with
      | [] => fail .truncated 1
      | c :: r =>
        if !secondOfThree b c then fail .invalidContinuation 1
        else
          match r with
          | [] => fail .truncated 2
          | d :: r' =>
            if isContinuation d then
              (decodeFrom (pos + 3) r').map
                (Char.ofNat ((b &&& 0x0F).toNat * 4096 + low6 c * 64 + low6 d) :: ·)
            else fail .invalidContinuation 2
    else if b < 0xF5 then
      match rest with
      | [] => fail .truncated 1
      | c :: r =>
        if !secondOfFour b c then fail .invalidContinuation 1
        else
          match r with
          | [] => fail .truncated 2
          | d :: r' =>
            if !isContinuation d then fail .invalidContinuation 2
            else
              match r' with
              | [] => fail .truncated 3
              | e :: r'' =>
                if isContinuation e then
                  (decodeFrom (pos + 4) r'').map
                    (Char.ofNat ((b &&& 0x07).toNat * 262144 + low6 c * 4096 + low6 d * 64 +
                      low6 e) :: ·)
                else fail .invalidContinuation 3
    else fail .invalidStart 1

/-- The text that well-formed UTF-8 bytes stand for. -/
def decodeUtf8 (bytes : ByteArray) : Except Utf8Error String :=
  (decodeFrom 0 bytes.toList).map String.ofList

example : (decodeUtf8 ⟨#[0x31, 0xC3, 0xA9]⟩).toOption = some "1é" := by decide +kernel

example : (match decodeFrom 0 [0x31, 0xFF] with | .error e => some e | .ok _ => none) =
    some ⟨.invalidStart, 1, 1, 0xFF⟩ := by decide

example : (match decodeFrom 0 [0xE2, 0x82] with | .error e => some e | .ok _ => none) =
    some ⟨.truncated, 0, 2, 0xE2⟩ := by decide

end Reckon.Text
