set_option autoImplicit false

/-!
# Binary64 values from their bits, and exact rounding into them

A double is a sign bit, an exponent field of eleven bits and a fraction field of fifty-two. A finite
one stands for `m * 2^q`, read off its fields by `Magnitude.ofBits`. `roundQuotient` goes the other
way: it finds the double nearest to a quotient of natural numbers by exact integer division, a tie
going to the even significand and what lies beyond the largest double to infinity.
-/

namespace Reckon.Binary64

def exponentField (b : UInt64) : Nat := ((b >>> 52) &&& 0x7FF).toNat

def fractionField (b : UInt64) : Nat := (b &&& 0xFFFFFFFFFFFFF).toNat

def signBit (b : UInt64) : Bool := b >>> 63 == 1

def isNaNBits (b : UInt64) : Bool := exponentField b == 0x7FF && fractionField b != 0

def isInfiniteBits (b : UInt64) : Bool := exponentField b == 0x7FF && fractionField b == 0

def infinityBits : UInt64 := 0x7FF0000000000000

structure Magnitude where
  m : Nat
  q : Int
  narrowBelow : Bool
deriving DecidableEq, Repr

def Magnitude.ofBits (b : UInt64) : Magnitude :=
  let e := exponentField b
  let f := fractionField b
  if e == 0 then ⟨f, -1074, false⟩ else ⟨Nat.pow 2 52 + f, (e : Int) - 1075, f == 0 && e > 1⟩

def atLeastPow2 (num den : Nat) (k : Int) : Bool :=
  den * Nat.pow 2 k.toNat ≤ num * Nat.pow 2 (-k).toNat

def floorLog2Ratio (num den : Nat) : Int :=
  let k : Int := (num.log2 : Int) - den.log2
  if atLeastPow2 num den k then k else k - 1

def roundedSignificand (num den : Nat) : Nat × Int :=
  let e : Int := max (-1074) (floorLog2Ratio num den - 52)
  let n := num * Nat.pow 2 (-e).toNat
  let d := den * Nat.pow 2 e.toNat
  let q := n / d
  let r := n % d
  let q := if 2 * r > d || (2 * r == d && q % 2 == 1) then q + 1 else q
  if q == Nat.pow 2 53 then (Nat.pow 2 52, e + 1) else (q, e)

/-- The bits of the non-negative double nearest to `num / den`, ties to the even significand;
quotients beyond the largest double give infinity. -/
def roundQuotient (num den : Nat) : UInt64 :=
  if num == 0 || den == 0 then 0
  else
    let (q, e) := roundedSignificand num den
    if e > 971 then infinityBits
    else if q < Nat.pow 2 52 then q.toUInt64
    else ((e + 1075).toNat * Nat.pow 2 52 + (q - Nat.pow 2 52)).toUInt64

def floorInt (x : Float) : Int :=
  let b := x.toBits
  if exponentField b == 0x7FF then 0
  else
    let mag := Magnitude.ofBits b
    let whole := mag.m * Nat.pow 2 mag.q.toNat / Nat.pow 2 (-mag.q).toNat
    if !signBit b then whole
    else if whole * Nat.pow 2 (-mag.q).toNat == mag.m * Nat.pow 2 mag.q.toNat then -(whole : Int)
    else -(whole : Int) - 1

example : floorInt 2.5 = 2 ∧ floorInt (-2.5) = -3 ∧ floorInt (-3.0) = -3 := by decide +kernel

example : roundQuotient 1 10 = (0.1 : Float).toBits := by decide +kernel

example : roundQuotient 3 1 = (3.0 : Float).toBits ∧ roundQuotient 1 (2 ^ 1075) = 0 ∧
    roundQuotient 3 (2 ^ 1076) = 1 := by decide +kernel

example : Magnitude.ofBits (1.0 : Float).toBits = ⟨2 ^ 52, -52, true⟩ := by decide +kernel

end Reckon.Binary64
