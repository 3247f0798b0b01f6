import Reckon.Decimal.Shortest

set_option autoImplicit false

/-!
# Writing a double

A double is written by its shortest decimal (`Decimal.shortest`), laid out by a `Layout`: a leading
digit whose power of ten lies in a window is written positionally, with `.0` after an integer;
outside it the digits take a point after the first one and an exponent with its sign and at least a
fixed number of digits. Zero keeps its sign, the infinities are `inf` and `-inf`, and every value
that is not a number is `nan`.
-/

namespace Reckon
open Binary64

structure Layout where
  plainFrom : Int
  plainBelow : Int
  exponentWidth : Nat
deriving DecidableEq, Repr

namespace Layout

/-- Results are written positionally from `0.0001` up to below `10^16`, and otherwise with an
exponent of at least two digits: `1e-05`, `1e+16`. -/
def results : Layout := ⟨-4, 16, 2⟩

def zeros (n : Nat) : List Char := List.replicate n '0'

def render (l : Layout) (d : Decimal) : String :=
  let ds := Nat.toDigits 10 d.digits
  let lead : Int := d.exp + ds.length - 1
  if l.plainFrom ≤ lead ∧ lead < l.plainBelow then
    if 0 ≤ d.exp then String.ofList (ds ++ zeros d.exp.toNat) ++ ".0"
    else if 0 ≤ lead then
      String.ofList (ds.take (lead.toNat + 1) ++ '.' :: ds.drop (lead.toNat + 1))
    else "0." ++ String.ofList (zeros (-lead - 1).toNat ++ ds)
  else
    let mantissa := match ds with
      | [] => ""
      | [c] => String.singleton c
      | c :: rest => String.ofList (c :: '.' :: rest)
    let exponent := Nat.toDigits 10 lead.natAbs
    mantissa ++ (if lead < 0 then "e-" else "e+") ++
      String.ofList (zeros (l.exponentWidth - exponent.length) ++ exponent)

def showFloat (l : Layout) (x : Float) : String :=
  let b := x.toBits
  if isNaNBits b then "nan"
  else
    let sign := if signBit b then "-" else ""
    let mag := Magnitude.ofBits b
    if isInfiniteBits b then sign ++ "inf"
    else if mag.m = 0 then sign ++ "0.0"
    else sign ++ l.render (Decimal.shortest mag)

end Layout

/-- The text of a computed number, as results show it. -/
def numberText (x : Float) : String := Layout.results.showFloat x

example : numberText 5.0 = "5.0" ∧ numberText (-0.0) = "-0.0" ∧ numberText 0.0001 = "0.0001" ∧
    numberText 1e16 = "1e+16" ∧ numberText 0.00001 = "1e-05" := by decide +kernel

example : numberText 123.456 = "123.456" ∧ numberText 1.5e300 = "1.5e+300" := by decide +kernel

end Reckon
