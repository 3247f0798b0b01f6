import Reckon.Binary64

set_option autoImplicit false

/-!
# The shortest decimal that reads back

A positive double `x = m * 2^q` is read back from every real strictly inside the interval that
reaches half a step towards each neighbouring double, and from the ends too when `m` is even, since
a tie goes to the even significand. `Decimal.shortest x` is a decimal with the fewest significant
digits in that interval and, of those, the one nearest to `x`, a tie between two going to the even
last digit.

The search runs over grids `10^t` for one, two, ... seventeen significant digits. If some point of
a grid lies in the interval, one of the two grid points around `x` does, since the interval holds
`x` and has no gaps; so only those two are tested, in exact arithmetic.
-/

namespace Reckon
open Binary64

structure Decimal where
  digits : Nat
  exp : Int
deriving DecidableEq, Repr

namespace Decimal

def compareScaled (a : Nat) (i : Int) (b : Nat) (j : Int) : Ordering :=
  compare (a * Nat.pow 10 i.toNat * Nat.pow 2 (-j).toNat) (b * Nat.pow 2 j.toNat * Nat.pow 10 (-i).toNat)

/-- Whether a decimal reads back as the double of magnitude `x`: it lies within half a step of `x`
on each side, the ends included when the significand is even. Measured in quarter steps, the lower
end is two quarters below `x`, or one quarter when the next smaller double is half as far. -/
def readsBackTo (x : Magnitude) (d : Decimal) : Bool :=
  let lo := if x.narrowBelow then 4 * x.m - 1 else 4 * x.m - 2
  let hi := 4 * x.m + 2
  let belowLo := compareScaled d.digits d.exp lo (x.q - 2)
  let belowHi := compareScaled d.digits d.exp hi (x.q - 2)
  if x.m % 2 == 0 then belowLo != .lt && belowHi != .gt
  else belowLo == .gt && belowHi == .lt

/-- The power of ten of the leading digit of a positive `x`: the `e` with `10^e ≤ x < 10^(e+1)`.
The estimate from the binary exponent is at most two below it, and each step up is checked. -/
def leadExponent (x : Magnitude) : Int :=
  let e2 : Int := (x.m.log2 : Int) + x.q
  let up (e : Int) : Int := if compareScaled 1 (e + 1) x.m x.q != .gt then e + 1 else e
  up (up (up (e2 * 30103 / 100000 - 1)))

/-- The decimal on the grid `10^t` that reads back as `x` and lies nearest to it, if one does: one of
the two grid points around `x`, a tie going to the even one. -/
def onGrid (x : Magnitude) (t : Int) : Option Decimal :=
  let lo := x.m * Nat.pow 2 x.q.toNat * Nat.pow 10 (-t).toNat / (Nat.pow 2 (-x.q).toNat * Nat.pow 10 t.toNat)
  let below : Decimal := ⟨lo, t⟩
  let above : Decimal := ⟨lo + 1, t⟩
  match readsBackTo x below, readsBackTo x above with
  | true, true =>
    -- the midpoint of the two grid points against `x`, both doubled
    match compareScaled (2 * lo + 1) t x.m (x.q + 1) with
    | .gt => some below
    | .lt => some above
    | .eq => some (if lo % 2 == 0 then below else above)
  | true, false => some below
  | false, true => some above
  | false, false => none

def trimZeros (d : Decimal) : Decimal :=
  if h : d.digits ≠ 0 ∧ d.digits % 10 = 0 then trimZeros ⟨d.digits / 10, d.exp + 1⟩ else d
termination_by d.digits
decreasing_by exact Nat.div_lt_self (Nat.pos_of_ne_zero h.1) (by decide)

def exact (x : Magnitude) : Decimal :=
  if x.q < 0 then ⟨x.m * Nat.pow 5 (-x.q).toNat, x.q⟩ else ⟨x.m * Nat.pow 2 x.q.toNat, 0⟩

/-- The decimal with the fewest significant digits that reads back as a positive `x`, the nearest
to `x` of those, without trailing zeros. Seventeen digits always suffice; the exact value stands
behind that. -/
def shortest (x : Magnitude) : Decimal :=
  let e := leadExponent x
  match (List.range 17).findSome? (fun i : Nat => onGrid x (e - i)) with
  | some d => trimZeros d
  | none => trimZeros (exact x)

example : shortest (Magnitude.ofBits (0.1 : Float).toBits) = ⟨1, -1⟩ := by decide +kernel

example : shortest (Magnitude.ofBits (5e-324 : Float).toBits) = ⟨5, -324⟩ := by decide +kernel

end Decimal

end Reckon
