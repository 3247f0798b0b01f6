import Reckon.Binary64
import Reckon.Text.Blank
import Reckon.Text.DecimalDigit

set_option autoImplicit false

/-!
# Reading a numeral

A numeral is an optional sign, then `inf`, `infinity` or `nan` in any case, or digits with an
optional point and an optional exponent `e` or `E` with its own sign; it may stand between ASCII
blanks. Before the grammar applies, a blank beyond ASCII counts as a space and a decimal digit of
any script as its ASCII digit; any other character beyond ASCII makes the text no numeral. An
underscore may stand between two digits to group them, and nowhere else.

The value of a finite numeral is the double nearest to it, a tie going to the even significand:
`Binary64.roundQuotient` on the exact fraction, so `1e400` is infinity and `1e-400` is zero.
-/

namespace Reckon
open Text

/-- What a numeral stands for. -/
inductive Numeral where
  | nan (negative : Bool)
  | infinity (negative : Bool)
  | finite (negative : Bool) (digits : Nat) (exp : Int)
deriving DecidableEq, Repr

namespace Numeral

/-- A character as the grammar sees it: a blank beyond ASCII is a space, a decimal digit of any
script its ASCII digit; `none` for any other character beyond ASCII, and for U+007F. -/
def normalizeChar (c : Char) : Option Char :=
  if c.toNat < 127 then some c
  else if isBlank c then some ' '
  else (decimalValue? c).map (fun d => Char.ofNat (48 + d))

def digitFollows : List Char → Bool
  | c :: _ => c.isDigit
  | [] => false

/-- The characters without their grouping underscores; `none` if an underscore does not stand
between two digits. `prevDigit` tells whether the character before is a digit. -/
def ungroup (prevDigit : Bool) : List Char → Option (List Char)
  | [] => some []
  | c :: cs =>
    if c = '_' then
      if prevDigit && digitFollows cs then ungroup false cs else none
    else (ungroup c.isDigit cs).map (c :: ·)

def stripAscii (cs : List Char) : List Char :=
  ((cs.dropWhile isAsciiBlank).reverse.dropWhile isAsciiBlank).reverse

def digitsValue (ds : List Char) : Nat :=
  ds.foldl (fun n c => 10 * n + (c.toNat - 48)) 0

def readSign : List Char → Bool × List Char
  | '-' :: cs => (true, cs)
  | '+' :: cs => (false, cs)
  | cs => (false, cs)

/-- The exponent part, from just after the `e`: an optional sign and at least one digit, ending
the text. -/
def readExponent (cs : List Char) : Option Int :=
  let (neg, rest) := readSign cs
  let ds := rest.takeWhile Char.isDigit
  if ds.isEmpty || !(rest.dropWhile Char.isDigit).isEmpty then none
  else
    let v : Int := digitsValue ds
    some (if neg then -v else v)

/-- An unsigned finite numeral: digits with an optional point, at least one digit in all, then an
optional exponent. -/
def readUnsigned (neg : Bool) (cs : List Char) : Option Numeral :=
  let whole := cs.takeWhile Char.isDigit
  let rest := cs.dropWhile Char.isDigit
  let (frac, rest) := match rest with
    | '.' :: r => (r.takeWhile Char.isDigit, r.dropWhile Char.isDigit)
    | r => ([], r)
  if whole.isEmpty && frac.isEmpty then none
  else
    let exp : Option Int := match rest with
      | [] => some 0
      | c :: r => if c = 'e' || c = 'E' then readExponent r else none
    exp.map (fun e => .finite neg (digitsValue (whole ++ frac)) (e - frac.length))

def readCore (cs : List Char) : Option Numeral :=
  let (neg, rest) := readSign cs
  match rest.map Char.toLower with
  | ['i', 'n', 'f'] | ['i', 'n', 'f', 'i', 'n', 'i', 't', 'y'] => some (.infinity neg)
  | ['n', 'a', 'n'] => some (.nan neg)
  | _ => readUnsigned neg rest

/-- The numeral a text holds, if it holds one. -/
def read? (s : String) : Option Numeral := do
  let cs ← s.toList.mapM normalizeChar
  let cs ← ungroup false cs
  readCore (stripAscii cs)

def digitCount (n : Nat) : Nat := (Nat.toDigits 10 n).length

/-- The bits of the non-negative double nearest to `digits * 10^exp`. Beyond `10^310` it is
infinity and below `10^-330` it is zero, without computing the huge powers of ten. -/
def magnitudeBits (digits : Nat) (exp : Int) : UInt64 :=
  if digits = 0 then 0
  else
    let lead := exp + digitCount digits
    if 310 < lead then Binary64.infinityBits
    else if lead < -330 then 0
    else if 0 ≤ exp then Binary64.roundQuotient (digits * Nat.pow 10 exp.toNat) 1
    else Binary64.roundQuotient digits (Nat.pow 10 (-exp).toNat)

/-- The double a numeral stands for; a minus sign sets the sign bit, also of zero and of a value
that is not a number. -/
def toFloat : Numeral → Float
  | .nan neg => Float.ofBits (if neg then 0xFFF8000000000000 else 0x7FF8000000000000)
  | .infinity neg => Float.ofBits (if neg then 0xFFF0000000000000 else Binary64.infinityBits)
  | .finite neg digits exp =>
    let bits := magnitudeBits digits exp
    Float.ofBits (if neg then bits ||| 0x8000000000000000 else bits)

end Numeral

def readFloat? (s : String) : Option Float := (Numeral.read? s).map Numeral.toFloat

def isNumeral (s : String) : Bool := (Numeral.read? s).isSome

example : Numeral.read? " 1_000.5e-1 " = some (.finite false 10005 (-2)) := by decide +kernel

example : Numeral.read? "-InFinity" = some (.infinity true) ∧ Numeral.read? "1__0" = none ∧
    Numeral.read? "1._0" = none ∧ Numeral.read? "\x1c1" = none ∧ Numeral.read? "." = none := by
  decide +kernel

example : Numeral.read? "١٢" = some (.finite false 12 0) ∧ Numeral.read? "0x10" = none := by
  decide +kernel

end Reckon
