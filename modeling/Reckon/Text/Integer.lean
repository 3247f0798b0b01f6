import Reckon.Decimal.Numeral

set_option autoImplicit false

/-!
# Reading an integer

An integer in base 8 or 10 is an optional sign and digits of the base, which an underscore may
group by standing between two of them; in base 8 the digits may follow the prefix `0o` or `0O`,
and one underscore may follow the prefix. ASCII blanks may stand around it. As for numerals, a
blank beyond ASCII counts as a space and a decimal digit of any script as its ASCII digit.
-/

namespace Reckon.Text

open Numeral in
def readInteger? (base : Nat) (s : String) : Option Int := do
  let cs ← s.toList.mapM normalizeChar
  let (neg, cs) := readSign (stripAscii cs)
  let cs := match cs with
    | '0' :: c :: rest =>
      if base = 8 && (c = 'o' || c = 'O') then
        match rest with
        | '_' :: r => r
        | r => r
      else cs
    | _ => cs
  let ds ← ungroup false cs
  if ds.isEmpty || !ds.all (fun c => c.isDigit && c.toNat - 48 < base) then none
  let n : Nat := ds.foldl (fun n c => base * n + (c.toNat - 48)) 0
  pure (if neg then -(n : Int) else n)

example : readInteger? 8 "0o_17" = some 15 ∧ readInteger? 8 " -1_0 " = some (-8) ∧
    readInteger? 8 "18" = none ∧ readInteger? 10 "1__0" = none ∧ readInteger? 10 "" = none := by
  decide +kernel

end Reckon.Text
