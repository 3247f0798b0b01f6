import Reckon.Text.Printable

set_option autoImplicit false

/-!
# Quoted text

The quoted form of a text, as error reports show a token that could not be read. The text stands
between single quotes, or between double quotes when it holds a single quote and no double quote.
Inside, a backslash and the chosen quote are written after a backslash; tab, line feed and carriage
return as `\t`, `\n`, `\r`; other control characters and U+007F as `\x` and two hexadecimal digits;
a character beyond ASCII that is not printable as `\x` with two, `\u` with four or `\U` with eight
lowercase hexadecimal digits, the fewest of these that hold its code point. Everything else stands
for itself.
-/

namespace Reckon.Text

def hexDigit (d : Nat) : Char :=
  if d < 10 then Char.ofNat (48 + d) else Char.ofNat (87 + d)

def hexDigits : Nat → Nat → List Char
  | 0, _ => []
  | width + 1, n => hexDigits width (n / 16) ++ [hexDigit (n % 16)]

def escapeChar (q c : Char) : List Char :=
  let n := c.toNat
  if c == q || c == '\\' then ['\\', c]
  else if c == '\t' then ['\\', 't']
  else if c == '\n' then ['\\', 'n']
  else if c == '\r' then ['\\', 'r']
  else if n < 0x20 || n == 0x7F then '\\' :: 'x' :: hexDigits 2 n
  else if n < 0x7F || isPrintable c then [c]
  else if n ≤ 0xFF then '\\' :: 'x' :: hexDigits 2 n
  else if n ≤ 0xFFFF then '\\' :: 'u' :: hexDigits 4 n
  else '\\' :: 'U' :: hexDigits 8 n

/-- The quote that encloses a text: double when the text holds a single quote and no double
quote, single otherwise. -/
def quoteFor (cs : List Char) : Char :=
  if cs.contains '\'' && !cs.contains '"' then '"' else '\''

def quote (s : String) : String :=
  let q := quoteFor s.toList
  String.ofList (q :: s.toList.flatMap (escapeChar q) ++ [q])

/-- How one byte is written between the quote `q` in the quoted form of bytes: printable ASCII
as itself, the quote and backslash after a backslash, tab, line feed and carriage return by their
letters, anything else as `\x` and two hexadecimal digits. -/
def escapeByte (q : Char) (b : UInt8) : List Char :=
  let c := Char.ofNat b.toNat
  if c == q || c == '\\' then ['\\', c]
  else if c == '\t' then ['\\', 't']
  else if c == '\n' then ['\\', 'n']
  else if c == '\r' then ['\\', 'r']
  else if b < 0x20 || 0x7F ≤ b then '\\' :: 'x' :: hexDigits 2 b.toNat
  else [c]

def quoteBytes (bytes : ByteArray) : String :=
  let cs := bytes.toList.map fun b => Char.ofNat b.toNat
  let q := quoteFor cs
  String.ofList ('b' :: q :: bytes.toList.flatMap (escapeByte q) ++ [q])

theorem hexDigits_length (width n : Nat) : (hexDigits width n).length = width := by
  induction width generalizing n with
  | zero => rfl
  | succ w ih => simp [hexDigits, ih]

example : quoteBytes ⟨#[0x61, 0x27, 0xFF]⟩ = "b\"a'\\xff\"" := by decide +kernel

example : quote "x" = "'x'" ∧ quote "it's" = "\"it's\"" ∧ quote "1\u200B+" = "'1\\u200b+'" := by
  decide +kernel

end Reckon.Text
