set_option autoImplicit false

/-!
# Blank characters and line breaks

A blank separates words and is removed by trimming: the characters of Unicode's White_Space
property together with the four information separators U+001C to U+001F. A line break ends a
line. The two sets overlap but neither holds the other: U+001F is blank and no line break.

`isAsciiBlank` is the narrower set of six characters that a numeral may carry around it.
-/

namespace Reckon.Text

/-- Whether a character separates words: horizontal tab to carriage return, the information
separators U+001C to U+001F, space, U+0085, U+00A0, U+1680, U+2000 to U+200A, U+2028, U+2029,
U+202F, U+205F and U+3000. Zero-width characters such as U+200B and U+FEFF are not blank. -/
def isBlank (c : Char) : Bool :=
  let n := c.toNat
  (0x09 ≤ n && n ≤ 0x0D) || (0x1C ≤ n && n ≤ 0x20) || n == 0x85 || n == 0xA0 || n == 0x1680 ||
    (0x2000 ≤ n && n ≤ 0x200A) || n == 0x2028 || n == 0x2029 || n == 0x202F || n == 0x205F ||
    n == 0x3000

/-- The six ASCII blanks: space, horizontal tab, line feed, vertical tab, form feed and
carriage return. -/
def isAsciiBlank (c : Char) : Bool :=
  c == ' ' || (0x09 ≤ c.toNat && c.toNat ≤ 0x0D)

/-- Whether a character ends a line: line feed, vertical tab, form feed, carriage return, the
separators U+001C to U+001E, U+0085, U+2028 and U+2029. -/
def isLineBreak (c : Char) : Bool :=
  let n := c.toNat
  (0x0A ≤ n && n ≤ 0x0D) || (0x1C ≤ n && n ≤ 0x1E) || n == 0x85 || n == 0x2028 || n == 0x2029

theorem isBlank_of_isAsciiBlank {c : Char} (h : isAsciiBlank c = true) : isBlank c = true := by
  simp only [isAsciiBlank, Bool.or_eq_true, beq_iff_eq, Bool.and_eq_true, decide_eq_true_eq] at h
  simp only [isBlank, Bool.or_eq_true, Bool.and_eq_true, decide_eq_true_eq, beq_iff_eq]
  rcases h with h | h
  · subst h; decide
  · omega

theorem isBlank_of_isLineBreak {c : Char} (h : isLineBreak c = true) : isBlank c = true := by
  simp only [isLineBreak, Bool.or_eq_true, Bool.and_eq_true, decide_eq_true_eq, beq_iff_eq] at h
  simp only [isBlank, Bool.or_eq_true, Bool.and_eq_true, decide_eq_true_eq, beq_iff_eq]
  omega

example : isBlank '\x1f' = true ∧ isLineBreak '\x1f' = false := by decide

example : isBlank '\u200B' = false ∧ isBlank '\u3000' = true := by decide

end Reckon.Text
