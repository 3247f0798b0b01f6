import Reckon.Text.Utf8

set_option autoImplicit false

/-!
# Text read from bytes that need not be UTF-8

File names are bytes. The system reads them as UTF-8 text in which each byte that begins no
well-formed character stands for itself, as the lone surrogate U+DC80 to U+DCFF of its value.
Writing such text out again gives back the same bytes, so the bytes and the text say the same
thing: this library keeps names as bytes and reads them as text only to show them.

A byte stands for itself when no well-formed character starts there: a byte that cannot lead one,
or a lead whose continuation is missing, refused or cut off by the end. Reading goes on with the
next byte, so a lead followed by a good continuation that does not complete the character gives
two stray bytes. In the quoted form a stray byte is written `\udc` and its two hexadecimal digits,
as a lone surrogate is.
-/

namespace Reckon.Text

/-- One unit of text read from bytes: a character, or a byte that begins no character, kept as
itself. -/
inductive Glyph where
  | char (c : Char)
  | stray (b : UInt8)
deriving DecidableEq, Repr

/-- The glyphs that bytes stand for, read from the first byte: each well-formed UTF-8 character,
and each byte that begins none; at most `fuel` of them. -/
def glyphsWithin : Nat → List UInt8 → List Glyph
  | 0, _ | _, [] => []
  | fuel + 1, b :: rest =>
    if b < 0x80 then .char (Char.ofNat b.toNat) :: glyphsWithin fuel rest
    else if b < 0xC2 then .stray b :: glyphsWithin fuel rest
    else if b < 0xE0 then
      match rest with
      | c :: r =>
        if isContinuation c then
          .char (Char.ofNat ((b &&& 0x1F).toNat * 64 + low6 c)) :: glyphsWithin fuel r
        else .stray b :: glyphsWithin fuel (c :: r)
      | [] => [.stray b]
    else if b < 0xF0 then
      match rest with
      | c :: d :: r =>
        if secondOfThree b c && isContinuation d then
          .char (Char.ofNat ((b &&& 0x0F).toNat * 4096 + low6 c * 64 + low6 d)) ::
            glyphsWithin fuel r
        else .stray b :: glyphsWithin fuel (c :: d :: r)
      | r => .stray b :: glyphsWithin fuel r
    else if b < 0xF5 then
      match rest with
      | c :: d :: e :: r =>
        if secondOfFour b c && isContinuation d && isContinuation e then
          .char (Char.ofNat ((b &&& 0x07).toNat * 262144 + low6 c * 4096 + low6 d * 64 +
            low6 e)) :: glyphsWithin fuel r
        else .stray b :: glyphsWithin fuel (c :: d :: e :: r)
      | r => .stray b :: glyphsWithin fuel r
    else .stray b :: glyphsWithin fuel rest

/-- The glyphs that bytes stand for. Each glyph takes at least one byte, so as many glyphs as
there are bytes are enough. -/
def glyphs (bs : List UInt8) : List Glyph := glyphsWithin bs.length bs

def glyphText? (gs : List Glyph) : Option String :=
  (gs.mapM fun (g : Glyph) => match g with | .char c => some c | .stray _ => none).map
    String.ofList

/-- How one glyph is written between the quote `q`: a character as quoted text writes it, a stray
byte as the lone surrogate that stands for it. -/
def escapeGlyph (q : Char) : Glyph → List Char
  | .char c => escapeChar q c
  | .stray b => '\\' :: 'u' :: 'd' :: 'c' :: hexDigits 2 b.toNat

def quoteGlyphs (gs : List Glyph) : String :=
  let q := quoteFor (gs.filterMap fun (g : Glyph) => match g with
    | .char c => some c
    | .stray _ => none)
  String.ofList (q :: gs.flatMap (escapeGlyph q) ++ [q])

def quoteName (b : List UInt8) : String := quoteGlyphs (glyphs b)

/-- Well-formed text reads as its characters; each byte of a broken or cut sequence stands for
itself, and reading goes on at the byte that broke it. -/
example : glyphs [0x61, 0xC3, 0xA9] = [.char 'a', .char 'é'] ∧
    glyphs [0xC3, 0xA9, 0xFF] = [.char 'é', .stray 0xFF] ∧
    glyphs [0xE2, 0x82, 0x41] = [.stray 0xE2, .stray 0x82, .char 'A'] ∧
    glyphs [0xED, 0xA0, 0x80] = [.stray 0xED, .stray 0xA0, .stray 0x80] ∧
    glyphs [0xF0, 0x9F] = [.stray 0xF0, .stray 0x9F] := by
  decide +kernel

example : quoteName [0x2E, 0x2E, 0x2F, 0xE9, 0x2E, 0x74] = "'../\\udce9.t'" ∧
    quoteName [0x27, 0xFF] = "\"'\\udcff\"" := by
  decide +kernel

end Reckon.Text
