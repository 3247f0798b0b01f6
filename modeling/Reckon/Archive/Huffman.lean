import Reckon.Archive.Bits

set_option autoImplicit false

/-!
# Canonical prefix codes

Deflate and bzip2 both send a prefix code as the length of each symbol's codeword. The code is
canonical: codewords of one length are consecutive numbers given to the symbols in increasing
order, and each length's first codeword follows the last codeword of the length before, doubled.
So the code is known from how many symbols have each length and from the symbols listed by length,
then by value; decoding reads one bit at a time until the codeword read so far falls among those of
its length.
-/

namespace Reckon.Archive

structure Huffman where
  counts : Array Nat
  symbols : Array Nat

namespace Huffman

def ofLengths (lengths : Array Nat) : Huffman :=
  let maxLen := lengths.foldl max 0
  let counts := (List.range (maxLen + 1)).toArray.map fun l =>
    if l = 0 then 0 else lengths.foldl (fun n x => if x = l then n + 1 else n) 0
  let symbols := (List.range maxLen).foldl (fun acc l =>
    (List.range lengths.size).foldl (fun acc s =>
      if lengths[s]?.getD 0 = l + 1 then acc.push s else acc) acc) #[]
  ⟨counts, symbols⟩

def isPrefixFree (h : Huffman) : Bool :=
  let (ok, _) := h.counts.toList.drop 1 |>.foldl (fun (ok, left) c =>
    (ok && c ≤ 2 * left, 2 * left - c)) (true, 1)
  ok

inductive Codeword where
  | symbol (s : Nat) (r : BitReader)
  | invalid
  | cut

/-- Decodes one symbol, with `bit` giving the next bit of the codeword. Bits are read until they
make a codeword, up to `limit` bits: bits that make none by then are invalid, and an input that ends
before either is cut. -/
def decode (h : Huffman) (bit : BitReader → Option (Nat × BitReader)) (limit : Nat)
    (r : BitReader) : Codeword :=
  go limit 1 0 0 0 r
where
  go : Nat → Nat → Nat → Nat → Nat → BitReader → Codeword
    | 0, _, _, _, _, _ => .invalid
    | k + 1, len, code, first, index, r =>
      match bit r with
      | none => .cut
      | some (b, r) =>
        let code := code + b
        let count := h.counts[len]?.getD 0
        if code < first + count then
          match h.symbols[index + (code - first)]? with
          | some s => .symbol s r
          | none => .invalid
        else go k (len + 1) (2 * code) (2 * (first + count)) (index + count) r

/-- The length of the longest codeword, and at least one: the bits needed to tell that a codeword
is invalid, in a code where each codeword is decided by its own bits. -/
def longest (h : Huffman) : Nat := max 1 (h.counts.size - 1)

end Huffman

example : (Huffman.ofLengths #[2, 1, 3, 3]).symbols = #[1, 0, 2, 3] := by decide +kernel

end Reckon.Archive
