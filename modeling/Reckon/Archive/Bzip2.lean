import Reckon.Archive.Huffman
import Reckon.Archive.Checksum

set_option autoImplicit false

/-!
# bzip2

A bzip2 stream is `BZh`, a block-size digit, blocks each opened by a 48-bit mark and its CRC, and a
closing mark with the combined CRC; bits are read from the most significant down. A block holds
prefix-coded move-to-front indices with runs in bijective base 2, undone through the
Burrows–Wheeler transform and a last run-length step; a randomised block has bits flipped back. A
block comes out once it is read whole and its CRC matches.
-/

namespace Reckon.Archive

namespace Bzip2

inductive Stop where
  | cut
  | invalid
deriving DecidableEq, Repr

def bits (r : BitReader) (n : Nat) : Except Stop (Nat × BitReader) :=
  match r.readMsb n with
  | some v => .ok v
  | none => .error .cut

def blockMark : List Nat := [0x31, 0x41, 0x59, 0x26, 0x53, 0x59]

def endMark : List Nat := [0x17, 0x72, 0x45, 0x38, 0x50, 0x90]

/-- Reads a mark, a byte at a time: whether it closes the stream. The first byte chooses the mark,
and a byte that differs from the chosen mark is invalid at once, before the rest is there. -/
def mark (r : BitReader) : Except Stop (Bool × BitReader) := do
  let (first, r) ← bits r 8
  let closing := first = 0x17
  if !closing && first ≠ 0x31 then throw .invalid
  let rest := (if closing then endMark else blockMark).drop 1
  let r ← rest.foldlM (fun r expected => do
    let (b, r) ← bits r 8
    if b ≠ expected then throw .invalid
    pure r) r
  pure (closing, r)

/-- The bytes a block uses, from its two-level bitmap: sixteen bits saying which ranges of
sixteen bytes are used, then sixteen bits for each used range. -/
def usedBytes (r : BitReader) : Except Stop (List Nat × BitReader) := do
  let (ranges, r) ← bits r 16
  let step (acc : Except Stop (List Nat × BitReader)) (i : Nat) : Except Stop (List Nat × BitReader) := do
    let (used, r) ← acc
    if ranges / Nat.pow 2 (15 - i) % 2 = 0 then pure (used, r)
    else
      let (m, r) ← bits r 16
      pure (used ++ ((List.range 16).filter fun j => m / Nat.pow 2 (15 - j) % 2 = 1).map (16 * i + ·), r)
  (List.range 16).foldl step (.ok ([], r))

def selectorIndices (groups : Nat) : Nat → List Nat → BitReader → Except Stop (List Nat × BitReader)
  | 0, acc, r => .ok (acc.reverse, r)
  | n + 1, acc, r =>
    let rec unary : Nat → Nat → BitReader → Except Stop (Nat × BitReader)
      | 0, _, _ => .error .invalid
      | fuel + 1, j, r => do
        let (b, r) ← bits r 1
        if b = 0 then pure (j, r)
        else if groups ≤ j + 1 then throw .invalid
        else unary fuel (j + 1) r
    match unary (groups + 1) 0 r with
    | .error e => .error e
    | .ok (j, r) => selectorIndices groups n (j :: acc) r

def moveToFront {α : Type} (xs : List α) (i : Nat) : List α :=
  match xs[i]? with
  | some x => x :: (xs.take i ++ xs.drop (i + 1))
  | none => xs

def selectors (groups : Nat) (indices : List Nat) : List Nat :=
  (indices.foldl (fun (order, acc) i =>
    (moveToFront order i, (order[i]?.getD 0) :: acc)) (List.range groups, [])).2.reverse

/-- Reads the codeword lengths of one code for `size` symbols: a starting length of five bits,
then for each symbol changes of one up or down until a zero bit; every length stays within 1
and 20. -/
def codeLengths (size : Nat) (r : BitReader) : Except Stop (Array Nat × BitReader) := do
  let (start, r) ← bits r 5
  let rec adjust : Nat → Nat → BitReader → Except Stop (Nat × BitReader)
    | 0, _, _ => .error .invalid
    | fuel + 1, len, r => do
      if len < 1 || 20 < len then throw .invalid
      let (b, r) ← bits r 1
      if b = 0 then pure (len, r)
      else
        let (d, r) ← bits r 1
        adjust fuel (if d = 0 then len + 1 else len - 1) r
  let step (acc : Except Stop ((Array Nat × Nat) × BitReader)) (_ : Nat) : Except Stop ((Array Nat × Nat) × BitReader) := do
    let ((ls, len), r) ← acc
    let (len, r) ← adjust (r.data.size * 8 + 1) len r
    pure ((ls.push len, len), r)
  let ((ls, _), r) ← (List.range size).foldl step (.ok ((#[], start), r))
  pure (ls, r)

/-- Reads one symbol with the code at `group`; bits that make no codeword are invalid only once
21 of them are read, one more than the longest codeword. -/
def symbol (codes : Array Huffman) (group : Nat) (r : BitReader) : Except Stop (Nat × BitReader) :=
  match codes[group]? with
  | none => .error .invalid
  | some h =>
    match h.decode BitReader.bitMsb 21 r with
    | .symbol s r => .ok (s, r)
    | .invalid => .error .invalid
    | .cut => .error .cut

/-- What the symbol loop keeps: the bytes so far, the move-to-front order, the pending run
(its length and the weight of its next digit), the symbols left in the current group and the
groups used. -/
structure Symbols where
  out : Array Nat
  order : List Nat
  run : Nat
  weight : Nat
  left : Nat
  group : Nat

def Symbols.flush (s : Symbols) (used : Array Nat) (limit : Nat) : Except Stop Symbols :=
  if s.weight = 0 then .ok s
  else if limit < s.out.size + s.run then .error .invalid
  else
    let b := used.getD (s.order.headD 0) 0
    .ok { s with out := s.out ++ Array.replicate s.run b, run := 0, weight := 0 }

def column (codes : Array Huffman) (sels : List Nat) (used : Array Nat) (limit : Nat) :
    Nat → Symbols → BitReader → Except Stop (Array Nat × BitReader)
  | 0, _, _ => .error .invalid
  | fuel + 1, s, r => do
    let (s, group) ←
      if s.left = 0 then
        match sels[s.group]? with
        | none => throw .invalid
        | some g => pure ({ s with left := 50, group := s.group + 1 }, g)
      else pure (s, sels.getD (s.group - 1) 0)
    let s := { s with left := s.left - 1 }
    let (sym, r) ← symbol codes group r
    if sym = used.size + 1 then
      let s ← s.flush used limit
      pure (s.out, r)
    else if sym ≤ 1 then
      let weight := if s.weight = 0 then 1 else s.weight
      if 2 * 1024 * 1024 ≤ weight then throw .invalid
      column codes sels used limit fuel
        { s with run := s.run + (sym + 1) * weight, weight := 2 * weight } r
    else
      let s ← s.flush used limit
      if limit ≤ s.out.size then throw .invalid
      let order := moveToFront s.order (sym - 1)
      let b := used.getD (order.headD 0) 0
      column codes sels used limit fuel { s with out := s.out.push b, order } r

/-- The block's text before its runs are expanded: the last column read back through the
matrix from the row `origin`. -/
def unsort (col : Array Nat) (origin : Nat) : Array Nat := Id.run do
  let mut counts := Array.replicate 257 0
  for b in col do
    counts := counts.modify (b + 1) (· + 1)
  for i in [0:256] do
    counts := counts.modify (i + 1) (· + counts.getD i 0)
  let mut next := Array.replicate col.size 0
  for i in [0:col.size] do
    let b := col.getD i 0
    let p := counts.getD b 0
    next := next.set! p i
    counts := counts.modify b (· + 1)
  let mut out := Array.emptyWithCapacity col.size
  let mut pos := next.getD origin 0
  for _ in [0:col.size] do
    out := out.push (col.getD pos 0)
    pos := next.getD pos 0
  return out

/-- Expands the runs: after four equal bytes, the next byte counts further copies. A text that
ends right after four equal bytes lacks its count, and is invalid. -/
def expandRuns : List Nat → Option Nat → Nat → Array UInt8 → Option (Array UInt8)
  | [], _, len, out => if len = 4 then none else some out
  | b :: rest, prev, len, out =>
    if len = 4 then
      expandRuns rest none 0 (out ++ Array.replicate b ((prev.getD 0).toUInt8))
    else if prev = some b then expandRuns rest prev (len + 1) (out.push b.toUInt8)
    else expandRuns rest (some b) 1 (out.push b.toUInt8)

/-- The gaps of block randomisation, a table fixed by the format: a randomised block's text has the
lowest bit of one byte flipped at the end of each gap, taken in turn and from the start again after
the last. -/
def randomGaps : Array Nat := #[
  619, 720, 127, 481, 931, 816, 813, 233, 566, 247, 985, 724, 205, 454, 863, 491,
  741, 242, 949, 214, 733, 859, 335, 708, 621, 574, 73, 654, 730, 472, 419, 436,
  278, 496, 867, 210, 399, 680, 480, 51, 878, 465, 811, 169, 869, 675, 611, 697,
  867, 561, 862, 687, 507, 283, 482, 129, 807, 591, 733, 623, 150, 238, 59, 379,
  684, 877, 625, 169, 643, 105, 170, 607, 520, 932, 727, 476, 693, 425, 174, 647,
  73, 122, 335, 530, 442, 853, 695, 249, 445, 515, 909, 545, 703, 919, 874, 474,
  882, 500, 594, 612, 641, 801, 220, 162, 819, 984, 589, 513, 495, 799, 161, 604,
  958, 533, 221, 400, 386, 867, 600, 782, 382, 596, 414, 171, 516, 375, 682, 485,
  911, 276, 98, 553, 163, 354, 666, 933, 424, 341, 533, 870, 227, 730, 475, 186,
  263, 647, 537, 686, 600, 224, 469, 68, 770, 919, 190, 373, 294, 822, 808, 206,
  184, 943, 795, 384, 383, 461, 404, 758, 839, 887, 715, 67, 618, 276, 204, 918,
  873, 777, 604, 560, 951, 160, 578, 722, 79, 804, 96, 409, 713, 940, 652, 934,
  970, 447, 318, 353, 859, 672, 112, 785, 645, 863, 803, 350, 139, 93, 354, 99,
  820, 908, 609, 772, 154, 274, 580, 184, 79, 626, 630, 742, 653, 282, 762, 623,
  680, 81, 927, 626, 789, 125, 411, 521, 938, 300, 821, 78, 343, 175, 128, 250,
  170, 774, 972, 275, 999, 639, 495, 78, 352, 126, 857, 956, 358, 619, 580, 124,
  737, 594, 701, 612, 669, 112, 134, 694, 363, 992, 809, 743, 168, 974, 944, 375,
  748, 52, 600, 747, 642, 182, 862, 81, 344, 805, 988, 739, 511, 655, 814, 334,
  249, 515, 897, 955, 664, 981, 649, 113, 974, 459, 893, 228, 433, 837, 553, 268,
  926, 240, 102, 654, 459, 51, 686, 754, 806, 760, 493, 403, 415, 394, 687, 700,
  946, 670, 656, 610, 738, 392, 760, 799, 887, 653, 978, 321, 576, 617, 626, 502,
  894, 679, 243, 440, 680, 879, 194, 572, 640, 724, 926, 56, 204, 700, 707, 151,
  457, 449, 797, 195, 791, 558, 945, 679, 297, 59, 87, 824, 713, 663, 412, 693,
  342, 606, 134, 108, 571, 364, 631, 212, 174, 643, 304, 329, 343, 97, 430, 751,
  497, 314, 983, 374, 822, 928, 140, 206, 73, 263, 980, 736, 876, 478, 430, 305,
  170, 514, 364, 692, 829, 82, 855, 953, 676, 246, 369, 970, 294, 750, 807, 827,
  150, 790, 288, 923, 804, 378, 215, 828, 592, 281, 565, 555, 710, 82, 896, 831,
  547, 261, 524, 462, 293, 465, 502, 56, 661, 821, 976, 991, 658, 869, 905, 758,
  745, 193, 768, 550, 608, 933, 378, 286, 215, 979, 792, 961, 61, 688, 793, 644,
  986, 403, 106, 366, 905, 644, 372, 567, 466, 434, 645, 210, 389, 550, 919, 135,
  780, 773, 635, 389, 707, 100, 626, 958, 165, 504, 920, 176, 193, 713, 857, 265,
  203, 50, 668, 108, 645, 990, 626, 197, 510, 357, 358, 850, 858, 364, 936, 638]

/-- Undoes the randomisation of a block's text. A countdown is loaded with the next gap when it
is at zero, and counts down one for each byte; the byte at which it reaches one is flipped. -/
def derandomise (text : List Nat) : List Nat :=
  let step (acc : List Nat × Nat × Nat) (b : Nat) : List Nat × Nat × Nat :=
    let (out, toGo, next) := acc
    let (toGo, next) :=
      if toGo = 0 then (randomGaps.getD next 0, (next + 1) % randomGaps.size) else (toGo, next)
    let toGo := toGo - 1
    ((if toGo = 1 then b ^^^ 1 else b) :: out, toGo, next)
  (text.foldl step ([], 0, 0)).1.reverse

def block (level : Nat) (r : BitReader) : Except Stop (ByteArray × BitReader) := do
  let (randomised, r) ← bits r 1
  let (origin, r) ← bits r 24
  if 10 + 100000 * level < origin then throw .invalid
  let (used, r) ← usedBytes r
  if used.isEmpty then throw .invalid
  let (groups, r) ← bits r 3
  if groups < 2 || 6 < groups then throw .invalid
  let (count, r) ← bits r 15
  if count = 0 then throw .invalid
  let (indices, r) ← selectorIndices groups count [] r
  let sels := (selectors groups indices).take 18002
  let step (acc : Except Stop (Array Huffman × BitReader)) (_ : Nat) : Except Stop (Array Huffman × BitReader) := do
    let (cs, r) ← acc
    let (ls, r) ← codeLengths (used.length + 2) r
    pure (cs.push (Huffman.ofLengths ls), r)
  let (codes, r) ← (List.range groups).foldl step (.ok (#[], r))
  let limit := 100000 * level
  let start : Symbols := ⟨#[], List.range 256, 0, 0, 0, 0⟩
  let (col, r) ← column codes sels used.toArray limit (r.data.size * 8 + 1) start r
  if col.size ≤ origin then throw .invalid
  let text := (unsort col origin).toList
  match expandRuns (if randomised = 1 then derandomise text else text) none 0 #[] with
  | some out => pure (⟨out⟩, r)
  | none => throw .invalid

def blocks (level : Nat) : Nat → UInt32 → ByteArray → BitReader → Except (Stop × ByteArray) ByteArray
  | 0, _, out, _ => .error (.invalid, out)
  | fuel + 1, combined, out, r =>
    match (mark r).bind fun (closing, r) => (bits r 32).map fun (crc, r) => (closing, crc, r) with
    | .error e => .error (e, out)
    | .ok (true, crc, _) => if crc = combined.toNat then .ok out else .error (.invalid, out)
    | .ok (false, crc, r) =>
      match block level r with
      | .error e => .error (e, out)
      | .ok (data, r) =>
        let c := crc32Forward data
        if c.toNat ≠ crc then .error (.invalid, out)
        else blocks level fuel (((combined <<< 1) ||| (combined >>> 31)) ^^^ c) (out ++ data) r

end Bzip2

inductive Bunzipped where
  | complete (out : ByteArray)
  | cut (out : ByteArray)
  | invalid

/-- Decodes a bzip2 stream. A stream cut inside its header yields nothing, so long as what is
there is right. -/
def bunzip2 (data : ByteArray) : Bunzipped :=
  match Bzip2.bits (BitReader.ofBytes data) 32 with
  | .error _ =>
    if [0x42, 0x5A, 0x68].take data.size == data.toList.map UInt8.toNat then .cut ByteArray.empty
    else .invalid
  | .ok (head, r) =>
    let level := head % 256
    if head / 256 ≠ 0x425A68 || level < 0x31 || 0x39 < level then .invalid
    else
      match Bzip2.blocks (level - 0x30) (data.size + 1) 0 ByteArray.empty r with
      | .ok out => .complete out
      | .error (.cut, out) => .cut out
      | .error (.invalid, _) => .invalid

end Reckon.Archive
