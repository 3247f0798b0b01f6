import Mathlib
import Reckon.Text.Utf8

set_option autoImplicit false

/-!
# Strict UTF-8 decoding inverts encoding

The decoder reads exactly the byte lists that encode a list of characters, encoding being
`String.utf8EncodeChar`, the one Lean's strings are stored in. Decoding an encoding gives the
characters back (`decodeFrom_flatMap`), and whatever decodes is the encoding of what it decodes to
(`flatMap_of_decodeFrom`). So bytes decode to a text exactly when they are that text's encoding
(`decodeUtf8_eq_ok_iff`), and decoding fails exactly on the bytes that are not valid UTF-8
(`decodeUtf8_eq_error_iff`).

The decoder tests bytes with masks while the encoder computes with quotients and remainders, so the
first lemmas read the masks as arithmetic on a byte's value; the width of a character's encoding is
then settled by `omega`.
-/

namespace Reckon.Text

/-! ## Bytes as numbers -/

theorem toNat_and_mask (b m : UInt8) (k n : Nat) (hn : 2 ^ k = n) (hm : m.toNat = n - 1) :
    (b &&& m).toNat = b.toNat % n := by
  rw [UInt8.toNat_and, hm, ← hn, Nat.and_two_pow_sub_one_eq_mod]

theorem low6_eq (b : UInt8) : low6 b = b.toNat % 64 := toNat_and_mask b 0x3F 6 64 rfl rfl

theorem byte_and_192 : ∀ n < 256, (n &&& 192 = 128 ↔ n / 64 = 2) := by decide +kernel

theorem isContinuation_iff (b : UInt8) : isContinuation b = true ↔ b.toNat / 64 = 2 := by
  rw [isContinuation, beq_iff_eq, ← UInt8.toNat_inj, UInt8.toNat_and]
  exact byte_and_192 b.toNat b.toNat_lt

theorem secondOfThree_iff (lead b : UInt8) :
    secondOfThree lead b = true ↔
      b.toNat / 64 = 2 ∧ (lead.toNat = 0xE0 → 0xA0 ≤ b.toNat) ∧
        (lead.toNat = 0xED → b.toNat < 0xA0) := by
  simp only [secondOfThree, Bool.and_eq_true, Bool.not_eq_true', Bool.and_eq_false_imp,
    isContinuation_iff, beq_iff_eq, ← UInt8.toNat_inj, decide_eq_false_iff_not,
    UInt8.lt_iff_toNat_lt, UInt8.le_iff_toNat_le]
  simp [and_assoc]

theorem secondOfFour_iff (lead b : UInt8) :
    secondOfFour lead b = true ↔
      b.toNat / 64 = 2 ∧ (lead.toNat = 0xF0 → 0x90 ≤ b.toNat) ∧
        (lead.toNat = 0xF4 → b.toNat < 0x90) := by
  simp only [secondOfFour, Bool.and_eq_true, Bool.not_eq_true', Bool.and_eq_false_imp,
    isContinuation_iff, beq_iff_eq, ← UInt8.toNat_inj, decide_eq_false_iff_not,
    UInt8.lt_iff_toNat_lt, UInt8.le_iff_toNat_le]
  simp [and_assoc]

theorem toNat_ofNat_of_isValidChar {n : Nat} (h : n.isValidChar) : (Char.ofNat n).toNat = n := by
  simp [Char.ofNat, h, Char.ofNatAux, Char.toNat]

theorem ofNat_eq_of_toNat {x : Nat} {b : UInt8} (h : x % 256 = b.toNat) : UInt8.ofNat x = b := by
  rw [← UInt8.toNat_inj, UInt8.toNat_ofNat', ← h]

/-! ## One character -/

theorem utf8EncodeChar_eq (c : Char) :
    String.utf8EncodeChar c =
      if c.toNat ≤ 0x7F then [UInt8.ofNat c.toNat]
      else if c.toNat ≤ 0x7FF then
        [UInt8.ofNat (c.toNat / 64 % 32 + 0xC0), UInt8.ofNat (c.toNat % 64 + 0x80)]
      else if c.toNat ≤ 0xFFFF then
        [UInt8.ofNat (c.toNat / 4096 % 16 + 0xE0), UInt8.ofNat (c.toNat / 64 % 64 + 0x80),
          UInt8.ofNat (c.toNat % 64 + 0x80)]
      else
        [UInt8.ofNat (c.toNat / 262144 % 8 + 0xF0), UInt8.ofNat (c.toNat / 4096 % 64 + 0x80),
          UInt8.ofNat (c.toNat / 64 % 64 + 0x80), UInt8.ofNat (c.toNat % 64 + 0x80)] := by
  simp only [String.utf8EncodeChar, Char.toNat_val]

theorem utf8EncodeChar_of_toNat {n : Nat} (hv : n.isValidChar) :
    String.utf8EncodeChar (Char.ofNat n) =
      if n ≤ 0x7F then [UInt8.ofNat n]
      else if n ≤ 0x7FF then [UInt8.ofNat (n / 64 % 32 + 0xC0), UInt8.ofNat (n % 64 + 0x80)]
      else if n ≤ 0xFFFF then
        [UInt8.ofNat (n / 4096 % 16 + 0xE0), UInt8.ofNat (n / 64 % 64 + 0x80),
          UInt8.ofNat (n % 64 + 0x80)]
      else
        [UInt8.ofNat (n / 262144 % 8 + 0xF0), UInt8.ofNat (n / 4096 % 64 + 0x80),
          UInt8.ofNat (n / 64 % 64 + 0x80), UInt8.ofNat (n % 64 + 0x80)] := by
  rw [utf8EncodeChar_eq, toNat_ofNat_of_isValidChar hv]

theorem encode_one {b : UInt8} (hb : b.toNat < 0x80) :
    String.utf8EncodeChar (Char.ofNat b.toNat) = [b] := by
  rw [utf8EncodeChar_of_toNat (by unfold Nat.isValidChar; omega), if_pos (by omega),
    UInt8.ofNat_toNat]

theorem encode_two {b c : UInt8} (hb : 0xC2 ≤ b.toNat ∧ b.toNat < 0xE0)
    (hc : c.toNat / 64 = 2) :
    String.utf8EncodeChar (Char.ofNat (b.toNat % 32 * 64 + c.toNat % 64)) = [b, c] := by
  rw [utf8EncodeChar_of_toNat (by unfold Nat.isValidChar; omega), if_neg (by omega),
    if_pos (by omega)]
  simp only [List.cons.injEq, and_true]
  refine ⟨ofNat_eq_of_toNat ?_, ofNat_eq_of_toNat ?_⟩ <;> omega

theorem encode_three {b c d : UInt8} (hb : 0xE0 ≤ b.toNat ∧ b.toNat < 0xF0)
    (hc : c.toNat / 64 = 2 ∧ (b.toNat = 0xE0 → 0xA0 ≤ c.toNat) ∧
      (b.toNat = 0xED → c.toNat < 0xA0))
    (hd : d.toNat / 64 = 2) :
    String.utf8EncodeChar (Char.ofNat (b.toNat % 16 * 4096 + c.toNat % 64 * 64 + d.toNat % 64)) =
      [b, c, d] := by
  rw [utf8EncodeChar_of_toNat (by unfold Nat.isValidChar; omega), if_neg (by omega),
    if_neg (by omega), if_pos (by omega)]
  simp only [List.cons.injEq, and_true]
  refine ⟨ofNat_eq_of_toNat ?_, ofNat_eq_of_toNat ?_, ofNat_eq_of_toNat ?_⟩ <;> omega

theorem encode_four {b c d e : UInt8} (hb : 0xF0 ≤ b.toNat ∧ b.toNat < 0xF5)
    (hc : c.toNat / 64 = 2 ∧ (b.toNat = 0xF0 → 0x90 ≤ c.toNat) ∧
      (b.toNat = 0xF4 → c.toNat < 0x90))
    (hd : d.toNat / 64 = 2) (he : e.toNat / 64 = 2) :
    String.utf8EncodeChar (Char.ofNat (b.toNat % 8 * 262144 + c.toNat % 64 * 4096 +
      d.toNat % 64 * 64 + e.toNat % 64)) = [b, c, d, e] := by
  rw [utf8EncodeChar_of_toNat (by unfold Nat.isValidChar; omega), if_neg (by omega),
    if_neg (by omega), if_neg (by omega)]
  simp only [List.cons.injEq, and_true]
  refine ⟨ofNat_eq_of_toNat ?_, ofNat_eq_of_toNat ?_, ofNat_eq_of_toNat ?_,
    ofNat_eq_of_toNat ?_⟩ <;> omega

theorem ofNat_eq_char (c : Char) {m : Nat} (h : m = c.toNat) : Char.ofNat m = c := by
  rw [h, Char.ofNat_toNat]

theorem decodeFrom_one {pos : Nat} {b : UInt8} {r : List UInt8} (hb : b.toNat < 0x80) :
    decodeFrom pos (b :: r) = (decodeFrom (pos + 1) r).map (Char.ofNat b.toNat :: ·) := by
  conv => lhs; rw [decodeFrom.eq_def]
  simp only [UInt8.lt_iff_toNat_lt, UInt8.toNat_ofNat, Nat.reducePow, Nat.reduceMod]
  rw [if_pos hb]

theorem decodeFrom_two {pos : Nat} {b c : UInt8} {r : List UInt8}
    (hb : 0xC2 ≤ b.toNat ∧ b.toNat < 0xE0) (hc : c.toNat / 64 = 2) :
    decodeFrom pos (b :: c :: r) =
      (decodeFrom (pos + 2) r).map (Char.ofNat (b.toNat % 32 * 64 + c.toNat % 64) :: ·) := by
  conv => lhs; rw [decodeFrom.eq_def]
  simp only [UInt8.lt_iff_toNat_lt, UInt8.toNat_ofNat, Nat.reducePow, Nat.reduceMod]
  rw [if_neg (by omega), if_neg (by omega), if_pos (by omega),
    if_pos ((isContinuation_iff c).2 hc), low6_eq, toNat_and_mask b 0x1F 5 32 rfl rfl]

theorem decodeFrom_three {pos : Nat} {b c d : UInt8} {r : List UInt8}
    (hb : 0xE0 ≤ b.toNat ∧ b.toNat < 0xF0) (hc : secondOfThree b c = true)
    (hd : d.toNat / 64 = 2) :
    decodeFrom pos (b :: c :: d :: r) =
      (decodeFrom (pos + 3) r).map
        (Char.ofNat (b.toNat % 16 * 4096 + c.toNat % 64 * 64 + d.toNat % 64) :: ·) := by
  conv => lhs; rw [decodeFrom.eq_def]
  simp only [UInt8.lt_iff_toNat_lt, UInt8.toNat_ofNat, Nat.reducePow, Nat.reduceMod]
  rw [if_neg (by omega), if_neg (by omega), if_neg (by omega), if_pos (by omega), hc,
    Bool.not_true, if_neg Bool.false_ne_true, if_pos ((isContinuation_iff d).2 hd), low6_eq,
    low6_eq, toNat_and_mask b 0x0F 4 16 rfl rfl]

theorem decodeFrom_four {pos : Nat} {b c d e : UInt8} {r : List UInt8}
    (hb : 0xF0 ≤ b.toNat ∧ b.toNat < 0xF5) (hc : secondOfFour b c = true)
    (hd : d.toNat / 64 = 2) (he : e.toNat / 64 = 2) :
    decodeFrom pos (b :: c :: d :: e :: r) =
      (decodeFrom (pos + 4) r).map (Char.ofNat (b.toNat % 8 * 262144 + c.toNat % 64 * 4096 +
        d.toNat % 64 * 64 + e.toNat % 64) :: ·) := by
  conv => lhs; rw [decodeFrom.eq_def]
  simp only [UInt8.lt_iff_toNat_lt, UInt8.toNat_ofNat, Nat.reducePow, Nat.reduceMod]
  rw [if_neg (by omega), if_neg (by omega), if_neg (by omega), if_neg (by omega),
    if_pos (by omega), hc, Bool.not_true,
    if_neg Bool.false_ne_true, (isContinuation_iff d).2 hd, Bool.not_true,
    if_neg Bool.false_ne_true, if_pos ((isContinuation_iff e).2 he), low6_eq, low6_eq, low6_eq,
    toNat_and_mask b 0x07 3 8 rfl rfl]

theorem decodeFrom_utf8EncodeChar_append (pos : Nat) (c : Char) (rest : List UInt8) :
    decodeFrom pos (String.utf8EncodeChar c ++ rest) =
      (decodeFrom (pos + (String.utf8EncodeChar c).length) rest).map (c :: ·) := by
  have hv : c.toNat.isValidChar := c.valid
  unfold Nat.isValidChar at hv
  have byte : ∀ n : Nat, (UInt8.ofNat n).toNat = n % 256 := fun n => UInt8.toNat_ofNat'
  rw [utf8EncodeChar_eq]
  by_cases h1 : c.toNat ≤ 0x7F
  · rw [if_pos h1, List.singleton_append, decodeFrom_one (by rw [byte]; omega),
      ofNat_eq_char c (by rw [byte]; omega)]
    rfl
  by_cases h2 : c.toNat ≤ 0x7FF
  · rw [if_neg h1, if_pos h2, List.cons_append, List.singleton_append,
      decodeFrom_two (by rw [byte]; omega) (by rw [byte]; omega),
      ofNat_eq_char c (by simp only [byte]; omega)]
    rfl
  by_cases h3 : c.toNat ≤ 0xFFFF
  · rw [if_neg h1, if_neg h2, if_pos h3, List.cons_append, List.cons_append,
      List.singleton_append,
      decodeFrom_three (by rw [byte]; omega)
        ((secondOfThree_iff _ _).2 (by simp only [byte]; omega)) (by rw [byte]; omega),
      ofNat_eq_char c (by simp only [byte]; omega)]
    rfl
  · rw [if_neg h1, if_neg h2, if_neg h3, List.cons_append, List.cons_append, List.cons_append,
      List.singleton_append,
      decodeFrom_four (by rw [byte]; omega) ((secondOfFour_iff _ _).2 (by simp only [byte]; omega))
        (by rw [byte]; omega) (by rw [byte]; omega),
      ofNat_eq_char c (by simp only [byte]; omega)]
    rfl

theorem decodeFrom_flatMap (pos : Nat) (cs : List Char) :
    decodeFrom pos (cs.flatMap String.utf8EncodeChar) = .ok cs := by
  induction cs generalizing pos with
  | nil => rfl
  | cons c cs ih =>
    rw [List.flatMap_cons, decodeFrom_utf8EncodeChar_append, ih]
    rfl


theorem read_char {pos : Nat} {c : Char} {bytes tail : List UInt8} {cs : List Char}
    (henc : String.utf8EncodeChar c = bytes)
    (h : (decodeFrom (pos + bytes.length) tail).map (c :: ·) = .ok cs) :
    ∃ c tail' cs', bytes ++ tail = String.utf8EncodeChar c ++ tail' ∧ cs = c :: cs' ∧
      decodeFrom (pos + (String.utf8EncodeChar c).length) tail' = .ok cs' := by
  subst henc
  cases hd : decodeFrom (pos + (String.utf8EncodeChar c).length) tail with
  | error e =>
    rw [hd] at h
    cases h
  | ok cs' =>
    rw [hd] at h
    cases h
    exact ⟨c, tail, cs', rfl, rfl, hd⟩

theorem decodeFrom_cons_eq_ok {pos : Nat} {b : UInt8} {rest : List UInt8} {cs : List Char}
    (h : decodeFrom pos (b :: rest) = .ok cs) :
    ∃ c tail cs', b :: rest = String.utf8EncodeChar c ++ tail ∧ cs = c :: cs' ∧
      decodeFrom (pos + (String.utf8EncodeChar c).length) tail = .ok cs' := by
  rw [decodeFrom.eq_def] at h
  dsimp only at h
  simp only [UInt8.lt_iff_toNat_lt, UInt8.toNat_ofNat, Nat.reducePow, Nat.reduceMod, low6_eq,
    toNat_and_mask b 0x1F 5 32 rfl rfl, toNat_and_mask b 0x0F 4 16 rfl rfl,
    toNat_and_mask b 0x07 3 8 rfl rfl] at h
  split at h
  · exact read_char (encode_one ‹_›) h
  split at h
  · cases h
  split at h
  · rename_i h1 h2 h3
    split at h
    · cases h
    · rename_i c r
      split at h
      · exact read_char (encode_two ⟨by omega, h3⟩ ((isContinuation_iff c).1 ‹_›)) h
      · cases h
  split at h
  · rename_i h1 h2 h3 h4
    split at h
    · cases h
    · rename_i c r
      split at h
      · cases h
      · rename_i hc
        split at h
        · cases h
        · rename_i d r'
          split at h
          · exact read_char (encode_three ⟨by omega, h4⟩
              ((secondOfThree_iff b c).1 (by simpa using hc)) ((isContinuation_iff d).1 ‹_›)) h
          · cases h
  split at h
  · rename_i h1 h2 h3 h4 h5
    split at h
    · cases h
    · rename_i c r
      split at h
      · cases h
      · rename_i hc
        split at h
        · cases h
        · rename_i d r'
          split at h
          · cases h
          · rename_i hd
            split at h
            · cases h
            · rename_i e r''
              split at h
              · exact read_char (encode_four ⟨by omega, h5⟩
                  ((secondOfFour_iff b c).1 (by simpa using hc))
                  ((isContinuation_iff d).1 (by simpa using hd))
                  ((isContinuation_iff e).1 ‹_›)) h
              · cases h
  · cases h

theorem flatMap_of_decodeFrom {pos : Nat} {bs : List UInt8} {cs : List Char}
    (h : decodeFrom pos bs = .ok cs) : cs.flatMap String.utf8EncodeChar = bs := by
  match bs, h with
  | [], h =>
    cases h
    rfl
  | b :: rest, h =>
    obtain ⟨c, tail, cs', hsplit, rfl, htail⟩ := decodeFrom_cons_eq_ok h
    have : tail.length < (b :: rest).length := by
      rw [hsplit, List.length_append]
      have hne : String.utf8EncodeChar c ≠ [] := String.utf8EncodeChar_ne_nil
      have := List.length_pos_iff.2 hne
      omega
    rw [List.flatMap_cons, flatMap_of_decodeFrom htail, hsplit]

theorem decodeFrom_eq_ok_iff {pos : Nat} {bs : List UInt8} {cs : List Char} :
    decodeFrom pos bs = .ok cs ↔ cs.flatMap String.utf8EncodeChar = bs := by
  constructor
  · exact flatMap_of_decodeFrom
  · rintro rfl
    exact decodeFrom_flatMap pos cs


/-! ## Byte arrays and texts -/

theorem toList_loop_eq (bs : ByteArray) (i : Nat) (r : List UInt8) :
    ByteArray.toList.loop bs i r = r.reverse ++ bs.data.toList.drop i := by
  fun_induction ByteArray.toList.loop bs i r with
  | case1 i r hi ih =>
    rw [ih, List.reverse_cons, List.append_assoc]
    congr 1
    have hi' : i < bs.data.toList.length := by simpa using hi
    rw [List.drop_eq_getElem_cons hi']
    simp [ByteArray.get!, hi]
  | case2 i r hi =>
    rw [List.drop_of_length_le (by simp at hi ⊢; omega), List.append_nil]

theorem toList_eq_data (bs : ByteArray) : bs.toList = bs.data.toList := by
  simp [ByteArray.toList, toList_loop_eq]

theorem toByteArray_data_toList (bs : ByteArray) : bs.data.toList.toByteArray = bs :=
  ByteArray.ext (by simp)

theorem toUTF8_data_toList (s : String) :
    s.toUTF8.data.toList = s.toList.flatMap String.utf8EncodeChar := by
  rw [String.toUTF8_eq_toByteArray, ← String.ofList_toList (s := s), String.toByteArray_ofList,
    String.toList_ofList, List.utf8Encode, List.toList_data_toByteArray]

theorem decodeUtf8_eq_ok_iff (bytes : ByteArray) (s : String) :
    decodeUtf8 bytes = .ok s ↔ s.toUTF8 = bytes := by
  rw [decodeUtf8, toList_eq_data]
  constructor
  · intro h
    cases hd : decodeFrom 0 bytes.data.toList with
    | error e =>
      rw [hd] at h
      cases h
    | ok cs =>
      rw [hd] at h
      cases h
      rw [String.toUTF8_eq_toByteArray, String.toByteArray_ofList, List.utf8Encode,
        decodeFrom_eq_ok_iff.1 hd, toByteArray_data_toList]
  · rintro rfl
    rw [toUTF8_data_toList, decodeFrom_eq_ok_iff.2 rfl]
    simp [Except.map, String.ofList_toList]

theorem isValidUTF8_iff (bytes : ByteArray) :
    bytes.IsValidUTF8 ↔ ∃ s : String, s.toUTF8 = bytes := by
  constructor
  · rintro ⟨m, rfl⟩
    exact ⟨String.ofList m, by simp⟩
  · rintro ⟨s, rfl⟩
    exact s.isValidUTF8

theorem decodeUtf8_eq_error_iff (bytes : ByteArray) :
    (∃ e, decodeUtf8 bytes = .error e) ↔ ¬ bytes.IsValidUTF8 := by
  rw [isValidUTF8_iff]
  constructor
  · rintro ⟨e, he⟩ ⟨s, hs⟩
    rw [(decodeUtf8_eq_ok_iff bytes s).2 hs] at he
    cases he
  · intro h
    cases hd : decodeUtf8 bytes with
    | error e => exact ⟨e, rfl⟩
    | ok s => exact absurd ⟨s, (decodeUtf8_eq_ok_iff bytes s).1 hd⟩ h

end Reckon.Text
