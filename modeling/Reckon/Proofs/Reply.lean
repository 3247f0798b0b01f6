import Mathlib
import Reckon.Session
import Reckon.Proofs.Utf8

set_option autoImplicit false

/-!
# Reading a reply piece by piece

The server joins every piece of a request before decoding it; the client decodes each piece of the
reply on its own, and where the reply is cut is the network's choice. The client's decoding gives
a text exactly when each piece encodes a text (`decodeEach_eq_ok_iff`), so a reply that encodes `t`
gives `t` exactly when no cut falls inside a character (`decodeEach_of_chunking`). The report on a
single `é`, cut after its first byte, cannot be decoded (`reply_cut_inside_character`).
-/

namespace Reckon.Session
open Text

/-- The ways the bytes `b` can arrive when each read returns from one to `n` bytes: pieces of that
size that together are `b`. -/
def Chunking (n : Nat) (b : ByteArray) (cs : List ByteArray) : Prop :=
  (∀ c ∈ cs, 0 < c.size ∧ c.size ≤ n) ∧ cs.flatMap (fun c => c.data.toList) = b.data.toList

instance (n : Nat) (b : ByteArray) (cs : List ByteArray) : Decidable (Chunking n b cs) :=
  inferInstanceAs (Decidable ((∀ c ∈ cs, 0 < c.size ∧ c.size ≤ n) ∧
    cs.flatMap (fun c => c.data.toList) = b.data.toList))

theorem decodeEach_cons_eq_ok {c : ByteArray} {cs : List ByteArray} {t : String} :
    decodeEach (c :: cs) = .ok t ↔
      ∃ s r, decodeUtf8 c = .ok s ∧ decodeEach cs = .ok r ∧ s ++ r = t := by
  simp only [decodeEach]
  cases decodeUtf8 c with
  | error e => simp [bind, Except.bind]
  | ok s =>
    cases decodeEach cs with
    | error e => simp [bind, Except.bind]
    | ok r => simp [bind, Except.bind, pure, Except.pure]

/-- The client decodes its pieces to a text exactly when each piece encodes a text; the text is
then theirs, in order. -/
theorem decodeEach_eq_ok_iff (cs : List ByteArray) (t : String) :
    decodeEach cs = .ok t ↔ ∃ ts : List String, ts.map String.toUTF8 = cs ∧ String.join ts = t := by
  induction cs generalizing t with
  | nil =>
    constructor
    · intro h
      cases h
      exact ⟨[], rfl, rfl⟩
    · rintro ⟨ts, hts, rfl⟩
      rw [List.map_eq_nil_iff] at hts
      subst hts
      rfl
  | cons c cs ih =>
    rw [decodeEach_cons_eq_ok]
    constructor
    · rintro ⟨s, r, hs, hr, rfl⟩
      obtain ⟨ts, rfl, rfl⟩ := (ih r).1 hr
      exact ⟨s :: ts, by rw [List.map_cons, (decodeUtf8_eq_ok_iff c s).1 hs], String.join_cons⟩
    · rintro ⟨_ | ⟨s, ts⟩, hts, rfl⟩
      · cases hts
      · rw [List.map_cons, List.cons.injEq] at hts
        exact ⟨s, String.join ts, (decodeUtf8_eq_ok_iff c s).2 hts.1, (ih _).2 ⟨ts, hts.2, rfl⟩,
          String.join_cons.symm⟩

theorem toUTF8_join_data (ts : List String) :
    (String.join ts).toUTF8.data.toList = ts.flatMap fun t => t.toUTF8.data.toList := by
  simp only [toUTF8_data_toList, String.toList_join, List.flatMap_assoc]

theorem exists_map_toUTF8 {cs : List ByteArray} (h : ∀ c ∈ cs, c.IsValidUTF8) :
    ∃ ts : List String, ts.map String.toUTF8 = cs := by
  induction cs with
  | nil => exact ⟨[], rfl⟩
  | cons c cs ih =>
    obtain ⟨s, hs⟩ := (isValidUTF8_iff c).1 (h c List.mem_cons_self)
    obtain ⟨ts, hts⟩ := ih fun d hd => h d (List.mem_cons_of_mem c hd)
    exact ⟨s :: ts, by rw [List.map_cons, hs, hts]⟩

theorem isValidUTF8_of_decodeEach {cs : List ByteArray} {t : String}
    (h : decodeEach cs = .ok t) : ∀ c ∈ cs, c.IsValidUTF8 := by
  obtain ⟨ts, rfl, -⟩ := (decodeEach_eq_ok_iff cs t).1 h
  intro c hc
  obtain ⟨s, -, rfl⟩ := List.mem_map.1 hc
  exact (isValidUTF8_iff _).2 ⟨s, rfl⟩

theorem decodeEach_eq_ok_of_isValidUTF8 {cs : List ByteArray} {t : String}
    (hcs : cs.flatMap (fun c => c.data.toList) = t.toUTF8.data.toList)
    (h : ∀ c ∈ cs, c.IsValidUTF8) : decodeEach cs = .ok t := by
  obtain ⟨ts, rfl⟩ := exists_map_toUTF8 h
  have hjoin : (String.join ts).toUTF8 = t.toUTF8 := by
    apply ByteArray.ext
    apply Array.toList_inj.1
    rw [toUTF8_join_data, ← hcs, List.flatMap_map]
  exact (decodeEach_eq_ok_iff _ t).2 ⟨ts, rfl, String.toByteArray_inj.1 hjoin⟩

/-- However the encoding of `t` arrives, the client gets `t` exactly when every piece is UTF-8 by
itself, and fails exactly when a piece is not; a cut inside a character is such a piece. -/
theorem decodeEach_of_chunking {n : Nat} {t : String} {cs : List ByteArray}
    (hcs : Chunking n t.toUTF8 cs) :
    (decodeEach cs = .ok t ↔ ∀ c ∈ cs, c.IsValidUTF8) ∧
      ((∃ e, decodeEach cs = .error e) ↔ ∃ c ∈ cs, ¬ c.IsValidUTF8) := by
  refine ⟨⟨isValidUTF8_of_decodeEach, decodeEach_eq_ok_of_isValidUTF8 hcs.2⟩, ?_⟩
  constructor
  · rintro ⟨e, he⟩
    by_contra hall
    push Not at hall
    rw [decodeEach_eq_ok_of_isValidUTF8 hcs.2 hall] at he
    cases he
  · rintro ⟨c, hc, hbad⟩
    cases hd : decodeEach cs with
    | error e => exact ⟨e, rfl⟩
    | ok r => exact absurd (isValidUTF8_of_decodeEach hd c hc) hbad

/-- The text of a single piece that is a whole text's encoding. -/
theorem decodeEach_of_chunking_one_piece :
    Chunking pieceSize "1 + 1 = 2.0\n".toUTF8 ["1 + 1 = 2.0\n".toUTF8] ∧
      decodeEach ["1 + 1 = 2.0\n".toUTF8] = .ok "1 + 1 = 2.0\n" :=
  ⟨by decide +kernel, (@decodeEach_of_chunking pieceSize _ _ (by decide +kernel)).1.2 (by decide +kernel)⟩

/-- The report on the single letter `é` arrives cut after its first byte, the first byte of `é`,
and the client cannot decode the first piece. -/
theorem reply_cut_inside_character :
    Session.serve "é\n".toUTF8 = .ok (Batch.report (Batch.run "é\n")) ∧
      ∃ cs, Chunking pieceSize (Batch.report (Batch.run "é\n")).toUTF8 cs ∧
        decodeEach cs = .error ⟨.truncated, 0, 1, 0xC3⟩ :=
  ⟨by decide +kernel,
    [(Batch.report (Batch.run "é\n")).toUTF8.extract 0 1,
      (Batch.report (Batch.run "é\n")).toUTF8.extract 1 18], by decide +kernel, by decide +kernel⟩

/-! ## Pieces of a fixed size -/

theorem flatMap_range_take_drop {α : Type} (l : List α) (n N : Nat) :
    (List.range N).flatMap (fun k => (l.take (k * n + n)).drop (k * n)) = l.take (N * n) := by
  induction N with
  | zero => simp
  | succ N ih =>
    rw [List.range_succ, List.flatMap_append, ih, List.flatMap_singleton, List.drop_take,
      Nat.add_sub_cancel_left, Nat.succ_mul, List.take_add]

theorem pieces_chunking {n : Nat} (hn : 0 < n) (b : ByteArray) : Chunking n b (pieces n b) := by
  constructor
  · intro c hc
    obtain ⟨k, hk, rfl⟩ := List.mem_map.1 hc
    have hk' : (k + 1) * n ≤ b.size + n - 1 :=
      (Nat.le_div_iff_mul_le hn).1 (List.mem_range.1 hk)
    rw [Nat.succ_mul] at hk'
    rw [ByteArray.size_extract]
    generalize k * n = m at hk' ⊢
    omega
  · have hcover : b.size ≤ (b.size + n - 1) / n * n := by
      have := Nat.lt_div_mul_add (a := b.size + n - 1) hn
      generalize (b.size + n - 1) / n * n = m at this ⊢
      omega
    simp only [pieces, List.flatMap_map, ByteArray.data_extract, Array.toList_extract,
      List.extract_eq_take_drop, ← List.drop_take]
    rw [flatMap_range_take_drop, List.take_of_length_le (by simpa using hcover)]

/-- The client's text of a reply that encodes `t`: `t`, exactly when no piece of `pieceSize`
bytes ends inside a character. -/
theorem receive_eq_ok_iff (t : String) :
    receive t.toUTF8 = .ok t ↔ ∀ c ∈ pieces pieceSize t.toUTF8, c.IsValidUTF8 :=
  (decodeEach_of_chunking (pieces_chunking (by decide) t.toUTF8)).1

theorem received_eq_report {s : Archive.Scratch} {name : String} {bytes : ByteArray}
    {session : Session} (h : run s name bytes = .ok session) : session.received = session.report := by
  unfold run at h
  cases ht : Input.text s name bytes with
  | error e =>
    simp only [ht, bind, Except.bind, Except.mapError] at h
    cases h
  | ok text =>
    cases hr : receive (Batch.report (Batch.run text)).toUTF8 with
    | error e =>
      simp only [ht, hr, bind, Except.bind, Except.mapError] at h
      cases h
    | ok r =>
      simp only [ht, hr, bind, Except.bind, Except.mapError, pure, Except.pure,
        Except.ok.injEq] at h
      subst h
      have hrep := (receive_eq_ok_iff _).2 (isValidUTF8_of_decodeEach hr)
      rw [hr, Except.ok.injEq] at hrep
      exact hrep

end Reckon.Session
