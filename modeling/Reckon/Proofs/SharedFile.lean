import Mathlib
import Reckon.Exchange
import Reckon.Proofs.Schedule
import Reckon.Proofs.Utf8

set_option autoImplicit false

/-!
# One results file, two handles

The client and the server of a command-line run write one results file through two handles, and
opening a handle empties the file. Nothing orders the client's opening against the server's lines,
and a line the server writes after it lands at the server's offset, past the new end.
`file_after_cut`: when a run returns, the file holds the server's lines with the first `c` of them
turned into zero bytes, for some `c`. The proof follows the file through the server's phases:
`Consistent` says what the file holds in each, and `Consistent.step` that every step keeps it.
-/

namespace Reckon

open Text

/-! ## Writes at an offset -/

theorem writeAt_of_length_eq {f d : List UInt8} {o : Nat} (h : f.length = o) :
    writeAt f o d = f ++ d := by
  unfold writeAt
  split
  · simp_all
  · subst h
    simp

theorem writeAt_nil_file {o : Nat} {d : List UInt8} (hd : d ≠ []) :
    writeAt [] o d = List.replicate o 0 ++ d := by
  simp [writeAt, hd]

theorem writeAt_slice {r : List UInt8} {got k : Nat} (h : got + k ≤ r.length) :
    writeAt r got ((r.drop got).take k) = r := by
  unfold writeAt
  split
  · rfl
  · have hlen : ((r.drop got).take k).length = k := by simp; omega
    rw [hlen, Nat.sub_eq_zero_of_le (by omega), List.replicate_zero, List.append_nil,
      ← List.drop_drop, List.append_assoc, List.take_append_drop, List.take_append_drop]

theorem writeAt_take_slice {r : List UInt8} {got k : Nat} (h : got + k ≤ r.length) :
    writeAt (r.take got) got ((r.drop got).take k) = r.take (got + k) := by
  rw [writeAt_of_length_eq (by simp; omega), List.take_add]

/-! ## The file after a cut -/

@[simp] theorem linesBytes_nil : linesBytes [] = [] := rfl

@[simp] theorem linesBytes_append (a b : List String) :
    linesBytes (a ++ b) = linesBytes a ++ linesBytes b := List.flatMap_append

@[simp] theorem linesBytes_singleton (l : String) : linesBytes [l] = l.toUTF8.data.toList := by
  simp [linesBytes]

/-- What the lines `ls`, written one after the other, leave in a file that was emptied after the
first `c` of them: zero bytes in their place, then the rest; nothing, if no line came after. -/
def afterCut (c : Nat) (ls : List String) : List UInt8 :=
  if c < ls.length then List.replicate (linesBytes (ls.take c)).length 0 ++ linesBytes (ls.drop c)
  else []

theorem afterCut_of_lt {c : Nat} {ls : List String} (h : c < ls.length) :
    afterCut c ls = List.replicate (linesBytes (ls.take c)).length 0 ++ linesBytes (ls.drop c) :=
  if_pos h

theorem afterCut_of_le {c : Nat} {ls : List String} (h : ls.length ≤ c) : afterCut c ls = [] :=
  if_neg (Nat.not_lt.2 h)

theorem afterCut_zero (ls : List String) : afterCut 0 ls = linesBytes ls := by
  cases ls with
  | nil => rfl
  | cons l ls => simp [afterCut_of_lt]

theorem length_afterCut {c : Nat} {ls : List String} (h : c < ls.length) :
    (afterCut c ls).length = (linesBytes ls).length := by
  rw [afterCut_of_lt h, List.length_append, List.length_replicate, ← List.length_append,
    ← linesBytes_append, List.take_append_drop]

theorem afterCut_concat {c : Nat} {ls : List String} {l : String} (hc : c ≤ ls.length)
    (hl : 0 < l.utf8ByteSize) :
    writeAt (afterCut c ls) (linesBytes ls).length l.toUTF8.data.toList = afterCut c (ls ++ [l]) := by
  have hlt : c < (ls ++ [l]).length := by simp; omega
  rw [afterCut_of_lt hlt, List.take_append_of_le_length hc, List.drop_append_of_le_length hc,
    linesBytes_append, linesBytes_singleton]
  rcases Nat.lt_or_eq_of_le hc with hlt' | rfl
  · rw [writeAt_of_length_eq (length_afterCut hlt'), afterCut_of_lt hlt', List.append_assoc]
  · have hne : l.toUTF8.data.toList ≠ [] := List.ne_nil_of_length_pos (by simpa using hl)
    rw [afterCut_of_le le_rfl, writeAt_nil_file hne, List.take_length, List.drop_length,
      linesBytes_nil, List.nil_append]

/-! ## The lines the server writes -/

theorem Batch.receive_toUTF8 (text : String) : Batch.receive text.toUTF8 = .ok text :=
  (decodeUtf8_eq_ok_iff _ _).2 rfl

theorem Outcome.utf8ByteSize_reportLine_pos (o : Outcome) : 0 < o.reportLine.utf8ByteSize := by
  unfold Outcome.reportLine
  split <;> rw [String.utf8ByteSize_append] <;> exact Nat.lt_add_left _ (by decide)

theorem Pool.Invariant.utf8ByteSize_pos {p : Platform} {jobs : List Job} {s : Pool} {l : String}
    (hs : Pool.Invariant p jobs s) (hl : l ∈ s.written) : 0 < l.utf8ByteSize := by
  obtain ⟨k, -, rfl⟩ := hs.mem_written hl
  exact Outcome.utf8ByteSize_reportLine_pos k.job.run

/-! ## What the file holds in each phase -/

namespace Exchange

/-- The file while the server runs its pool and has written the lines `ls`: those lines, if the
client has not opened it yet; else what they leave after the client's opening, which came after
some of them. -/
def FileWhilePooling (client : Client) (file : List UInt8) (ls : List String) : Prop :=
  (client = .requested ∧ file = linesBytes ls) ∨
    (client = .reading 0 ∧ ∃ c ≤ ls.length, file = afterCut c ls)

/-- The file once the server has read it back as `reply`: the reply, until the client opens it,
and afterwards the reply or the part of it the client has written so far. -/
def FileAfterReply (client : Client) (file reply : List UInt8) : Prop :=
  (client = .requested ∧ file = reply) ∨
    (∃ got, client = .reading got ∧ got ≤ reply.length ∧ (file = reply ∨ file = reply.take got)) ∨
    (client = .done ∧ file = reply) ∨ ∃ err, client = .failed err

def Consistent (p : Platform) (text : String) : Exchange → Prop
  | ⟨file, client, .listening⟩ =>
    client = .sending ∨ client = .requested ∨ (client = .reading 0 ∧ file = [])
  | ⟨file, client, .receiving⟩ =>
    file = [] ∧ (client = .sending ∨ client = .requested ∨ client = .reading 0)
  | ⟨file, client, .pooling s k o⟩ =>
    Pool.Reachable p (Batch.jobs text) s ∧ k ≤ s.written.length ∧
      o = (linesBytes (s.written.take k)).length ∧ FileWhilePooling client file (s.written.take k)
  | ⟨file, client, .closed s r⟩ =>
    Pool.Reachable p (Batch.jobs text) s ∧ s.loop = .send ∧
      (∃ c ≤ s.written.length, r = afterCut c s.written) ∧ FileAfterReply client file r

theorem FileWhilePooling.flush {client : Client} {file : List UInt8} {ls : List String}
    {l : String} (h : FileWhilePooling client file ls) (hl : 0 < l.utf8ByteSize) :
    FileWhilePooling client (writeAt file (linesBytes ls).length l.toUTF8.data.toList)
      (ls ++ [l]) := by
  rcases h with ⟨rfl, rfl⟩ | ⟨rfl, c, hc, rfl⟩
  · exact Or.inl ⟨rfl, by rw [writeAt_of_length_eq rfl, linesBytes_append, linesBytes_singleton]⟩
  · exact Or.inr ⟨rfl, c, by simp; omega, afterCut_concat hc hl⟩

/-- Opened while the server runs its pool, the file is what the lines so far leave after a cut
behind all of them: nothing. -/
theorem FileWhilePooling.create (ls : List String) : FileWhilePooling (.reading 0) [] ls :=
  Or.inr ⟨rfl, ls.length, le_rfl, (afterCut_of_le le_rfl).symm⟩

theorem FileWhilePooling.reply {client : Client} {file : List UInt8} {ls : List String}
    (h : FileWhilePooling client file ls) :
    (∃ c ≤ ls.length, file = afterCut c ls) ∧ FileAfterReply client file file := by
  rcases h with ⟨rfl, rfl⟩ | ⟨rfl, c, hc, rfl⟩
  · exact ⟨⟨0, Nat.zero_le _, (afterCut_zero ls).symm⟩, Or.inl ⟨rfl, rfl⟩⟩
  · exact ⟨⟨c, hc, rfl⟩, Or.inr (Or.inl ⟨0, rfl, Nat.zero_le _, Or.inl rfl⟩)⟩

theorem FileAfterReply.create (reply : List UInt8) : FileAfterReply (.reading 0) [] reply :=
  Or.inr (Or.inl ⟨0, rfl, Nat.zero_le _, Or.inr List.take_zero.symm⟩)

theorem FileAfterReply.reading {got : Nat} {file reply : List UInt8}
    (h : FileAfterReply (.reading got) file reply) :
    got ≤ reply.length ∧ (file = reply ∨ file = reply.take got) := by
  rcases h with ⟨h, -⟩ | ⟨got', h, hle, hfile⟩ | ⟨h, -⟩ | ⟨err, h⟩
  · cases h
  · cases h
    exact ⟨hle, hfile⟩
  · cases h
  · cases h

theorem FileAfterReply.recv {got k : Nat} {file reply : List UInt8}
    (h : FileAfterReply (.reading got) file reply) (hleft : got + k ≤ reply.length) :
    FileAfterReply (.reading (got + k)) (writeAt file got ((reply.drop got).take k)) reply := by
  refine Or.inr (Or.inl ⟨got + k, rfl, hleft, ?_⟩)
  rcases h.reading.2 with rfl | rfl
  · exact Or.inl (writeAt_slice hleft)
  · exact Or.inr (writeAt_take_slice hleft)

theorem FileAfterReply.finish {got : Nat} {file reply : List UInt8}
    (h : FileAfterReply (.reading got) file reply) (hend : got = reply.length) :
    FileAfterReply .done file reply := by
  refine Or.inr (Or.inr (Or.inl ⟨rfl, ?_⟩))
  rcases h.reading.2 with rfl | rfl
  · rfl
  · rw [hend, List.take_length]

theorem FileAfterReply.done {file reply : List UInt8} (h : FileAfterReply .done file reply) :
    file = reply := by
  rcases h with ⟨h, -⟩ | ⟨got, h, -⟩ | ⟨-, hfile⟩ | ⟨err, h⟩
  · cases h
  · cases h
  · exact hfile
  · cases h

theorem toUTF8_of_decode_piece {r : List UInt8} {got k : Nat} {t : String}
    (ht : decodeUtf8 (piece r got k) = .ok t) : t.toUTF8.data.toList = (r.drop got).take k := by
  rw [(decodeUtf8_eq_ok_iff _ _).1 ht, piece, List.toList_data_toByteArray]

theorem take_written_of_step {p : Platform} {s t : Pool} (h : Pool.Step p s t) :
    t.written.take s.written.length = s.written ∧ s.written.length ≤ t.written.length := by
  obtain ⟨rest, hrest⟩ := h.written_prefix
  rw [← hrest]
  simp

variable {p : Platform} {text : String}

theorem Consistent.step {e e' : Exchange} (he : Consistent p text e) (h : Step p text e e') :
    Consistent p text e' := by
  obtain ⟨file, client, server⟩ := e
  cases h with
  | accept hs =>
    cases hs
    rcases he with rfl | rfl | ⟨rfl, -⟩
    all_goals simp [Consistent]
  | shutdown hc =>
    cases hc
    cases server with
    | listening => exact Or.inr (Or.inl rfl)
    | receiving => exact ⟨he.1, Or.inr (Or.inl rfl)⟩
    | pooling s k o => simp [Consistent, FileWhilePooling] at he
    | closed s r => simp [Consistent, FileAfterReply] at he
  | receive hs hc ht =>
    cases hs
    rw [Batch.receive_toUTF8, Except.ok.injEq] at ht
    subst ht
    obtain ⟨rfl, hclient⟩ := he
    refine ⟨Relation.ReflTransGen.refl, le_rfl, rfl, ?_⟩
    rcases hclient with h | rfl | rfl
    · exact absurd h hc
    · exact Or.inl ⟨rfl, rfl⟩
    · exact Or.inr ⟨rfl, 0, le_rfl, rfl⟩
  | create hc =>
    cases hc
    cases server with
    | listening => exact Or.inr (Or.inr ⟨rfl, rfl⟩)
    | receiving => exact ⟨rfl, Or.inr (Or.inr rfl)⟩
    | pooling s k o => exact ⟨he.1, he.2.1, he.2.2.1, FileWhilePooling.create _⟩
    | closed s r => exact ⟨he.1, he.2.1, he.2.2.1, FileAfterReply.create r⟩
  | @pool s t k o hs hk hstep =>
    cases hs
    obtain ⟨hreach, -, ho, hfile⟩ := he
    obtain ⟨htake, hle⟩ := take_written_of_step hstep
    subst hk
    have hkeep : t.written.take s.written.length = s.written.take s.written.length := by
      rw [htake, List.take_length]
    exact ⟨hreach.tail hstep, hle, hkeep ▸ ho, hkeep ▸ hfile⟩
  | @flush s k o l hs hl =>
    cases hs
    obtain ⟨hreach, hk, rfl, hfile⟩ := he
    have hlt : k < s.written.length := (List.getElem?_eq_some_iff.1 hl).1
    have htake : s.written.take (k + 1) = s.written.take k ++ [l] := by
      rw [List.take_add_one, hl, Option.toList_some]
    have hpos := (Pool.Reachable.invariant hreach).utf8ByteSize_pos (List.mem_of_getElem? hl)
    refine ⟨hreach, hlt, ?_, ?_⟩
    · rw [htake, linesBytes_append, linesBytes_singleton, List.length_append]
      simp
    · rw [htake]
      exact hfile.flush hpos
  | reply hs hk hsend =>
    cases hs
    obtain ⟨hreach, -, -, hfile⟩ := he
    subst hk
    rw [List.take_length] at hfile
    exact ⟨hreach, hsend, hfile.reply.1, hfile.reply.2⟩
  | recv hc hs hk hsize hleft ht =>
    cases hc
    cases hs
    obtain ⟨hreach, hsend, hcut, hfile⟩ := he
    rw [toUTF8_of_decode_piece ht]
    exact ⟨hreach, hsend, hcut, hfile.recv hleft⟩
  | fault hc hs hk hsize hleft herr =>
    cases hs
    obtain ⟨hreach, hsend, hcut, -⟩ := he
    exact ⟨hreach, hsend, hcut, Or.inr (Or.inr (Or.inr ⟨_, rfl⟩))⟩
  | finish hc hs hend =>
    cases hc
    cases hs
    obtain ⟨hreach, hsend, hcut, hfile⟩ := he
    exact ⟨hreach, hsend, hcut, hfile.finish hend⟩

theorem reaches_pool {e : Exchange} {s t : Pool} {k o : Nat} (hs : e.server = .pooling s k o)
    (hk : k = s.written.length) (h : Relation.ReflTransGen (Pool.Step p) s t)
    (hw : t.written.length ≤ s.written.length) :
    Relation.ReflTransGen (Step p text) e { e with server := .pooling t k o } := by
  obtain ⟨file, client, server⟩ := e
  cases hs
  induction h with
  | refl => exact Relation.ReflTransGen.refl
  | @tail b c hrun hstep ih =>
    -- the lines only grow along the run, and end where they began, so they never change
    have hlen : b.written.length = s.written.length :=
      le_antisymm (hstep.written_prefix.length_le.trans hw) (Pool.written_prefix_of_run hrun).length_le
    exact (ih hlen.le).tail (.pool rfl (hk.trans hlen.symm) hstep)

theorem Reachable.consistent {old : List UInt8} {e : Exchange} (h : Reachable p text old e) :
    Consistent p text e := by
  induction h with
  | refl => exact Or.inl rfl
  | tail _ hstep ih => exact ih.step hstep

end Exchange

/-- When a run returns, the results file holds the lines the server wrote, the lines of the
batch each once, but with the first `c` of them turned into zero bytes, where `c` counts the
lines the server wrote before the client opened the file; it holds nothing if that was all of
them. -/
theorem file_after_cut (p : Platform) (text : String) (old : List UInt8) (e : Exchange)
    (hrun : Exchange.Reachable p text old e) (hdone : e.client = .done) :
    ∃ s r c, e.server = .closed s r ∧ s.written.Perm ((Batch.run text).map Outcome.reportLine) ∧
      c ≤ s.written.length ∧ e.file = afterCut c s.written := by
  have hc := hrun.consistent
  obtain ⟨file, client, server⟩ := e
  cases hdone
  cases server with
  | listening => simp [Exchange.Consistent] at hc
  | receiving => simp [Exchange.Consistent] at hc
  | pooling s k o => simp [Exchange.Consistent, Exchange.FileWhilePooling] at hc
  | closed s r =>
    obtain ⟨hreach, hsend, ⟨c, hle, rfl⟩, hfile⟩ := hc
    exact ⟨s, _, c, rfl, (Pool.Reachable.invariant hreach).written_perm_of_send hsend, hle,
      hfile.done⟩

/-- A run on the one expression `x`: the server writes its line, then the client opens the file,
and the server reads back and sends an empty file. -/
theorem Exchange.reaches_empty_file :
    ∃ s, Exchange.Reachable ⟨1, 212992⟩ "x\n" [] ⟨[], .done, .closed s []⟩ ∧
      s.written = ["x -> ERROR: 'x'\n"] := by
  let p : Platform := ⟨1, 212992⟩
  have hjobs : Batch.jobs "x\n" = [⟨1, "x"⟩] := by decide
  let s0 := Pool.start p (Batch.jobs "x\n")
  let s1 := s0.spawn ⟨1, "x"⟩ []
  let k1 := Worker.start ⟨1, "x"⟩
  let s2 := s1.update 0 { k1 with sent := k1.size, exited := true }
  let s3 := { s2 with loop := .drain }
  let s4 := s3.collectWith fun _ => false
  let s5 := { s4 with loop := .send }
  -- the worker runs to its end and the server goes on to collect it; no line is written yet
  have hpool : Relation.ReflTransGen (Pool.Step p) s0 s3 :=
    ((Relation.ReflTransGen.single (.server (.spawn rfl hjobs (by decide)
      (by decide)))).trans (@Pool.reaches_exited p s1 0 k1 rfl rfl (by decide) (by decide))).tail
      (.server (.endFill rfl rfl))
  have hstart : Exchange.Reachable p "x\n" [] ⟨[], .requested, .pooling s0 0 0⟩ :=
    ((Relation.ReflTransGen.single (.accept rfl)).tail (.shutdown rfl)).tail
      (.receive rfl (by simp) (Batch.receive_toUTF8 _))
  -- the server collects the worker and writes its line; the client opens the file only then
  have hline : s4.written[0]? = some "x -> ERROR: 'x'\n" := by decide +kernel
  have hrun : Exchange.Reachable p "x\n" [] ⟨[], .done, .closed s5 []⟩ :=
    ((((((hstart.trans (Exchange.reaches_pool rfl rfl hpool (by decide))).tail
      (.pool rfl rfl (.server (.drain rfl (by decide) (by decide))))).tail
      (.flush rfl hline)).tail
      (.pool rfl (by decide +kernel) (.server (.finish rfl (by decide))))).tail
      (.create rfl)).tail
      (.reply rfl (by decide +kernel) rfl)).tail (.finish rfl rfl rfl)
  exact ⟨s5, hrun, by decide +kernel⟩

/-- The lines of a run on `x`, in the form `file_after_cut` gives. -/
theorem file_after_cut_on_one_expression :
    ∃ e : Exchange, Exchange.Reachable ⟨1, 212992⟩ "x\n" [] e ∧ e.client = .done ∧
      ∃ s r c, e.server = .closed s r ∧
        s.written.Perm ((Batch.run "x\n").map Outcome.reportLine) ∧ c ≤ s.written.length ∧
        e.file = afterCut c s.written := by
  obtain ⟨s, hrun, -⟩ := Exchange.reaches_empty_file
  exact ⟨_, hrun, rfl, file_after_cut _ _ _ _ hrun rfl⟩

/-- The server writes the line of `x`, and the run returns with the results file empty. -/
theorem run_empties_results_file :
    ∃ e : Exchange, Exchange.Reachable ⟨1, 212992⟩ "x\n" [] e ∧ e.client = .done ∧
      e.file = [] ∧ ∃ s r, e.server = .closed s r ∧ s.written = ["x -> ERROR: 'x'\n"] := by
  obtain ⟨s, hrun, hwritten⟩ := Exchange.reaches_empty_file
  exact ⟨_, hrun, rfl, rfl, s, [], rfl, hwritten⟩

end Reckon
