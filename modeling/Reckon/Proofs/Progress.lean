import Mathlib
import Reckon.Proofs.Schedule

set_option autoImplicit false

/-!
# When the server finishes

The server reads a worker's pipe only once the worker has ended, and a worker ends only once all
of its payload is in the pipe. A payload larger than the pipe leaves its worker waiting for room
that never comes, and the server waiting for the worker: from then on the results file is never
sent. When every payload fits, the server can always go on: a worker can write all it has and
end, a call of the collection then removes it, and every step of the server's loops leaves less
to do.

The main statement is `start_finishes_iff_payloads_fit`: on a machine with a processor, the
server can go on to send the results file from every state it reaches exactly when every payload
of the batch fits a pipe. `start_stalls_on_long_line` shows one long line stopping it.
-/

namespace Reckon

namespace Pool

variable {p : Platform} {jobs : List Job} {s : Pool}

theorem size_eq (k : Worker) : k.size = (Worker.start k.job).size := rfl

/-! ## A payload that does not fit -/

/-- Once the results file is sent, every payload of the batch has gone through its pipe, so
each fits one. -/
theorem size_le_capacity_of_send (hs : Invariant p jobs s) (hsend : s.loop = .send) :
    ∀ j ∈ jobs, (Worker.start j).size ≤ p.capacity := by
  intro j hj
  rw [← hs.workers_job_of_send hsend] at hj
  obtain ⟨k, hk, rfl⟩ := List.mem_map.1 hj
  obtain ⟨w, hw, hget⟩ := List.getElem_of_mem hk
  -- the worker is collected, so it has ended, and it ended with all its payload written
  have hended := hs.ended_of_not_mem w hw (by simp [hs.idle_of_send hsend])
  have hexit : k.exited = true := by
    simpa [ended, List.getElem?_eq_getElem hw, hget] using hended
  obtain ⟨-, hcap, hall'⟩ := hs.sent_le k hk
  rw [← size_eq, ← hall' hexit]
  exact hcap

/-! ## Every payload fits -/

def seenNow (s : Pool) (i : Nat) : Bool := !((s.active[i]?.map s.ended).getD false)

theorem answers_seenNow (s : Pool) : s.Answers s.seenNow := by
  intro i hi h
  simpa [seenNow, List.getElem?_eq_getElem hi] using h

def rank : Loop → Nat
  | .fill => 2
  | .drain => 1
  | _ => 0

/-- What is left to do: two for each job not yet given a worker, one for each worker not yet
collected, and the loops not yet left. -/
def work (s : Pool) : Nat := 2 * s.pending.length + s.active.length + rank s.loop

theorem length_keptAt_lt {α : Type} {seen : Nat → Bool} {l : List α} {i : Nat}
    (hi : i < l.length) (hseen : seen i = false) : (keptAt seen l).length < l.length := by
  have hmem : l[i] ∈ removedAt seen l := by
    refine List.mem_map.2 ⟨(l[i], i), List.mem_filter.2 ⟨?_, by simp [hseen]⟩, rfl⟩
    exact List.mem_zipIdx_iff_getElem?.2 (List.getElem?_eq_getElem hi)
  have hlen := (keptAt_append_removedAt_perm seen l).length_eq
  have hpos := List.length_pos_of_mem hmem
  rw [List.length_append] at hlen
  omega

theorem work_collectWith_lt {i : Nat} (hi : i < s.active.length) (hended : s.ended s.active[i]) :
    (s.collectWith s.seenNow).work < s.work := by
  have hseen : s.seenNow i = false := by simp [seenNow, List.getElem?_eq_getElem hi, hended]
  have hlt := length_keptAt_lt hi hseen
  simp only [work, collectWith_pending, collectWith_loop, collectWith_active]
  omega

/-- When every payload fits, any worker still to collect can be brought to its end, and nothing
else changes that the server looks at. -/
theorem exists_ended (hs : Invariant p jobs s)
    (hfit : ∀ j ∈ jobs, (Worker.start j).size ≤ p.capacity) {w : Nat} (hw : w ∈ s.active) :
    ∃ u, Relation.ReflTransGen (Step p) s u ∧ u.ended w = true ∧ u.active = s.active ∧
      u.pending = s.pending ∧ u.loop = s.loop ∧ u.limit = s.limit := by
  have hlt := hs.active_lt w hw
  have hk : s.workers[w]? = some s.workers[w] := List.getElem?_eq_getElem hlt
  cases hrun : s.workers[w].exited with
  | true => exact ⟨s, .refl, by simp [ended, hk, hrun], rfl, rfl, rfl, rfl⟩
  | false =>
    have hmem : s.workers[w] ∈ s.workers := List.getElem_mem hlt
    have hjob : s.workers[w].job ∈ jobs := by
      rw [← hs.spawned]
      exact List.mem_append_left _ (List.mem_map_of_mem hmem)
    refine ⟨_, reaches_exited hk hrun (hs.sent_le _ hmem).1 (hfit _ hjob), ?_, rfl, rfl, rfl, rfl⟩
    simp [ended, hlt]

theorem exists_collect (hs : Invariant p jobs s)
    (hfit : ∀ j ∈ jobs, (Worker.start j).size ≤ p.capacity) (hactive : s.active ≠ []) :
    ∃ u, Relation.ReflTransGen (Step p) s u ∧ (u.collectWith u.seenNow).work < s.work ∧
      u.active = s.active ∧ u.pending = s.pending ∧ u.loop = s.loop ∧ u.limit = s.limit := by
  have h0 : 0 < s.active.length := List.length_pos_iff.2 hactive
  obtain ⟨u, hu, hended, hactive', hpending, hloop, hlimit⟩ :=
    exists_ended hs hfit (List.getElem_mem h0)
  have h0' : 0 < u.active.length := hactive' ▸ h0
  have hlt := work_collectWith_lt h0' (by simpa [hactive'] using hended)
  refine ⟨u, hu, ?_, hactive', hpending, hloop, hlimit⟩
  simpa only [work, hactive', hpending, hloop] using hlt

/-- When every payload fits and every job passes the check, the pool can always leave less to
do, until it sends the results file. -/
theorem exists_work_lt (hs : Invariant p jobs s) (hcpu : 0 < p.cpus)
    (hvalid : ∀ j ∈ jobs, j.check = .ok j) (hfit : ∀ j ∈ jobs, (Worker.start j).size ≤ p.capacity)
    (hloop : s.loop = .fill ∨ s.loop = .drain) :
    ∃ t, Relation.ReflTransGen (Step p) s t ∧ t.work < s.work := by
  rcases hloop with hloop | hloop
  · cases hpending : s.pending with
    | nil =>
      refine ⟨_, .single (.server (.endFill hloop hpending)), ?_⟩
      simp [work, hloop, rank]
    | cons j rest =>
      have hj : j ∈ jobs := by
        rw [← hs.spawned, hpending]
        exact List.mem_append_right _ List.mem_cons_self
      by_cases hfree : s.active.length < s.limit
      · refine ⟨_, .single (.server (.spawn hloop hpending hfree (hvalid j hj))), ?_⟩
        simp only [work, spawn_pending, spawn_active, spawn_loop, hpending, List.length_append,
          List.length_cons, List.length_nil]
        omega
      · -- no slot is free, and there is a slot, so some worker is still to collect
        have hlimit : 0 < s.limit := by
          rw [hs.limit_eq]
          exact Nat.lt_min.2 ⟨hcpu, List.length_pos_of_mem hj⟩
        have hactive : s.active ≠ [] := fun h => hfree (by simp [h, hlimit])
        obtain ⟨u, hu, hlt, hactive', hpending', hloop', hlimit'⟩ := exists_collect hs hfit hactive
        have hwait : ServerStep u (u.collectWith u.seenNow) :=
          .wait (hloop' ▸ hloop) (hpending' ▸ hpending)
            (by rw [hactive', hlimit']; omega) (answers_seenNow u)
        exact ⟨_, hu.tail (.server hwait), hlt⟩
  · by_cases hactive : s.active = []
    · refine ⟨_, .single (.server (.finish hloop hactive)), ?_⟩
      simp [work, hloop, rank, hactive]
    · obtain ⟨u, hu, hlt, hactive', -, hloop', -⟩ := exists_collect hs hfit hactive
      have hdrain : ServerStep u (u.collectWith u.seenNow) :=
        .drain (hloop' ▸ hloop) (hactive' ▸ hactive) (answers_seenNow u)
      exact ⟨_, hu.tail (.server hdrain), hlt⟩

/-- When every payload fits and every job passes the check, the pool can go on from any state it
reaches to send the results file. The induction is on what is left to do. -/
theorem reaches_send (hs : Invariant p jobs s) (hcpu : 0 < p.cpus)
    (hvalid : ∀ j ∈ jobs, j.check = .ok j) (hfit : ∀ j ∈ jobs, (Worker.start j).size ≤ p.capacity) :
    ∃ t, Relation.ReflTransGen (Step p) s t ∧ t.loop = .send := by
  induction h : s.work using Nat.strong_induction_on generalizing s with
  | _ n ih =>
    -- in either loop the pool can leave less to do, and from there it reaches the send
    have hgo : s.loop = .fill ∨ s.loop = .drain →
        ∃ t, Relation.ReflTransGen (Step p) s t ∧ t.loop = .send := by
      intro hloop
      obtain ⟨t, hst, hlt⟩ := exists_work_lt hs hcpu hvalid hfit hloop
      obtain ⟨u, htu, hu⟩ := ih t.work (h ▸ hlt) (hs.steps hst) rfl
      exact ⟨u, hst.trans htu, hu⟩
    cases hloop : s.loop with
    | send => exact ⟨s, .refl, hloop⟩
    | refused m =>
      obtain ⟨j, hj, herr⟩ := hs.refused_of m hloop
      rw [hvalid j hj] at herr
      cases herr
    | fill => exact hgo (Or.inl hloop)
    | drain => exact hgo (Or.inr hloop)

end Pool

/-- On a machine with a processor, the server can go on to send the results file from every
state it reaches on a received batch exactly when the payload of every expression fits a pipe.
A payload that does not fit leaves its worker waiting for room in its pipe, and the server
waiting for the worker to end before it reads the pipe. -/
theorem start_finishes_iff_payloads_fit (p : Platform) (hcpu : 0 < p.cpus) (text : String) :
    (∀ s, Pool.Reachable p (Batch.jobs text) s →
      ∃ t, Relation.ReflTransGen (Pool.Step p) s t ∧ t.loop = .send) ↔
      ∀ j ∈ Batch.jobs text, (Worker.start j).size ≤ p.capacity := by
  constructor
  · intro h
    obtain ⟨t, ht, hsend⟩ := h _ .refl
    exact Pool.size_le_capacity_of_send (Pool.Reachable.invariant ht) hsend
  · intro hfit s hs
    exact Pool.reaches_send hs.invariant hcpu (fun j hj => Batch.check_of_mem_jobs hj) hfit

/-- Two short lines on one processor and pipes of 212992 bytes: both payloads fit, so the
server can finish from every state. -/
theorem start_finishes_two_lines :
    0 < (⟨1, 212992⟩ : Platform).cpus ∧
      ∀ s, Pool.Reachable ⟨1, 212992⟩ (Batch.jobs "1 + 1\n2 * 3\n") s →
        ∃ t, Relation.ReflTransGen (Pool.Step ⟨1, 212992⟩) s t ∧ t.loop = .send :=
  ⟨by decide, (start_finishes_iff_payloads_fit _ (by decide) _).2 (by decide)⟩

/-! ## One long line -/

namespace Batch

open Text

theorem expressions_line {cs : List Char} (hne : cs ≠ []) (hblank : ∀ c ∈ cs, isBlank c = false) :
    expressions (String.ofList cs ++ "\n") = [String.ofList cs] := by
  -- a line break is a blank, so there is none
  have hone : OneLine cs := fun c hc => by
    cases h : isLineBreak c with
    | false => rfl
    | true => exact absurd (isBlank_of_isLineBreak h) (by simp [hblank c hc])
  have hlines : Text.lines (String.ofList cs ++ "\n") = [String.ofList cs] := by
    rw [Text.lines, String.toList_append, String.toList_ofList,
      show "\n".toList = ['\n'] from rfl, Text.linesOf_append_newline hone]
    rfl
  have hfront : ∀ l : List Char, (∀ c ∈ l, isBlank c = false) → l.dropWhile isBlank = l :=
    fun l hl => List.dropWhile_eq_self_iff.2 fun h => by simp [hl _ (List.getElem_mem h)]
  have htrim : Text.trimList cs = cs := by
    rw [Text.trimList, hfront cs hblank, hfront cs.reverse (fun c hc => hblank c (List.mem_reverse.1 hc)),
      List.reverse_reverse]
  simp [expressions, hlines, Text.trim, htrim, hne]

theorem jobs_line {cs : List Char} (hne : cs ≠ []) (hblank : ∀ c ∈ cs, isBlank c = false) :
    jobs (String.ofList cs ++ "\n") = [⟨1, String.ofList cs⟩] := by
  simp [jobs, expressions_line hne hblank]

end Batch

theorem utf8ByteSize_letters (n : Nat) : (String.ofList (List.replicate n 'x')).utf8ByteSize = n := by
  induction n with
  | zero => rfl
  | succ n ih =>
    rw [String.utf8ByteSize_ofList] at ih ⊢
    rw [List.replicate_succ, String.utf8Len_cons, ih]
    rfl

/-- On one processor with pipes of 212992 bytes, a batch of one line of 212992 letters: its
worker can write as much of its payload as the pipe holds and then waits for room, while the
server waits for it to end; from there the results file is never sent. -/
theorem start_stalls_on_long_line :
    ∃ s, Pool.Reachable ⟨1, 212992⟩
        (Batch.jobs (String.ofList (List.replicate 212992 'x') ++ "\n")) s ∧
      s.loop = .drain ∧ s.active = [0] ∧
      (∃ k, s.workers[0]? = some k ∧ k.exited = false ∧ k.sent = 212992 ∧ 212992 < k.size) ∧
      ∀ t, Relation.ReflTransGen (Pool.Step ⟨1, 212992⟩) s t → t.loop ≠ .send := by
  let p : Platform := ⟨1, 212992⟩
  let e := String.ofList (List.replicate 212992 'x')
  have hjobs : Batch.jobs (e ++ "\n") = [⟨1, e⟩] :=
    Batch.jobs_line (by rw [Ne, List.replicate_eq_nil_iff]; decide)
      (fun c hc => by rw [List.eq_of_mem_replicate hc]; rfl)
  let j : Job := ⟨1, e⟩
  -- the payload holds the line's 212992 bytes, and more
  have hbig : p.capacity < (Worker.start j).size := by
    have := Payload.utf8ByteSize_lt_wireSize (Worker.start j).payload
    rw [show (Worker.start j).payload.expression = e from rfl, utf8ByteSize_letters] at this
    exact this
  let s1 := (Pool.start p [j]).spawn j []
  let k := Worker.start j
  let s2 := s1.update 0 { k with sent := p.capacity }
  let s3 := { s2 with loop := .drain }
  have hcheck : j.check = .ok j :=
    @Batch.check_of_mem_jobs (e ++ "\n") j (by rw [hjobs]; exact List.mem_singleton_self _)
  have hrun : Pool.Reachable p [j] s3 :=
    (((Relation.ReflTransGen.single (.server (.spawn rfl rfl (by decide) hcheck))).trans
      (@Pool.reaches_sent p s1 0 k rfl rfl p.capacity (Nat.zero_le _) hbig.le le_rfl)).tail
      (.server (.endFill rfl rfl)))
  refine ⟨s3, hjobs ▸ hrun, rfl, rfl, ⟨_, rfl, rfl, rfl, hbig⟩, ?_⟩
  intro t ht hsend
  -- a state that sends the file has every payload through its pipe, which this one cannot be
  have hfit := Pool.size_le_capacity_of_send (Pool.Reachable.invariant (hrun.trans ht)) hsend j
    (List.mem_singleton_self _)
  exact absurd hfit (Nat.not_le.2 hbig)

end Reckon
