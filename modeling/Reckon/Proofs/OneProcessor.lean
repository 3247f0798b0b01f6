import Mathlib
import Reckon.Proofs.Schedule

set_option autoImplicit false

/-!
# One processor writes the report in order

With one processor the pool has one slot, so the server spawns a worker only once the one before
it is collected. The lines it writes are then always the first lines of the report, in input
order (`Pool.OneAtATime`), and once it sends the results file, the file holds the report that
serving the batch gives (`one_processor_writes_report`). With more processors, workers end in no
fixed order and the lines are only a permutation of the report's (`start_runs_each_job_once`).
-/

namespace Reckon

namespace Pool

/-- On one processor: only the last worker spawned may still be collected, and the lines written
are those of the workers before it, in the order spawned. -/
structure OneAtATime (s : Pool) : Prop where
  active_last : ∀ w ∈ s.active, w + 1 = s.workers.length
  written_eq :
    s.written = (s.workers.take (s.workers.length - s.active.length)).map Worker.reportLine

variable {c : Nat} {jobs : List Job} {s : Pool}

theorem oneAtATime_start (p : Platform) (jobs : List Job) : OneAtATime (start p jobs) where
  active_last := fun _ h => nomatch h
  written_eq := rfl

theorem Invariant.length_active_le_one (hs : Invariant ⟨1, c⟩ jobs s) :
    s.active.length ≤ 1 :=
  (hs.active_le.trans_eq hs.limit_eq).trans (min_le_left _ _)

theorem OneAtATime.spawn {j : Job} {rest : List Job} (hs : Invariant ⟨1, c⟩ jobs s)
    (h : OneAtATime s) (hfree : s.active.length < s.limit) : OneAtATime (s.spawn j rest) := by
  -- the one slot is free, so no worker is left to collect
  have hnil : s.active = [] := by
    have hlimit : s.limit ≤ 1 := hs.limit_eq.trans_le (min_le_left _ _)
    exact List.eq_nil_of_length_eq_zero (by omega)
  have hwritten := h.written_eq
  rw [hnil, List.length_nil, Nat.sub_zero, List.take_length] at hwritten
  constructor
  · intro w hw
    rw [spawn_active, hnil, List.nil_append, List.mem_singleton] at hw
    simp [hw]
  · rw [spawn_written, spawn_active, spawn_workers, hnil, hwritten]
    simp

/-- With one worker left to collect, a call of the collection keeps it, or collects it and writes
its line. -/
theorem collectWith_of_active_singleton {w : Nat} (h : s.active = [w]) (seen : Nat → Bool) :
    (s.collectWith seen).active = (if seen 0 then [w] else []) ∧
      (s.collectWith seen).written = s.written ++ (if seen 0 then [] else [s.lineOf w]) := by
  cases hseen : seen 0 <;>
    simp [collectWith_active, collectWith_written, h, keptAt, removedAt, hseen]

theorem OneAtATime.collectWith {seen : Nat → Bool} (hs : Invariant ⟨1, c⟩ jobs s)
    (h : OneAtATime s) : OneAtATime (s.collectWith seen) := by
  have hle := hs.length_active_le_one
  match hactive : s.active with
  | [] =>
    -- nothing is left to collect, so the call changes nothing
    constructor
    · simp [collectWith_active, hactive, keptAt]
    · simpa [collectWith_written, collectWith_active, hactive, keptAt, removedAt]
        using h.written_eq
  | [w] =>
    have hw : w + 1 = s.workers.length := h.active_last w (by simp [hactive])
    have hwritten := h.written_eq
    rw [hactive] at hwritten
    obtain ⟨hactive', hwritten'⟩ := collectWith_of_active_singleton hactive seen
    cases hseen : seen 0 with
    | true =>
      -- the worker is seen running and stays to collect
      rw [hseen, if_pos rfl] at hactive' hwritten'
      constructor
      · simpa [hactive'] using hw
      · rw [hwritten', hactive', collectWith_workers, hwritten, List.append_nil]
    | false =>
      -- the worker is collected, and its line comes after those of the workers before it
      rw [hseen] at hactive' hwritten'
      simp only [Bool.false_eq_true, if_false] at hactive' hwritten'
      have hlt : w < s.workers.length := by omega
      have hline : s.lineOf w = s.workers[w].reportLine := by
        simp [lineOf, List.getElem?_eq_getElem hlt]
      constructor
      · simp [hactive']
      · rw [hwritten', hactive', collectWith_workers, hwritten, hline, List.length_nil,
          List.length_singleton, Nat.sub_zero, show s.workers.length - 1 = w by omega, ← hw,
          ← List.take_append_getElem hlt, List.map_append]
        rfl
  | _ :: _ :: _ => simp [hactive] at hle

theorem OneAtATime.setLoop {l : Loop} (h : OneAtATime s) : OneAtATime { s with loop := l } :=
  ⟨h.active_last, h.written_eq⟩

theorem OneAtATime.update {w : Nat} {k k' : Worker} (h : OneAtATime s)
    (hk : s.workers[w]? = some k) (hjob : k'.job = k.job) : OneAtATime (s.update w k') := by
  have hline : k'.reportLine = k.reportLine := by simp [Worker.reportLine, hjob]
  constructor
  · rw [update_active, update_workers, List.length_set]
    exact h.active_last
  · rw [update_written, update_active, update_workers, List.length_set, List.map_take,
      map_set_of_eq _ hk hline, ← List.map_take]
    exact h.written_eq

theorem OneAtATime.step {t : Pool} (hs : Invariant ⟨1, c⟩ jobs s) (h : OneAtATime s)
    (hstep : Step ⟨1, c⟩ s t) : OneAtATime t := by
  cases hstep with
  | server h' =>
    cases h' with
    | spawn _ _ hfree _ => exact h.spawn hs hfree
    | refuse _ _ _ _ => exact h.setLoop
    | wait _ _ _ _ => exact h.collectWith hs
    | endFill _ _ => exact h.setLoop
    | drain _ _ _ => exact h.collectWith hs
    | finish _ _ => exact h.setLoop
  | worker h' =>
    cases h' with
    | write hk _ _ _ => exact h.update hk rfl
    | exit hk _ _ => exact h.update hk rfl

theorem Reachable.oneAtATime (hs : Reachable ⟨1, c⟩ jobs s) : OneAtATime s := by
  induction hs with
  | refl => exact oneAtATime_start _ jobs
  | tail hrun hstep ih => exact ih.step ((invariant_start _ jobs).steps hrun) hstep

theorem map_reportLine_workers (s : Pool) :
    s.workers.map Worker.reportLine = (s.workers.map Worker.job).map fun j => j.run.reportLine := by
  rw [List.map_map]
  rfl

end Pool

/-- On one processor the server writes the report's lines in input order: in every state the pool
reaches on a received batch, the lines written are the first lines of the report. Once it sends
the results file, the file holds exactly the report that serving the batch's bytes gives. -/
theorem one_processor_writes_report (capacity : Nat) {bytes : ByteArray} {text : String}
    (hreceive : Batch.receive bytes = .ok text) (s : Pool)
    (hs : Pool.Reachable ⟨1, capacity⟩ (Batch.jobs text) s) :
    List.IsPrefix s.written ((Batch.run text).map Outcome.reportLine) ∧
      (s.loop = .send → Session.serve bytes = .ok (String.join s.written)) := by
  have hinv := hs.invariant
  have hone := hs.oneAtATime
  have hreport : (Batch.run text).map Outcome.reportLine =
      (Batch.jobs text).map fun j => j.run.reportLine := by
    rw [Batch.run, List.map_map]
    rfl
  -- the workers spawned are the first jobs, so their lines are the first lines of the report
  have hworkers : List.IsPrefix (s.workers.map Worker.reportLine)
      ((Batch.run text).map Outcome.reportLine) := by
    rw [Pool.map_reportLine_workers, hreport]
    exact List.IsPrefix.map _ ⟨s.pending, hinv.spawned⟩
  refine ⟨?_, fun hsend => ?_⟩
  · rw [hone.written_eq, List.map_take]
    exact (List.take_prefix _ _).trans hworkers
  · have hall := hinv.workers_job_of_send hsend
    have hwritten : s.written = (Batch.run text).map Outcome.reportLine := by
      rw [hone.written_eq, hinv.idle_of_send hsend, List.length_nil, Nat.sub_zero,
        List.take_length, Pool.map_reportLine_workers, hall, hreport]
    rw [hwritten, Session.serve, hreceive]
    rfl

end Reckon
