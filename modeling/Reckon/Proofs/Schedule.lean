import Mathlib
import Reckon.Pool
import Reckon.Proofs.Report

set_option autoImplicit false

/-!
# Scheduling the workers of a batch

One call of the collection keeps exactly the workers it sees running, in their order, and writes
the lines of the others (`collect_eq`): visiting from the last down, removing an entry shifts only
entries already visited. Every state the pool reaches satisfies `Pool.Invariant`, from which
`start_runs_each_job_once`: on a received batch no job is refused, and once the results file is
sent every expression has had its worker and its line, written once.
-/

namespace Reckon

/-! ## One call of the collection -/

section Collect

variable {α : Type} (seen : Nat → Bool)

def keptAt (l : List α) : List α := (l.zipIdx.filter fun x => seen x.2).map Prod.fst

def removedAt (l : List α) : List α := (l.zipIdx.filter fun x => !seen x.2).map Prod.fst

theorem keptAt_append_singleton (l : List α) (a : α) :
    keptAt seen (l ++ [a]) = keptAt seen l ++ if seen l.length then [a] else [] := by
  unfold keptAt
  rw [List.zipIdx_append, List.zipIdx_singleton, List.filter_append, List.map_append, Nat.zero_add]
  cases h : seen l.length <;> simp [h]

theorem removedAt_append_singleton (l : List α) (a : α) :
    removedAt seen (l ++ [a]) = removedAt seen l ++ if seen l.length then [] else [a] := by
  unfold removedAt
  rw [List.zipIdx_append, List.zipIdx_singleton, List.filter_append, List.map_append, Nat.zero_add]
  cases h : seen l.length <;> simp [h]

/-- The collection from index `i` down: the entries below `i` that `seen` keeps stay, those above
are not visited, and the others are handed over from the highest index down. -/
theorem collect_eq_of_le {i : Nat} {kept done : List α} (h : i ≤ kept.length) :
    collect seen i (kept, done) =
      (keptAt seen (kept.take i) ++ kept.drop i,
        done ++ (removedAt seen (kept.take i)).reverse) := by
  induction i generalizing kept done with
  | zero => simp [collect, keptAt, removedAt]
  | succ i ih =>
    have hi : i < kept.length := h
    have htake : kept.take (i + 1) = kept.take i ++ [kept[i]] := (List.take_append_getElem hi).symm
    have hlen : (kept.take i).length = i := List.length_take_of_le (by omega)
    rw [collect, htake, keptAt_append_singleton, removedAt_append_singleton, hlen]
    cases hs : seen i with
    | true =>
      rw [if_pos rfl, ih (by omega), List.drop_eq_getElem_cons hi]
      simp
    | false =>
      -- the entry at `i` leaves the list; below it nothing moves, and above it the list is the
      -- part already visited
      have hlen' : i ≤ (kept.eraseIdx i).length := by
        rw [List.length_eraseIdx_of_lt hi]
        omega
      have hdrop : (kept.eraseIdx i).drop i = kept.drop (i + 1) := by
        rw [List.eraseIdx_eq_take_drop_succ, List.drop_left' hlen]
      rw [if_neg Bool.false_ne_true, ih hlen', List.take_eraseIdx_eq_take_of_le _ _ _ le_rfl, hdrop,
        List.getElem?_eq_getElem hi]
      simp

/-- A whole call of the collection keeps the entries seen running, in their order, and hands
over the others from the last down. -/
theorem collect_eq (l : List α) :
    collect seen l.length (l, []) = (keptAt seen l, (removedAt seen l).reverse) := by
  simpa using @collect_eq_of_le α seen l.length l [] le_rfl

theorem keptAt_sublist (l : List α) : List.Sublist (keptAt seen l) l := by
  have h := (List.filter_sublist (p := fun x : α × Nat => seen x.2) (l := l.zipIdx)).map Prod.fst
  rwa [List.zipIdx_map_fst] at h

theorem keptAt_append_removedAt_perm (l : List α) : (keptAt seen l ++ removedAt seen l).Perm l := by
  have h := (List.filter_append_perm (fun x : α × Nat => seen x.2) l.zipIdx).map Prod.fst
  rwa [List.map_append, List.zipIdx_map_fst] at h

theorem mem_removedAt {l : List α} {a : α} (h : a ∈ removedAt seen l) :
    ∃ i, ∃ hi : i < l.length, l[i] = a ∧ seen i = false := by
  obtain ⟨⟨b, i⟩, hmem, rfl⟩ := List.mem_map.1 h
  obtain ⟨hz, hseen⟩ := List.mem_filter.1 hmem
  obtain ⟨hi, hb⟩ := List.mem_zipIdx' hz
  exact ⟨i, hi, hb.symm, by simpa using hseen⟩

end Collect

/-! ## What each step does -/

namespace Pool

theorem collectWith_active (s : Pool) (seen : Nat → Bool) :
    (s.collectWith seen).active = keptAt seen s.active := by
  simp only [collectWith, collect_eq]

theorem collectWith_written (s : Pool) (seen : Nat → Bool) :
    (s.collectWith seen).written = s.written ++ (removedAt seen s.active).reverse.map s.lineOf := by
  simp only [collectWith, collect_eq]

@[simp] theorem collectWith_lineOf (s : Pool) (seen : Nat → Bool) :
    (s.collectWith seen).lineOf = s.lineOf := rfl

@[simp] theorem collectWith_ended (s : Pool) (seen : Nat → Bool) :
    (s.collectWith seen).ended = s.ended := rfl

theorem lineOf_spawn_of_lt {s : Pool} {w : Nat} (h : w < s.workers.length) (j : Job)
    (rest : List Job) : (s.spawn j rest).lineOf w = s.lineOf w := by
  simp [lineOf, List.getElem?_append_left h]

theorem ended_spawn_of_lt {s : Pool} {w : Nat} (h : w < s.workers.length) (j : Job)
    (rest : List Job) : (s.spawn j rest).ended w = s.ended w := by
  simp [ended, List.getElem?_append_left h]

theorem lineOf_spawn_self (s : Pool) (j : Job) (rest : List Job) :
    (s.spawn j rest).lineOf s.workers.length = (Worker.start j).reportLine := by
  simp [lineOf]

theorem map_set_of_eq {β : Type} (f : Worker → β) {l : List Worker} {w : Nat} {k k' : Worker}
    (hk : l[w]? = some k) (hf : f k' = f k) : (l.set w k').map f = l.map f := by
  apply List.ext_getElem?
  intro v
  rw [List.getElem?_map, List.getElem?_map, List.getElem?_set]
  split
  · rename_i hv
    subst hv
    have hw : w < l.length := (List.getElem?_eq_some_iff.1 hk).1
    rw [if_pos hw, hk, Option.map_some, Option.map_some, hf]
  · rfl

theorem lineOf_update {s : Pool} {w : Nat} {k k' : Worker} (hk : s.workers[w]? = some k)
    (hjob : k'.job = k.job) (v : Nat) : (s.update w k').lineOf v = s.lineOf v := by
  have hline : k'.reportLine = k.reportLine := by simp [Worker.reportLine, hjob]
  have hmap := map_set_of_eq Worker.reportLine hk hline
  unfold lineOf
  rw [update_workers, ← List.getElem?_map, hmap, List.getElem?_map]

theorem ended_update {s : Pool} {w : Nat} {k k' : Worker} (hk : s.workers[w]? = some k)
    (v : Nat) : (s.update w k').ended v = if v = w then k'.exited else s.ended v := by
  have hw : w < s.workers.length := (List.getElem?_eq_some_iff.1 hk).1
  unfold ended
  rw [update_workers, List.getElem?_set]
  by_cases hv : v = w
  · subst hv
    simp [hw]
  · simp [hv, Ne.symm hv]

end Pool

/-! ## What every reached state satisfies -/

namespace Pool

/-- The states the pool reaches from the start on `jobs`. -/
def Reachable (p : Platform) (jobs : List Job) (s : Pool) : Prop :=
  Relation.ReflTransGen (Step p) (start p jobs) s

/-- What holds of every state the pool reaches from the start on `jobs`. -/
structure Invariant (p : Platform) (jobs : List Job) (s : Pool) : Prop where
  limit_eq : s.limit = min p.cpus jobs.length
  spawned : s.workers.map Worker.job ++ s.pending = jobs
  active_le : s.active.length ≤ s.limit
  nodup : s.active.Nodup
  active_lt : ∀ w ∈ s.active, w < s.workers.length
  written_perm : (s.written ++ s.active.map s.lineOf).Perm (s.workers.map Worker.reportLine)
  ended_of_not_mem : ∀ w < s.workers.length, w ∉ s.active → s.ended w = true
  sent_le : ∀ k ∈ s.workers,
    k.sent ≤ k.size ∧ k.sent ≤ p.capacity ∧ (k.exited = true → k.sent = k.size)
  pending_nil : s.loop = .drain ∨ s.loop = .send → s.pending = []
  idle_of_send : s.loop = .send → s.active = []
  refused_of : ∀ m, s.loop = .refused m → ∃ j ∈ jobs, j.check = .error m

variable {p : Platform} {jobs : List Job} {s : Pool}

theorem invariant_start (p : Platform) (jobs : List Job) : Invariant p jobs (start p jobs) where
  limit_eq := rfl
  spawned := rfl
  active_le := Nat.zero_le _
  nodup := List.nodup_nil
  active_lt := fun _ h => nomatch h
  written_perm := List.Perm.refl _
  ended_of_not_mem := fun _ h => absurd h (Nat.not_lt_zero _)
  sent_le := fun _ h => nomatch h
  pending_nil := fun h => by simp [start] at h
  idle_of_send := fun _ => rfl
  refused_of := fun _ h => nomatch h

theorem Invariant.spawn {j : Job} {rest : List Job} (hs : Invariant p jobs s)
    (hloop : s.loop = .fill) (hpending : s.pending = j :: rest) (hfree : s.active.length < s.limit) :
    Invariant p jobs (s.spawn j rest) where
  limit_eq := hs.limit_eq
  spawned := by
    rw [spawn_workers, spawn_pending, List.map_append, List.append_assoc, ← hs.spawned, hpending]
    rfl
  active_le := by
    rw [spawn_active, List.length_append, spawn_limit]
    exact hfree
  nodup := by
    rw [spawn_active, List.nodup_append]
    refine ⟨hs.nodup, List.nodup_singleton _, fun a ha b hb => ?_⟩
    rw [List.mem_singleton.1 hb]
    exact Nat.ne_of_lt (hs.active_lt a ha)
  active_lt := by
    intro w hw
    rw [spawn_active, List.mem_append, List.mem_singleton] at hw
    rw [spawn_workers, List.length_append, List.length_singleton]
    rcases hw with hw | rfl
    · exact Nat.lt_succ_of_lt (hs.active_lt w hw)
    · exact Nat.lt_succ_self _
  written_perm := by
    have hold : s.active.map (s.spawn j rest).lineOf = s.active.map s.lineOf :=
      List.map_congr_left fun w hw => lineOf_spawn_of_lt (hs.active_lt w hw) j rest
    rw [spawn_written, spawn_active, List.map_append, hold, List.map_singleton, lineOf_spawn_self,
      spawn_workers, List.map_append, List.map_singleton, ← List.append_assoc]
    exact hs.written_perm.append_right _
  ended_of_not_mem := by
    intro w hw hnot
    rw [spawn_workers, List.length_append, List.length_singleton] at hw
    rw [spawn_active, List.mem_append, List.mem_singleton, not_or] at hnot
    have hlt : w < s.workers.length := by omega
    rw [ended_spawn_of_lt hlt]
    exact hs.ended_of_not_mem w hlt hnot.1
  sent_le := by
    intro k hk
    rw [spawn_workers, List.mem_append, List.mem_singleton] at hk
    rcases hk with hk | rfl
    · exact hs.sent_le k hk
    · simp
  pending_nil := by simp [hloop]
  idle_of_send := by simp [hloop]
  refused_of := by simp [hloop]

theorem Invariant.collectWith {seen : Nat → Bool} (hs : Invariant p jobs s)
    (hseen : s.Answers seen) : Invariant p jobs (s.collectWith seen) where
  limit_eq := hs.limit_eq
  spawned := hs.spawned
  active_le := by
    rw [collectWith_active]
    exact le_trans (keptAt_sublist seen s.active).length_le hs.active_le
  nodup := by
    rw [collectWith_active]
    exact (keptAt_sublist seen s.active).nodup hs.nodup
  active_lt := by
    rw [collectWith_active, collectWith_workers]
    exact fun w hw => hs.active_lt w ((keptAt_sublist seen s.active).subset hw)
  written_perm := by
    -- the lines handed over are those of the entries removed, in another order
    have hsplit : ((removedAt seen s.active).reverse ++ keptAt seen s.active).Perm s.active :=
      ((List.reverse_perm _).append_right _).trans
        (List.perm_append_comm.trans (keptAt_append_removedAt_perm seen s.active))
    rw [collectWith_written, collectWith_active, collectWith_workers, collectWith_lineOf,
      List.append_assoc, ← List.map_append]
    exact ((hsplit.map s.lineOf).append_left s.written).trans hs.written_perm
  ended_of_not_mem := by
    intro w hw hnot
    rw [collectWith_workers] at hw
    rw [collectWith_active] at hnot
    show s.ended w = true
    by_cases hmem : w ∈ s.active
    · -- a worker that leaves `active` was seen ended, which it then is
      have hrem : w ∈ removedAt seen s.active :=
        (List.mem_append.1 ((keptAt_append_removedAt_perm seen s.active).mem_iff.2 hmem)).resolve_left
          hnot
      obtain ⟨i, hi, rfl, hfalse⟩ := mem_removedAt seen hrem
      exact hseen i hi hfalse
    · exact hs.ended_of_not_mem w hw hmem
  sent_le := hs.sent_le
  pending_nil := hs.pending_nil
  idle_of_send := by
    intro h
    rw [collectWith_active, hs.idle_of_send h]
    rfl
  refused_of := hs.refused_of

theorem Invariant.setLoop {l : Loop} (hs : Invariant p jobs s)
    (hpending : l = .drain ∨ l = .send → s.pending = []) (hidle : l = .send → s.active = [])
    (hrefused : ∀ m, l = .refused m → ∃ j ∈ jobs, j.check = .error m) :
    Invariant p jobs { s with loop := l } where
  limit_eq := hs.limit_eq
  spawned := hs.spawned
  active_le := hs.active_le
  nodup := hs.nodup
  active_lt := hs.active_lt
  written_perm := hs.written_perm
  ended_of_not_mem := hs.ended_of_not_mem
  sent_le := hs.sent_le
  pending_nil := hpending
  idle_of_send := hidle
  refused_of := hrefused

theorem Invariant.mem_active {w : Nat} {k : Worker} (hs : Invariant p jobs s)
    (hk : s.workers[w]? = some k) (hrun : k.exited = false) : w ∈ s.active := by
  have hw : w < s.workers.length := (List.getElem?_eq_some_iff.1 hk).1
  by_contra hnot
  have h := hs.ended_of_not_mem w hw hnot
  simp [ended, hk, hrun] at h

theorem Invariant.update {w : Nat} {k k' : Worker} (hs : Invariant p jobs s)
    (hk : s.workers[w]? = some k) (hrun : k.exited = false) (hjob : k'.job = k.job)
    (hsent : k'.sent ≤ k'.size ∧ k'.sent ≤ p.capacity ∧ (k'.exited = true → k'.sent = k'.size)) :
    Invariant p jobs (s.update w k') where
  limit_eq := hs.limit_eq
  spawned := by
    rw [update_workers, update_pending, map_set_of_eq Worker.job hk hjob]
    exact hs.spawned
  active_le := hs.active_le
  nodup := hs.nodup
  active_lt := by
    rw [update_active, update_workers, List.length_set]
    exact hs.active_lt
  written_perm := by
    have hlines : s.active.map (s.update w k').lineOf = s.active.map s.lineOf :=
      List.map_congr_left fun v _ => lineOf_update hk hjob v
    have hsize : k'.reportLine = k.reportLine := by simp [Worker.reportLine, hjob]
    rw [update_written, update_active, hlines, update_workers, map_set_of_eq _ hk hsize]
    exact hs.written_perm
  ended_of_not_mem := by
    intro v hv hnot
    rw [update_workers, List.length_set] at hv
    rw [ended_update hk]
    -- the worker that moves is running, so it is still to collect
    have hw : v ≠ w := by
      rintro rfl
      exact hnot (hs.mem_active hk hrun)
    rw [if_neg hw]
    exact hs.ended_of_not_mem v hv hnot
  sent_le := by
    intro k'' hk''
    rw [update_workers] at hk''
    rcases List.mem_or_eq_of_mem_set hk'' with h | rfl
    · exact hs.sent_le k'' h
    · exact hsent
  pending_nil := hs.pending_nil
  idle_of_send := hs.idle_of_send
  refused_of := hs.refused_of

theorem Invariant.serverStep {t : Pool} (hs : Invariant p jobs s) (h : ServerStep s t) :
    Invariant p jobs t := by
  cases h with
  | spawn hloop hpending hfree _ => exact hs.spawn hloop hpending hfree
  | @refuse j rest m hloop hpending _ hjob =>
    refine hs.setLoop (by simp) (by simp) ?_
    rintro m' ⟨⟩
    have hmem : j ∈ jobs := by
      rw [← hs.spawned, hpending]
      exact List.mem_append_right _ List.mem_cons_self
    exact ⟨_, hmem, hjob⟩
  | wait _ _ _ hseen => exact hs.collectWith hseen
  | endFill _ hpending => exact hs.setLoop (fun _ => hpending) (by simp) (by simp)
  | drain _ _ hseen => exact hs.collectWith hseen
  | finish hloop hactive =>
    exact hs.setLoop (fun _ => hs.pending_nil (Or.inl hloop)) (fun _ => hactive) (by simp)

theorem Invariant.workerStep {t : Pool} (hs : Invariant p jobs s) (h : WorkerStep p s t) :
    Invariant p jobs t := by
  cases h with
  | write hk hrun hleft hroom =>
    exact hs.update hk hrun rfl ⟨hleft, hroom, fun h => absurd h (by simp [hrun])⟩
  | exit hk hrun hall =>
    have hk' := hs.sent_le _ (List.mem_of_getElem? hk)
    exact hs.update hk hrun rfl ⟨hk'.1, hk'.2.1, fun _ => hall⟩

theorem Invariant.step {t : Pool} (hs : Invariant p jobs s) (h : Step p s t) :
    Invariant p jobs t := by
  cases h with
  | server h => exact hs.serverStep h
  | worker h => exact hs.workerStep h

theorem Invariant.steps {t : Pool} (hs : Invariant p jobs s)
    (h : Relation.ReflTransGen (Step p) s t) : Invariant p jobs t := by
  induction h with
  | refl => exact hs
  | tail _ hstep ih => exact ih.step hstep

theorem Reachable.invariant (h : Reachable p jobs s) : Invariant p jobs s :=
  (invariant_start p jobs).steps h

theorem Invariant.workers_job_of_send (hs : Invariant p jobs s) (hsend : s.loop = .send) :
    s.workers.map Worker.job = jobs := by
  simpa [hs.pending_nil (Or.inr hsend)] using hs.spawned

theorem Invariant.written_perm_of_send {text : String} (hs : Invariant p (Batch.jobs text) s)
    (hsend : s.loop = .send) : s.written.Perm ((Batch.run text).map Outcome.reportLine) := by
  have hall := hs.workers_job_of_send hsend
  have hperm := hs.written_perm
  rw [hs.idle_of_send hsend, List.map_nil, List.append_nil] at hperm
  have hlines : s.workers.map Worker.reportLine = (Batch.run text).map Outcome.reportLine := by
    rw [Batch.run, List.map_map, ← hall, List.map_map]
    rfl
  exact hperm.trans (hlines ▸ List.Perm.refl _)

theorem Invariant.mem_written {l : String} (hs : Invariant p jobs s) (hl : l ∈ s.written) :
    ∃ k ∈ s.workers, k.reportLine = l :=
  List.mem_map.1 (hs.written_perm.subset (List.mem_append_left _ hl))

theorem Step.written_prefix {t : Pool} (h : Step p s t) : List.IsPrefix s.written t.written := by
  cases h with
  | server h =>
    cases h with
    | wait _ _ _ _ => exact ⟨_, (collectWith_written _ _).symm⟩
    | drain _ _ _ => exact ⟨_, (collectWith_written _ _).symm⟩
    | spawn _ _ _ _ => exact List.prefix_refl _
    | refuse _ _ _ _ => exact List.prefix_refl _
    | endFill _ _ => exact List.prefix_refl _
    | finish _ _ => exact List.prefix_refl _
  | worker h => cases h <;> exact List.prefix_refl _

theorem written_prefix_of_run {t : Pool} (h : Relation.ReflTransGen (Step p) s t) :
    List.IsPrefix s.written t.written := by
  induction h with
  | refl => exact List.prefix_refl _
  | tail _ hstep ih => exact ih.trans hstep.written_prefix

end Pool

/-! ## Runs of one worker -/

namespace Pool

variable {p : Platform}

theorem update_update (s : Pool) (w : Nat) (a b : Worker) :
    (s.update w a).update w b = s.update w b := by
  simp [update, List.set_set]

theorem update_self {s : Pool} {w : Nat} {k : Worker} (hk : s.workers[w]? = some k) :
    s.update w k = s := by
  obtain ⟨hw, hget⟩ := List.getElem?_eq_some_iff.1 hk
  have hset : s.workers.set w k = s.workers := hget ▸ List.set_getElem_self hw
  simp [update, hset]

theorem getElem?_update_self {s : Pool} {w : Nat} {k : Worker} (hk : s.workers[w]? = some k)
    (k' : Worker) : (s.update w k').workers[w]? = some k' :=
  List.getElem?_set_self (List.getElem?_eq_some_iff.1 hk).1

/-- A running worker can write its payload into its pipe up to the payload's end or the pipe's
capacity, whichever comes first. -/
theorem reaches_sent {s : Pool} {w : Nat} {k : Worker} (hk : s.workers[w]? = some k)
    (hrun : k.exited = false) :
    ∀ m, k.sent ≤ m → m ≤ k.size → m ≤ p.capacity →
      Relation.ReflTransGen (Step p) s (s.update w { k with sent := m }) := by
  intro m
  induction m with
  | zero =>
    intro h _ _
    have h0 : k.sent = 0 := Nat.le_zero.1 h
    rw [← h0, update_self hk]
  | succ m ih =>
    intro hle hm hcap
    rcases Nat.lt_or_ge m k.sent with hlt | hge
    · have hm' : k.sent = m + 1 := by omega
      rw [← hm', update_self hk]
    · refine (ih hge (by omega) (by omega)).tail (.worker ?_)
      have hwrite : WorkerStep p (s.update w { k with sent := m })
          ((s.update w { k with sent := m }).update w { k with sent := m + 1 }) :=
        .write (getElem?_update_self hk _) hrun (show m < k.size by omega)
          (show m < p.capacity by omega)
      rwa [update_update] at hwrite

theorem reaches_exited {s : Pool} {w : Nat} {k : Worker} (hk : s.workers[w]? = some k)
    (hrun : k.exited = false) (hsent : k.sent ≤ k.size) (hfit : k.size ≤ p.capacity) :
    Relation.ReflTransGen (Step p) s (s.update w { k with sent := k.size, exited := true }) := by
  refine (reaches_sent hk hrun k.size hsent le_rfl hfit).tail (.worker ?_)
  have hexit : WorkerStep p (s.update w { k with sent := k.size })
      ((s.update w { k with sent := k.size }).update w { k with sent := k.size, exited := true }) :=
    .exit (getElem?_update_self hk _) hrun rfl
  rwa [update_update] at hexit

end Pool

/-! ## Scheduling a received batch -/

/-- A batch that the server receives: one call of the collection keeps exactly the workers it
sees running, in their order, and hands over the others. In every state that the pool reaches,
the workers spawned are the first jobs of the batch, numbered in order, no more of them run than
there are processors or expressions, and no job is refused. Once the results file is sent, every
expression has had its worker, every worker is collected, and the lines written are the lines of
the outcomes of the batch, each exactly once. -/
theorem start_runs_each_job_once (p : Platform) (text : String) :
    (∀ (seen : Nat → Bool) (l : List Nat),
      collect seen l.length (l, []) = (keptAt seen l, (removedAt seen l).reverse) ∧
      List.Sublist (keptAt seen l) l) ∧
    ∀ s, Pool.Reachable p (Batch.jobs text) s →
      List.IsPrefix (s.workers.map Worker.job) (Batch.jobs text) ∧
      s.active.length ≤ min p.cpus (Batch.expressions text).length ∧
      (∀ m, s.loop ≠ .refused m) ∧
      (s.loop = .send →
        s.workers.map Worker.job = Batch.jobs text ∧ s.active = [] ∧
        s.written.Perm ((Batch.run text).map Outcome.reportLine)) := by
  refine ⟨fun seen l => ⟨collect_eq seen l, keptAt_sublist seen l⟩, fun s hs => ?_⟩
  have hinv := hs.invariant
  have hlen : (Batch.jobs text).length = (Batch.expressions text).length := by simp [Batch.jobs]
  refine ⟨⟨s.pending, hinv.spawned⟩, ?_, ?_, fun hsend => ?_⟩
  · rw [← hlen, ← hinv.limit_eq]
    exact hinv.active_le
  · intro m hm
    obtain ⟨j, hj, herr⟩ := hinv.refused_of m hm
    rw [Batch.check_of_mem_jobs hj] at herr
    cases herr
  · exact ⟨hinv.workers_job_of_send hsend, hinv.idle_of_send hsend,
      hinv.written_perm_of_send hsend⟩

/-- Two expressions on one processor: the second worker is spawned only once the first is
collected, and both lines are written. -/
theorem start_runs_two_lines_on_one_processor :
    ∃ s, Pool.Reachable ⟨1, 212992⟩ (Batch.jobs "1 + 1\n2 * 3\n") s ∧ s.loop = .send ∧
      s.written.Perm ((Batch.run "1 + 1\n2 * 3\n").map Outcome.reportLine) := by
  have hjobs : Batch.jobs "1 + 1\n2 * 3\n" = [⟨1, "1 + 1"⟩, ⟨2, "2 * 3"⟩] := by decide
  let p : Platform := ⟨1, 212992⟩
  let s1 := (Pool.start p [⟨1, "1 + 1"⟩, ⟨2, "2 * 3"⟩]).spawn ⟨1, "1 + 1"⟩ [⟨2, "2 * 3"⟩]
  let k1 := Worker.start ⟨1, "1 + 1"⟩
  let s2 := s1.update 0 { k1 with sent := k1.size, exited := true }
  let s3 := s2.collectWith fun _ => false
  let s4 := s3.spawn ⟨2, "2 * 3"⟩ []
  let k2 := Worker.start ⟨2, "2 * 3"⟩
  let s5 := s4.update 1 { k2 with sent := k2.size, exited := true }
  let s6 := { s5 with loop := .drain }
  let s7 := s6.collectWith fun _ => false
  let s8 := { s7 with loop := .send }
  -- the first worker runs to its end
  have h1 : Pool.Reachable p [⟨1, "1 + 1"⟩, ⟨2, "2 * 3"⟩] s2 :=
    (Relation.ReflTransGen.single (.server (.spawn rfl rfl (by decide) (by decide)))).trans
      (@Pool.reaches_exited p s1 0 k1 rfl rfl (by decide) (by decide))
  -- no slot is free until it is collected; then the second worker runs to its end
  have h2 : Relation.ReflTransGen (Pool.Step p) s2 s5 :=
    ((Relation.ReflTransGen.single (.server (.wait rfl rfl (by decide) (by decide)))).tail
      (.server (.spawn rfl rfl (by decide) (by decide)))).trans
      (@Pool.reaches_exited p s4 1 k2 rfl rfl (by decide) (by decide))
  have h3 : Relation.ReflTransGen (Pool.Step p) s5 s8 :=
    ((Relation.ReflTransGen.single (.server (.endFill rfl rfl))).tail
      (.server (.drain rfl (by decide) (by decide)))).tail (.server (.finish rfl (by decide)))
  have hrun : Pool.Reachable p [⟨1, "1 + 1"⟩, ⟨2, "2 * 3"⟩] s8 := (h1.trans h2).trans h3
  rw [hjobs]
  have hsend : s8.loop = .send := rfl
  exact ⟨s8, hrun, hsend, (((start_runs_each_job_once p _).2 s8 (hjobs ▸ hrun)).2.2.2 hsend).2.2⟩

end Reckon
