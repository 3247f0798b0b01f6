import Reckon.Payload

set_option autoImplicit false

/-!
# The server's pool of workers

The server runs each expression in a worker of its own, at most as many at once as the machine has
processors or the batch has expressions. A worker writes its payload into its pipe one byte at a
time while the pipe has room, then ends; the server reads a pipe only once its worker has ended.
`Pool.Step` relates a state to every state that one step of the server or of one worker leads to.
The server spawns while a slot is free, else makes one call of the collection (`collect`), which
visits the running workers from the last down; then it collects the rest and sends the file. A
call may see a worker running that has ended since, never the reverse.
-/

namespace Reckon

/-- What the machine provides: its processors, and the bytes a pipe holds before its writer has to
wait. -/
structure Platform where
  cpus : Nat
  capacity : Nat
deriving DecidableEq, Repr

/-- A worker process: its job, the bytes of its payload it has written into its pipe, and whether
it has ended. -/
structure Worker where
  job : Job
  sent : Nat
  exited : Bool

namespace Worker

def start (j : Job) : Worker := ⟨j, 0, false⟩

def payload (w : Worker) : Payload := .ofOutcome w.job.run

def size (w : Worker) : Nat := w.payload.wireSize

def reportLine (w : Worker) : String := w.job.run.reportLine

@[simp] theorem start_job (j : Job) : (start j).job = j := rfl
@[simp] theorem start_sent (j : Job) : (start j).sent = 0 := rfl
@[simp] theorem start_exited (j : Job) : (start j).exited = false := rfl

end Worker

/-- Where the server stands in its loops. -/
inductive Loop where
  | fill
  | drain
  | send
  | refused (message : String)
deriving DecidableEq, Repr

/-- The state of the pool. -/
structure Pool where
  limit : Nat
  pending : List Job
  workers : List Worker
  active : List Nat
  written : List String
  loop : Loop

/-- One call of the collection over a list of running workers. From index `i` down it visits
each index; one where `seen` says the worker is still running is kept, any other is removed from
the list and handed over. Removing an entry shifts only the entries above it, which are visited
already. -/
def collect {α : Type} (seen : Nat → Bool) : Nat → List α × List α → List α × List α
  | 0, acc => acc
  | i + 1, (kept, done) =>
    if seen i then collect seen i (kept, done)
    else collect seen i (kept.eraseIdx i, done ++ kept[i]?.toList)

namespace Pool

/-- The pool before the first step: the jobs of the batch, and as many slots as processors, or
as jobs when there are fewer. -/
def start (p : Platform) (jobs : List Job) : Pool :=
  ⟨min p.cpus jobs.length, jobs, [], [], [], .fill⟩

def lineOf (s : Pool) (w : Nat) : String := (s.workers[w]?.map Worker.reportLine).getD ""

def ended (s : Pool) (w : Nat) : Bool := (s.workers[w]?.map Worker.exited).getD false

/-- How the server may see the running workers in one call: a worker at index `i` is seen
ended only if it has ended. -/
def Answers (s : Pool) (seen : Nat → Bool) : Prop :=
  ∀ i (h : i < s.active.length), seen i = false → s.ended s.active[i] = true

instance (s : Pool) (seen : Nat → Bool) : Decidable (s.Answers seen) :=
  inferInstanceAs
    (Decidable (∀ i (h : i < s.active.length), seen i = false → s.ended s.active[i] = true))

/-- One call of the collection, which sees the worker at index `i` running when `seen i`: the
workers seen ended leave `active`, and their lines are written in the order visited. -/
def collectWith (s : Pool) (seen : Nat → Bool) : Pool :=
  let r := collect seen s.active.length (s.active, [])
  { s with active := r.1, written := s.written ++ r.2.map s.lineOf }

def spawn (s : Pool) (j : Job) (rest : List Job) : Pool :=
  { s with pending := rest, workers := s.workers ++ [Worker.start j],
           active := s.active ++ [s.workers.length] }

def update (s : Pool) (w : Nat) (k : Worker) : Pool := { s with workers := s.workers.set w k }

@[simp] theorem collectWith_limit (s : Pool) (seen : Nat → Bool) :
    (s.collectWith seen).limit = s.limit := rfl
@[simp] theorem collectWith_pending (s : Pool) (seen : Nat → Bool) :
    (s.collectWith seen).pending = s.pending := rfl
@[simp] theorem collectWith_workers (s : Pool) (seen : Nat → Bool) :
    (s.collectWith seen).workers = s.workers := rfl
@[simp] theorem collectWith_loop (s : Pool) (seen : Nat → Bool) :
    (s.collectWith seen).loop = s.loop := rfl
@[simp] theorem spawn_limit (s : Pool) (j : Job) (rest : List Job) :
    (s.spawn j rest).limit = s.limit := rfl
@[simp] theorem spawn_pending (s : Pool) (j : Job) (rest : List Job) :
    (s.spawn j rest).pending = rest := rfl
@[simp] theorem spawn_workers (s : Pool) (j : Job) (rest : List Job) :
    (s.spawn j rest).workers = s.workers ++ [Worker.start j] := rfl
@[simp] theorem spawn_active (s : Pool) (j : Job) (rest : List Job) :
    (s.spawn j rest).active = s.active ++ [s.workers.length] := rfl
@[simp] theorem spawn_written (s : Pool) (j : Job) (rest : List Job) :
    (s.spawn j rest).written = s.written := rfl
@[simp] theorem spawn_loop (s : Pool) (j : Job) (rest : List Job) :
    (s.spawn j rest).loop = s.loop := rfl
@[simp] theorem update_limit (s : Pool) (w : Nat) (k : Worker) : (s.update w k).limit = s.limit :=
  rfl
@[simp] theorem update_pending (s : Pool) (w : Nat) (k : Worker) :
    (s.update w k).pending = s.pending := rfl
@[simp] theorem update_workers (s : Pool) (w : Nat) (k : Worker) :
    (s.update w k).workers = s.workers.set w k := rfl
@[simp] theorem update_active (s : Pool) (w : Nat) (k : Worker) :
    (s.update w k).active = s.active := rfl
@[simp] theorem update_written (s : Pool) (w : Nat) (k : Worker) :
    (s.update w k).written = s.written := rfl
@[simp] theorem update_loop (s : Pool) (w : Nat) (k : Worker) : (s.update w k).loop = s.loop := rfl

/-- A step of the server. -/
inductive ServerStep : Pool → Pool → Prop where
  | spawn {s : Pool} {j : Job} {rest : List Job} (hloop : s.loop = .fill)
      (hpending : s.pending = j :: rest) (hfree : s.active.length < s.limit)
      (hjob : j.check = .ok j) : ServerStep s (s.spawn j rest)
  | refuse {s : Pool} {j : Job} {rest : List Job} {m : String} (hloop : s.loop = .fill)
      (hpending : s.pending = j :: rest) (hfree : s.active.length < s.limit)
      (hjob : j.check = .error m) : ServerStep s { s with loop := .refused m }
  | wait {s : Pool} {j : Job} {rest : List Job} {seen : Nat → Bool} (hloop : s.loop = .fill)
      (hpending : s.pending = j :: rest) (hfull : s.limit ≤ s.active.length)
      (hseen : s.Answers seen) : ServerStep s (s.collectWith seen)
  | endFill {s : Pool} (hloop : s.loop = .fill) (hpending : s.pending = []) :
      ServerStep s { s with loop := .drain }
  | drain {s : Pool} {seen : Nat → Bool} (hloop : s.loop = .drain) (hactive : s.active ≠ [])
      (hseen : s.Answers seen) : ServerStep s (s.collectWith seen)
  | finish {s : Pool} (hloop : s.loop = .drain) (hactive : s.active = []) :
      ServerStep s { s with loop := .send }

/-- A step of one worker, on a machine whose pipes hold `p.capacity` bytes. -/
inductive WorkerStep (p : Platform) : Pool → Pool → Prop where
  | write {s : Pool} {w : Nat} {k : Worker} (hk : s.workers[w]? = some k) (hrun : k.exited = false)
      (hleft : k.sent < k.size) (hroom : k.sent < p.capacity) :
      WorkerStep p s (s.update w { k with sent := k.sent + 1 })
  | exit {s : Pool} {w : Nat} {k : Worker} (hk : s.workers[w]? = some k) (hrun : k.exited = false)
      (hall : k.sent = k.size) : WorkerStep p s (s.update w { k with exited := true })

/-- A step of the pool: of the server, or of one worker. -/
inductive Step (p : Platform) : Pool → Pool → Prop where
  | server {s t : Pool} (h : ServerStep s t) : Step p s t
  | worker {s t : Pool} (h : WorkerStep p s t) : Step p s t

end Pool

end Reckon
