import Evergreen.Crew
import Evergreen.Gates

/-!
# The worker pool

A pool has a fixed number of workers and a queue of limited length. Workers take tasks in the
order they were accepted. A task may wait at a gate, may shut the pool down, and may panic; a
panic is logged and the worker goes on.

Shutting a pool down ends the intake; tasks that were accepted are still run. Who shuts the
pool down waits until every other worker has run dry, so a task that does it is not finished
before. Only the first to shut a pool down waits.

`WorkerPool.settle` lets the pool go as far as it can: as long as a task can move, one does.
-/

namespace Evergreen

/-- A task of the pool. -/
structure Job where
  name : String
  /-- Where it waits first. -/
  gate : Option String := none
  /-- Whether it then shuts the pool down. -/
  closes : Bool := false
  /-- What it panics with at its end. -/
  panic : Option String := none
  deriving DecidableEq, Repr

/-- A job that a worker has taken up. One that shut the pool down may be waiting for the
others. -/
structure HeldJob where
  job : Job
  joining : Bool := false
  deriving DecidableEq, Repr

/-- The sizes a pool may have. -/
def checkPool (workers room : Nat) : Except ConfigFault Unit :=
  if workers = 0 then .error .zeroWorkers
  else if room = 0 then .error .zeroQueueCapacity
  else .ok ()

/-- A pool, its gates and what it has finished, in the order it was finished. -/
structure WorkerPool where
  workers : Nat
  room : Nat
  crew : Crew Job HeldJob
  /-- How many workers nobody has waited for yet. -/
  unjoined : Nat
  gates : Gates := {}
  finished : List Job := []

namespace WorkerPool

/-- A pool with idle workers and nothing to do. -/
def create (workers room : Nat) : Except ConfigFault WorkerPool := do
  checkPool workers room
  let crew := { room := some room, hands := some workers, inOrder := true }
  return { workers, room, crew, unjoined := workers }

/-- Hands a job to the pool. -/
def submit (p : WorkerPool) (j : Job) : Except Refusal WorkerPool := do
  return { p with crew := ← p.crew.offer j }

/-- Ends the intake. -/
def shut (p : WorkerPool) : WorkerPool := { p with crew := p.crew.shut, unjoined := 0 }

/-- Opens a gate. -/
def openGate (p : WorkerPool) (name : String) : WorkerPool :=
  { p with gates := p.gates.opened name }

/-- Opens every gate and ends the intake. -/
def shutdown (p : WorkerPool) : WorkerPool := { p with gates := p.gates.allOpened }.shut

/-- Whether the worker of a held job can go on. -/
def canMove (p : WorkerPool) (h : HeldJob) : Bool :=
  if h.joining then p.workers == 1 || (p.crew.waiting.isEmpty && p.crew.held.length == 1)
  else p.gates.pass h.job.gate

/-- The held job at a place ends. -/
def finish (p : WorkerPool) (i : Nat) (h : HeldJob) : WorkerPool :=
  { p with
    crew := { p.crew with held := p.crew.held.eraseIdx i }
    finished := p.finished ++ [h.job] }

/-- The worker of the held job at a place goes on: to wait for the others, if the job is the
first to shut the pool down, else to the job's end. -/
def move (p : WorkerPool) (i : Nat) (h : HeldJob) : WorkerPool :=
  if h.job.closes && !h.joining then
    let first := p.unjoined != 0
    let p := p.shut
    if first then { p with crew := { p.crew with held := p.crew.held.set i ⟨h.job, true⟩ } }
    else p.finish i h
  else p.finish i h

/-- One move: a held job that can go on does, or else an idle worker takes the next job. -/
def step? (p : WorkerPool) : Option WorkerPool :=
  match p.crew.held.findIdx? p.canMove with
  | some i => p.crew.held[i]?.map (p.move i)
  | none => do
    let (job, crew) ← p.crew.take? 0
    return { p with crew := crew.hold ⟨job, false⟩ }

/-- A bound on the moves that are left: three for a job that waits, at most two for one that
is held. -/
def movesLeft (p : WorkerPool) : Nat :=
  3 * p.crew.waiting.length +
    p.crew.held.foldr (fun h n => (if h.joining then 1 else 2) + n) 0

/-- At most `n` moves. -/
def run : Nat → WorkerPool → WorkerPool
  | 0, p => p
  | n + 1, p =>
    match p.step? with
    | none => p
    | some p' => run n p'

/-- Lets the pool go as far as it can. -/
def settle (p : WorkerPool) : WorkerPool := p.run p.movesLeft

/-- The jobs that wait at a gate. -/
def atGates (p : WorkerPool) : List Job :=
  (p.crew.held.filter fun h => !h.joining).map (·.job)

def inspect (p : WorkerPool) : String :=
  Text.record "WorkerPool" [
    ("workers", toString p.unjoined),
    ("capacity", toString p.room),
    ("queued", toString p.crew.waiting.length)]

/-- The name of the thread of a worker. -/
def threadName (worker : Nat) : String := "fibre-refresh-worker-" ++ toString worker

end WorkerPool

end Evergreen
