import Evergreen.Journal
import Evergreen.WorkerPool.Basic

/-!
# Sessions with a worker pool

A session hands jobs to a pool, opens gates and shuts the pool down, and after each step lets
the pool go as far as it can. Who holds the pool may let go of it; the jobs it has accepted
are run all the same.
-/

namespace Evergreen.WorkerPool

/-- What is done with a pool. -/
inductive Step where
  | submit (job : Job)
  | release (gate : String)
  /-- Opens every gate and shuts the pool down. -/
  | shutdown
  /-- Opens every gate and lets go of the pool. -/
  | letGo

/-- What shows after a step. -/
structure StepReport where
  /-- What became of the job that was handed over, if one was. -/
  answer : Option (Except Refusal Unit)
  /-- The jobs that ended in this step: with a single worker in the order they ended and with
  its thread, else by name. -/
  done : List (String × Option String)
  /-- The jobs that wait at a gate, by name. -/
  running : List String
  /-- The pool as a text, and the length of its queue, until it is let go of. -/
  pool : Option (String × Nat)
  events : List Event

/-- A pool, and whether someone still holds it. -/
structure Session where
  pool : WorkerPool
  isHeld : Bool := true

namespace Session

/-- Does what a step says, before the pool has moved. -/
def act (s : Session) : Step → Option (Except Refusal Unit) × Session
  | .submit job =>
    match s.pool.submit job with
    | .ok pool => (some (.ok ()), { s with pool })
    | .error why => (some (.error why), s)
  | .release gate => (none, { s with pool := s.pool.openGate gate })
  | .shutdown => (none, { s with pool := s.pool.shutdown })
  | .letGo => (none, ⟨s.pool.shutdown, false⟩)

def inOrder (names : List String) : List String := names.mergeSort fun a b => !decide (b < a)

/-- One step. -/
def step (s : Session) (step : Step) : StepReport × Session :=
  let before := s.pool.finished.length
  let (answer, s) := s.act step
  let pool := s.pool.settle
  let ended := pool.finished.drop before
  let names := ended.map (·.name)
  let report : StepReport := {
    answer
    done :=
      if pool.workers = 1 then names.map fun n => (n, some (threadName 0))
      else (inOrder names).map fun n => (n, none)
    running := inOrder (pool.atGates.map (·.name))
    pool := if s.isHeld then some (pool.inspect, pool.crew.waiting.length) else none
    events := (ended.filter (·.panic.isSome)).map fun _ => .reloadPanicked }
  (report, { s with pool })

/-- The steps in turn. -/
def run (s : Session) : List Step → List StepReport
  | [] => []
  | step :: steps =>
    let (report, s) := s.step step
    report :: s.run steps

end Session

end Evergreen.WorkerPool
