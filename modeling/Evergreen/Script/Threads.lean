import Evergreen.Script.Stage

/-!
# Threads

Loaders play their parts on the thread that asked for the load or on one of the executor's.
The first goes through a part without a stop. The executor's threads wait where a gate is
closed, and go on when it is open; if the load at the gate is one that another load waits for,
on the same thread, then both wait.

How a part's own steps are performed is left to a `Player`.
-/

namespace Evergreen.Script

/-- How steps are performed, and how the executor's threads are let go as far as they can. -/
structure Player where
  perform : Stage → Step → Answer × Stage
  settle : Stage → Stage

namespace Stage

/-- The answer of a get whose load has ended. -/
def answerOf : Cache.Ending → Answer
  | .returned none => .nothing
  | .returned (some v) => .text v
  | .failed fault => .failed fault
  | .panicked text => .panicked text

/-- A load at its beginning. Where no part of its loader says otherwise, the `n`-th call
returns `v` and `n`. -/
def playing (s : Stage) (l : Load) : Playing :=
  let call := s.cache.calls l.request.family
  let usual := Outcome.value ("v" ++ toString call) true
  match (s.parts l.request.family)[call - 1]? with
  | none => { load := l, outcome := usual }
  | some (.mk during gate outcome) => ⟨l, during, gate, outcome.getD usual⟩

/-- Ends a load that has come to the end of its part. -/
def finish (s : Stage) (p : Playing) : Cache.Ending × Stage :=
  let (ending, c) := s.cache.finish p.load p.outcome
  (ending, s.withCache c)

/-- Plays the part of a load on the thread that waits for it, and ends the load. -/
def playThrough (inner : Player) (s : Stage) (l : Load) : Cache.Ending × Stage :=
  let p := s.playing l
  let s := p.left.foldl (fun s step =>
    let (answer, s) := inner.perform s step
    s.note (.performed l.key step.word answer)) s
  s.finish p

/-! ## The executor's own threads -/

/-- The load that a step has to wait for. -/
def loadFor? (s : Stage) : Step → Option (Load × Stage)
  | .get id => do
    let r ← s.requests.find? id
    match s.cache.get r with
    | (.loading load, c) => some (load, s.withCache c)
    | _ => none
  | _ => none

/-- A thread goes on with its loads, by at most `n` steps and ends of loads: up to a closed
gate, or to the end of its last load. -/
def proceed (inner : Player) : Nat → List Playing → Stage → Stage
  | 0, _, s => s
  | _ + 1, [], s => s
  | n + 1, p :: waiting, s =>
    match p.left with
    | step :: left =>
      let p := { p with left }
      match s.loadFor? step with
      | some (load, s) => proceed inner n (s.playing load :: p :: waiting) s
      | none =>
        let (answer, s) := inner.perform s step
        proceed inner n (p :: waiting) (s.note (.performed p.load.key step.word answer))
    | [] =>
      if s.gates.pass p.gate then
        let (ending, s) := s.finish p
        match waiting with
        | [] => s
        | q :: _ =>
          let s := inner.settle s
          let got := Note.performed q.load.key "get" (answerOf ending)
          proceed inner n waiting (s.note got)
      else { s with parked := s.parked ++ [p :: waiting] }

/-- A bound on the steps and ends of loads of one thread: every step is performed once, and
every load but the first began with one. -/
def proceedBound (s : Stage) : Nat := 2 * (s.size + 1)

/-- Whether the executor takes up tasks by itself. -/
def selfRunning (s : Stage) : Bool :=
  match s.cache.executor with
  | .pool .. | .threads => true
  | _ => false

/-- A thread takes up the next task. -/
def takeUp (inner : Player) (s : Stage) : Option Stage := do
  let (load, c) ← s.cache.start? 0
  let s := s.withCache c
  return s.proceed inner s.proceedBound [s.playing load]

/-- Whether a thread waits at an open gate. -/
def canPass (s : Stage) (thread : List Playing) : Bool :=
  thread.head?.any fun p => s.gates.pass p.gate

/-- One move of the executor's threads: past a gate, or to the next task. -/
def move? (inner : Player) (s : Stage) : Option Stage :=
  match s.parked.find? s.canPass with
  | some thread =>
    let s := { s with parked := s.parked.eraseP s.canPass }
    some (s.proceed inner s.proceedBound thread)
  | none => if s.selfRunning then s.takeUp inner else none

/-- At most `n` moves. -/
def moves (inner : Player) : Nat → Stage → Stage
  | 0, s => s
  | n + 1, s =>
    match s.move? inner with
    | none => s
    | some s' => moves inner n s'

/-- A bound on the moves before everything stands: two for each load, and there are no more
than are in flight now, or than all the steps of the script could offer. -/
def moveBound (s : Stage) : Nat :=
  2 * (s.cache.inFlight.length + s.size * (s.size + 1))

/-- Lets the executor's threads go as far as they can. -/
def settleWith (inner : Player) (s : Stage) : Stage :=
  s.onThread true fun s => s.moves inner s.moveBound

end Stage

end Evergreen.Script
