import Evergreen.Gates
import Evergreen.Script.Basic

/-!
# The stage of a script

What a script has set up so far: the cache, the requests and entries it can name, the parts of
its loaders, the gates, the threads that wait at one, and what was noted of the current step.
Notes of threads that the executor runs by itself are kept apart, because their order among
the others says nothing.
-/

namespace Evergreen.Script

/-- Which store operations fail, with what and up to which call, and whether sets are
declined. -/
structure Outages where
  faults : StoreOp → Option (StoreFault × Option Nat) := fun _ => none
  declining : Bool := false

/-- What the calls of the store meet while nothing else is said. -/
def Outages.forecast (o : Outages) : Forecast := fun op n =>
  let otherwise := if op = .set && o.declining then .ignore else .pass
  match o.faults op with
  | none => otherwise
  | some (fault, none) => .fail fault
  | some (fault, some last) => if n < last then .fail fault else otherwise

/-- A load under way: the steps that its loader has yet to perform, the gate it comes to after
them, and what it makes of the call. -/
structure Playing where
  load : Load
  left : List Step := []
  gate : Option String := none
  outcome : Outcome

/-- What a script has set up so far. -/
structure Stage where
  cache : Cache
  requests : Table Request := {}
  entries : Table Entry := {}
  /-- The parts of each family's loader. -/
  parts : Nat → List Part := fun _ => []
  families : Nat := 0
  gates : Gates := {}
  /-- The executor's threads that wait at a gate. A thread has a load under way for each get
  that waits for another, the innermost first. -/
  parked : List (List Playing) := []
  outages : Outages := {}
  /-- Whether the executor's own threads are at work. -/
  onWorker : Bool := false
  /-- Notes of the current step, the latest first. -/
  notes : List Note := []
  workerNotes : List Note := []
  /-- How much is written down in the script. -/
  size : Nat

namespace Stage

/-- Adds notes, the latest first. -/
def addNotes (s : Stage) (ns : List Note) : Stage :=
  let (workers, others) := ns.partition fun n => s.onWorker && !n.isPollers
  { s with workerNotes := workers ++ s.workerNotes, notes := others ++ s.notes }

/-- Moves the events of the journal, which are those since the last time, into the notes. -/
def catchUp (s : Stage) : Stage :=
  let cache := { s.cache with journal := [] }
  { s with cache }.addNotes (s.cache.journal.map Note.event)

/-- Notes one thing, after the events before it. -/
def note (s : Stage) (n : Note) : Stage := s.catchUp.addNotes [n]

/-- Does something on another kind of thread. -/
def onThread (s : Stage) (worker : Bool) (act : Stage → Stage) : Stage :=
  let before := s.onWorker
  let s := (act { s.catchUp with onWorker := worker }).catchUp
  { s with onWorker := before }

/-- Notes by key, those without one first. -/
def byKey (ns : List Note) : List Note := ns.mergeSort fun a b => keyLE a.key? b.key?

/-- Does something whose notes are put in order by key. -/
def inKeyOrder (s : Stage) (act : Stage → Stage) : Stage :=
  let s := s.catchUp
  let before := s.notes
  let s := (act { s with notes := [] }).catchUp
  { s with notes := (byKey s.notes.reverse).reverse ++ before }

/-- The notes of a step: those of the executor's own threads after all others, by key. -/
def report (s : Stage) : List Note × Stage :=
  let s := s.catchUp
  (s.notes.reverse ++ byKey s.workerNotes.reverse, { s with notes := [], workerNotes := [] })

/-- Changes the outages, and with them what the store's next calls meet. -/
def setOutages (s : Stage) (o : Outages) : Stage :=
  let backing := { s.cache.backing with forecast := o.forecast }
  { s with outages := o, cache := { s.cache with backing } }

/-- Replaces the cache. -/
def withCache (s : Stage) (c : Cache) : Stage := { s with cache := c }

end Stage

end Evergreen.Script
