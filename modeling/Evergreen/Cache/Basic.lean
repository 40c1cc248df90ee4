import Evergreen.Cache.Poller
import Evergreen.Counters
import Evergreen.Crew
import Evergreen.Journal
import Evergreen.Settings

/-!
# The cache

A cache is a store, a crew that runs background reloads, a poller, and what they share: the
clock, the keys whose reload is in flight, the refresh marks of request families and the
counters. It is a value; every operation takes a cache to the next one, and the journal says
what happened on the way.

Loads take time, and other things happen meanwhile. So a load is two operations: one that
begins it, with the loader being called, and one that ends it with what the loader made of it
(`Outcome`). In between, the load stands in the cache: among the callers', or held by the
crew.
-/

namespace Evergreen

/-- How an executor runs the tasks it is handed. -/
inductive Executor where
  /-- A number of workers and a queue of limited length; panics are logged. -/
  | pool (workers room : Nat)
  /-- Every task at once, on a thread of its own. -/
  | threads
  /-- Tasks wait until someone runs or drops them. -/
  | byHand (room : Option Nat)
  /-- Every task at once, on the thread that offers it. -/
  | inPlace
  /-- Every task is refused. -/
  | declining (why : Refusal)
  deriving DecidableEq, Repr

/-- The thread that a load runs on. -/
inductive Seat where
  /-- A caller waits for it. -/
  | caller
  /-- A hand of the executor has it. -/
  | worker
  /-- The executor runs it on the thread that offered it: the poller's, or a caller's that
  does not wait for the value. -/
  | lent (byPoller : Bool)
  deriving DecidableEq, Repr

/-- Only a load that a caller waits for is synchronous. -/
def Seat.invocation : Seat → Invocation
  | caller => .sync
  | worker | lent _ => .background

/-- A reload that waits to be run, with the stale entry it was offered with. -/
structure Reload where
  request : Request
  stale : Option Entry
  deriving DecidableEq, Repr

def Reload.key (r : Reload) : Key := r.request.key

/-- A load under way: its loader has been called and has not returned. -/
structure Load where
  id : Nat
  request : Request
  stale : Option Entry
  seat : Seat
  started : Nat
  deriving DecidableEq, Repr

def Load.key (l : Load) : Key := l.request.key

def Load.invocation (l : Load) : Invocation := l.seat.invocation

/-- What a loader makes of a call. -/
inductive Outcome where
  /-- A value, to be stored or only handed out. -/
  | value (v : Value) (cacheable : Bool)
  | failure (f : Failure)
  | panic (text : String)
  deriving DecidableEq, Repr

/-- A cache. -/
structure Cache where
  now : Nat
  createdAt : Nat
  backing : Backing
  executor : Executor
  crew : Crew Reload Load
  /-- Keys whose reload was accepted and has neither ended nor been dropped. -/
  inFlight : List Key := []
  /-- Loads that callers wait for. -/
  callers : List Load := []
  poller : Poller
  /-- When each family was last refreshed, on a 64-bit clock. -/
  marks : Nat → Option Nat := fun _ => none
  /-- How often the loader of each family was called. -/
  calls : Nat → Nat := fun _ => 0
  counters : Counters := Counters.zero
  nextLoad : Nat := 0
  /-- What happened so far, the latest first. -/
  journal : List Event := []

/-- The crew of an executor, with nothing to do. -/
def Executor.crew : Executor → Crew Reload Load
  | pool workers room => { room := some room, hands := some workers, inOrder := true }
  | threads => {}
  | byHand room => { room }
  | inPlace => {}
  | declining why => { refusal := some why }

namespace Cache

/-- Adds an event to the journal. -/
def record (c : Cache) (e : Event) : Cache := { c with journal := e :: c.journal }

/-- Counts one more of a kind. -/
def count (c : Cache) (k : Counter) : Cache := { c with counters := c.counters.bump k }

/-- Sets the mark of a family to now. Zero stands for never on a 64-bit clock, so the mark is
at least one. -/
def markRefreshed (c : Cache) (family : Nat) : Cache :=
  let before := c.marks
  let mark := max 1 (Clock.wrap c.now)
  { c with marks := fun f => if f = family then some mark else before f }

/-- Takes the mark of a family away: it was never refreshed. -/
def resetMark (c : Cache) (family : Nat) : Cache :=
  let before := c.marks
  { c with marks := fun f => if f = family then none else before f }

/-- All loads under way. -/
def loads (c : Cache) : List Load := c.callers ++ c.crew.held

/-- The counters and the time the cache has been up. -/
def snapshot (c : Cache) : Snapshot :=
  ⟨c.counters, (c.now - c.createdAt) / Clock.second⟩

/-- Whether a reload of the key is in flight. -/
def isReloading (c : Cache) (k : Key) : Bool := c.inFlight.contains k

/-- Whether a request wants a refresh. -/
def isDue (c : Cache) (r : Request) : Bool := r.due (c.marks r.family) c.now

/-- Moves the clock, never back. -/
def tick (c : Cache) (now : Nat) : Cache := { c with now := max c.now now }

def inspect (c : Cache) : String :=
  let coordinator :=
    Text.partialRecord "ReloadCoordinator" [("in_flight", toString c.inFlight.length)]
  let engine := Text.partialRecord "Engine"
    [("coordinator", coordinator), ("metrics", c.snapshot.inspect)]
  Text.record "RefreshCache" [("engine", engine), ("scheduler", c.poller.inspect)]

end Cache

end Evergreen
