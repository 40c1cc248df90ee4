import Evergreen.Request
import Evergreen.Table

/-!
# The poller

The poller holds at most one registered request for each key. It starts with the first
registration. From then on it waits for its next deadline, scans what is registered, and sets
a new deadline an interval after the end of the scan, until the cache is closed.

A deadline that no timer can be set to, or a panic that reaches the poller during a scan, ends
it for good (`Phase.crashed`); it still counts as running then, because nothing has told it to
stop.
-/

namespace Evergreen

/-- A registered request, and how many scans had begun before it was registered. -/
structure Registration where
  request : Request
  scansBefore : Nat
  deriving DecidableEq, Repr

/-- What is registered, and how many scans have begun. -/
structure Registry where
  requests : Table Registration := {}
  scans : Nat := 0

namespace Registry

/-- The request registered under a key. -/
def request? (r : Registry) (k : Key) : Option Request :=
  (r.requests.find? k).map (·.request)

/-- Registers a request in place of any other under its key. -/
def insert (r : Registry) (q : Request) : Registry :=
  { r with requests := r.requests.insert q.key ⟨q, r.scans⟩ }

def erase (r : Registry) (k : Key) : Registry :=
  { r with requests := r.requests.erase k }

/-- Whether registering `q` over `old` would change nothing: it is a copy of the request that
is registered, or no scan has begun since that one was registered. -/
def keeps (r : Registry) (old : Registration) (q : Request) : Bool :=
  old.request.sameAs q || old.scansBefore == r.scans

end Registry

/-- Where the poller stands. -/
inductive Phase where
  /-- Nothing was ever registered. -/
  | unstarted
  | waiting (deadline : Nat)
  /-- In a scan, with the requests that are still to be visited. -/
  | scanning (due : List Request)
  /-- Ended by a panic. -/
  | crashed
  /-- Ended because the cache was closed. -/
  | finished

/-- The poller as it shows from outside. -/
inductive PollerState where
  | stopped
  | running
  | stopping
  deriving DecidableEq, Repr

def PollerState.inspect : PollerState → String
  | stopped => "Stopped"
  | running => "Running"
  | stopping => "Stopping"

/-- Interval, registrations and progress of the poller. -/
structure Poller where
  interval : Nat
  registry : Registry := {}
  phase : Phase := .unstarted
  closed : Bool := false

namespace Poller

/-- What the poller shows: one that was told to stop but has not got round to it is
stopping. -/
def state (p : Poller) : PollerState :=
  match p.phase with
  | .unstarted | .finished => .stopped
  | .waiting _ | .scanning _ | .crashed => if p.closed then .stopping else .running

/-- Waits an interval from `now` on. -/
def await (p : Poller) (now : Nat) : Poller :=
  let deadline := now + p.interval
  { p with phase := if Clock.reachable deadline then .waiting deadline else .crashed }

def inspect (p : Poller) : String :=
  Text.record "Scheduler" [
    ("poll_interval", Text.elapsed p.interval),
    ("state", p.state.inspect),
    ("registered", toString p.registry.requests.size)]

end Poller

end Evergreen
