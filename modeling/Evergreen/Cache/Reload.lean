import Evergreen.Cache.Load

/-!
# Reloads in flight

At most one background reload of a key is in flight. The key is marked before the executor is
asked, and the mark is taken away however the reload ends: refused, dropped unrun, with a
value, a failure or a panic.
-/

namespace Evergreen.Cache

/-- Marks a key as being reloaded. -/
def markInFlight (c : Cache) (k : Key) : Cache := { c with inFlight := k :: c.inFlight }

/-- Takes the mark of a key away. -/
def clearInFlight (c : Cache) (k : Key) : Cache := { c with inFlight := c.inFlight.erase k }

/-- What came of offering a reload, where it may already run on the thread that offered
it. -/
inductive Offer where
  | done (o : Offered)
  | running (l : Load)

/-- Offers a reload of a request to the executor, unless one of its key is in flight. -/
def offer (c : Cache) (r : Request) (stale : Option Entry) (byPoller : Bool) :
    Offer × Cache :=
  if c.inFlight.contains r.key then
    let c := (c.record (.reloadInFlight r.key)).count .reloadsDeduplicated
    (.done .alreadyInFlight, c)
  else
    let c := c.markInFlight r.key
    match c.executor with
    | .inPlace =>
      let (load, c) := c.enter r stale (.lent byPoller)
      (.running load, c)
    | _ =>
      match c.crew.offer ⟨r, stale⟩ with
      | .ok crew => (.done .started, { c with crew }.count .reloadsStarted)
      | .error why =>
        let c := (c.clearInFlight r.key).record (.reloadRefused r.key why)
        (.done (.refused why), c.count .reloadsRejected)

/-- A hand takes up the reload at a place of the queue, if it may. -/
def start? (c : Cache) (i : Nat) : Option (Load × Cache) := do
  let (task, crew) ← c.crew.take? i
  return { c with crew }.enter task.request task.stale .worker

/-- Drops the reload at a place of the queue unrun. -/
def discard? (c : Cache) (i : Nat) : Option (Reload × Cache) := do
  let (task, crew) ← c.crew.remove? i
  return (task, { c with crew }.clearInFlight task.key)

/-- The poller is ended by a panic. -/
def crash (c : Cache) : Cache := { c with poller := { c.poller with phase := .crashed } }

/-- Ends a load with what its loader made of it.

A background load has nobody to hand a failure to. Where the executor lent the thread that
offered the reload, the offer comes to an end as well: it is counted then, and recorded if the
poller made it; a panic goes on through the offer instead, and ends the poller if it was the
poller's. -/
def finish (c : Cache) (l : Load) (o : Outcome) : Ending × Cache :=
  let (ending, c) := (c.leave l).settle l o
  match l.seat with
  | .caller => (ending, c)
  | seat =>
    let c := match ending with
      | .failed fault => c.record (.failureDropped fault l.key)
      | _ => c
    let c := c.clearInFlight l.key
    match seat, ending with
    | .worker, .panicked _ =>
      match c.executor with
      | .pool .. => (ending, c.record .reloadPanicked)
      | _ => (ending, c)
    | .lent byPoller, .panicked _ => (ending, if byPoller then c.crash else c)
    | .lent byPoller, _ =>
      let c := c.count .reloadsStarted
      (ending, if byPoller then c.record (.refreshOffered l.key .started) else c)
    | _, _ => (ending, c)

end Evergreen.Cache
