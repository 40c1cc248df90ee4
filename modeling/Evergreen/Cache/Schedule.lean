import Evergreen.Cache.Reload

/-!
# Registering and scanning

A request is left to the poller by registering it. A scan offers a reload of every registered
request that is due, each with the entry that a lookup finds then; what comes of one offer
does not matter to the next. The requests to visit are fixed when the scan begins.
-/

namespace Evergreen.Cache

/-- Starts the poller, unless it was started before. -/
def startPoller (c : Cache) : Cache :=
  match c.poller.phase with
  | .unstarted =>
    { c with poller := c.poller.await c.now }.record (.pollerStarted c.poller.interval)
  | _ => c

/-- Puts a request into the registry. -/
def enroll (c : Cache) (r : Request) : Cache :=
  { c with poller := { c.poller with registry := c.poller.registry.insert r } }.startPoller

/-- Registers a request unless its key is registered; says whether it did. -/
def registerIfAbsent (c : Cache) (r : Request) : Except CallFault Bool × Cache :=
  if c.poller.closed then (.error .closed, c.record (.registrationDeclined r.key))
  else if c.poller.registry.requests.contains r.key then (.ok false, c)
  else (.ok true, c.enroll r)

/-- Registers a request in place of another of its key; says whether it did. A request that
takes the place of another starts out as never refreshed. -/
def register (c : Cache) (r : Request) : Except CallFault Bool × Cache :=
  if c.poller.closed then (.error .closed, c.record (.registrationDeclined r.key))
  else
    match c.poller.registry.requests.find? r.key with
    | none => (.ok true, c.enroll r)
    | some old =>
      if c.poller.registry.keeps old r then (.ok false, c.record (.registrationKept r.key))
      else (.ok true, (c.resetMark r.family).enroll r)

/-- Takes the request under a key out of the registry; says whether there was one. -/
def unregister (c : Cache) (k : Key) : Bool × Cache :=
  (c.poller.registry.requests.contains k,
    { c with poller := { c.poller with registry := c.poller.registry.erase k } })

/-- Makes the request registered under a key due. -/
def resetRegistered (c : Cache) (k : Key) : Cache :=
  match c.poller.registry.request? k with
  | none => c
  | some r => c.resetMark r.family

/-- Makes every registered request due. -/
def resetAll (c : Cache) : Cache :=
  c.poller.registry.requests.values.foldl (fun c reg => c.resetMark reg.request.family) c

/-! ## Scans -/

/-- The registered requests that are due. -/
def dueRequests (c : Cache) : List Request :=
  (c.poller.registry.requests.values.map (·.request)).filter c.isDue

/-- Begins a scan, if the poller waits and its deadline has come. -/
def beginScan? (c : Cache) : Option Cache :=
  match c.poller.phase with
  | .waiting deadline =>
    if deadline ≤ c.now then
      let registry := { c.poller.registry with scans := c.poller.registry.scans + 1 }
      let poller := { c.poller with registry, phase := .scanning c.dueRequests }
      some ({ c with poller }.record (.scanBegan c.now))
    else none
  | _ => none

/-- The requests that a scan has left to visit. -/
def scanLeft (c : Cache) : List Request :=
  match c.poller.phase with
  | .scanning due => due
  | _ => []

/-- Visits one of the requests that a scan has left: offers a reload with what a lookup finds.
A reload that runs on the poller's own thread is handed back, to be finished first. -/
def visit (c : Cache) (r : Request) : Option Load × Cache :=
  match c.poller.phase with
  | .scanning due =>
    let c := { c with poller := { c.poller with phase := .scanning (due.erase r) } }
    let (stale, c) := c.lookup r.key
    match c.offer r stale true with
    | (.done o, c) => (none, c.record (.refreshOffered r.key o))
    | (.running l, c) => (some l, c)
  | _ => (none, c)

/-- Ends a scan that has nothing left to visit. -/
def endScan (c : Cache) : Cache :=
  match c.poller.phase with
  | .scanning [] =>
    let c := c.count .schedulerTicks
    if c.poller.closed then
      { c with poller := { c.poller with phase := .finished } }.record .pollerStopped
    else { c with poller := c.poller.await c.now }
  | _ => c

/-! ## Closing -/

/-- Closes the poller: nothing is registered any more. One that waits stops at once, one that
is in a scan after it; one that a panic has ended cannot be stopped. -/
def close (c : Cache) : Cache :=
  if c.poller.closed then c
  else
    let c := { c with poller := { c.poller with closed := true } }
    match c.poller.phase with
    | .waiting _ =>
      { c with poller := { c.poller with phase := .finished } }.record .pollerStopped
    | .crashed => c.record .pollerPanicked
    | _ => c

/-- What is left of a cache that nobody holds any more: a poller that waits stops. -/
def dispose (c : Cache) : Cache :=
  match c.poller.phase with
  | .waiting _ => c.close
  | _ => { c with poller := { c.poller with closed := true } }

end Evergreen.Cache
