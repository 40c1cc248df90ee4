import Evergreen.Cache.Schedule

/-!
# What callers do

The operations of a cache as its callers know them. `Cache.get` is the one that may take time:
it comes back with an answer, or with a load that has to be finished first.
-/

namespace Evergreen.Cache

/-- How a get goes on. -/
inductive Reply where
  /-- With a value, or nothing. -/
  | answered (v : Option Value)
  /-- With what this load of the caller's comes to. -/
  | loading (l : Load)
  /-- With a value, or nothing, as soon as the reload that the executor runs on the caller's
  thread is finished. -/
  | lent (l : Load) (v : Option Value)

/-- Counts what a lookup found. -/
def countFound (c : Cache) (f : Freshness) : Cache :=
  c.count (match f with
    | .fresh => .freshHits
    | .stale => .staleHits
    | .miss => .misses)

/-- Asks for the value of a request: the mode table, on what a lookup finds. -/
def get (c : Cache) (r : Request) : Reply × Cache :=
  let (found, c) := c.lookup r.key
  let freshness := Freshness.of found c.now
  let c := c.countFound freshness
  let usable := if freshness = .miss then none else found
  let value := usable.map (·.value)
  match r.mode.action freshness with
  | .serve => (.answered value, c)
  | .loadForCaller =>
    let (load, c) := c.enter r usable .caller
    (.loading load, c)
  | .serveAndReload =>
    match c.offer r usable false with
    | (.done _, c) => (.answered value, c)
    | (.running load, c) => (.lent load value, c)
  | .serveAndRegister =>
    -- A closed cache declines quietly; the caller still gets what the store holds.
    (.answered value, (c.registerIfAbsent r).2)

/-- The entry under a key, without loading, refreshing or counting. -/
def peek (c : Cache) (k : Key) : Option Entry × Cache := c.lookup k

/-- Stores an entry under a key; says whether it was accepted. -/
def setEntry (c : Cache) (k : Key) (e : Entry) : Except CallFault Bool × Cache :=
  match checkKey k with
  | .error fault => (.error (.config fault), c)
  | .ok _ => let (accepted, c) := c.write k e; (.ok accepted, c)

/-- Stores a value under a key, usable and fresh for `ttl`; says whether it was accepted. -/
def set (c : Cache) (k : Key) (v : Value) (ttl : Nat) : Except CallFault Bool × Cache :=
  match checkKey k, Entry.create c.now v ttl ttl with
  | .error fault, _ => (.error (.config fault), c)
  | .ok _, .error fault => (.error (.config fault), c)
  | .ok _, .ok e => let (accepted, c) := c.write k e; (.ok accepted, c)

/-- Removes what is under a key, and makes the request registered under it due; says whether
something was removed. -/
def remove (c : Cache) (k : Key) : Bool × Cache := (c.resetRegistered k).drop k

/-- Removes everything, and makes every registered request due. -/
def removeAll (c : Cache) : Cache := c.dropAll.resetAll

/-- Leaves a request to the poller, in place of another of its key; says whether that changed
anything. -/
def schedule (c : Cache) (r : Request) : Except CallFault Bool × Cache := c.register r

/-- Stops refreshing a key; the entry is kept. Says whether it was registered. -/
def unschedule (c : Cache) (k : Key) : Bool × Cache := c.unregister k

def isScheduled (c : Cache) (k : Key) : Bool := c.poller.registry.requests.contains k

def scheduledKeys (c : Cache) : List Key := c.poller.registry.requests.keys

end Evergreen.Cache
