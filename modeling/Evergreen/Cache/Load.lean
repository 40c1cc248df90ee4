import Evergreen.Cache.Lookup

/-!
# Loading

A load begins with a call of the loader (`Cache.enter`). Its end depends on what the loader
makes of the call: a value is stored, if it may be, and marks the family as refreshed; a
failure is dealt with by the one cell of the policy that the load selects.

`Cache.settle` is the end of a load as such. What else its end means to the thread it ran on
and to the key's reload is added in `Evergreen.Cache.Reload`.
-/

namespace Evergreen.Cache

/-- Calls the loader of a request, on the thread given. -/
def enter (c : Cache) (r : Request) (stale : Option Entry) (seat : Seat) : Load × Cache :=
  let c := c.count (match seat.invocation with
    | .sync => .syncLoads
    | .background => .backgroundLoads)
  let load : Load := { id := c.nextLoad, request := r, stale, seat, started := c.now }
  let before := c.calls
  let call := before r.family + 1
  let c := { c with
    nextLoad := c.nextLoad + 1
    calls := fun f => if f = r.family then call else before f }
  let c := match seat with
    | .caller => { c with callers := c.callers ++ [load] }
    | .worker | .lent _ => { c with crew := c.crew.hold load }
  let shown := stale.map fun e => (e.value, e.age c.now)
  (load, c.record (.loaderCalled r.key call seat.invocation r.mode shown))

/-- A load is no longer under way. -/
def leave (c : Cache) (l : Load) : Cache :=
  { c with
    callers := c.callers.filter (·.id != l.id)
    crew := c.crew.release (·.id == l.id) }

/-- The end of a load whose loader returned a value. -/
def succeed (c : Cache) (l : Load) (v : Value) (cacheable : Bool) : Cache :=
  let r := l.request
  let c :=
    if cacheable then (c.writeLoaded r.key (Entry.stamped c.now v r.hard r.soft) l.started).2
    else c
  c.markRefreshed r.family

/-- Writes the stale value of a failed load back, as the policy's cell says. Only a value
written back as fresh marks the family as refreshed, also if the write is not accepted. -/
def writeBack (c : Cache) (l : Load) (e : Entry) (how : WriteBack) : Cache :=
  let r := l.request
  match how with
  | .dontCache => c
  | .cacheExpired => (c.writeLoaded r.key (e.carriedOver c.now r.hard 0) l.started).2
  | .cacheFresh =>
    let (_, c) := c.writeLoaded r.key (e.carriedOver c.now r.hard r.soft) l.started
    c.markRefreshed r.family

/-- The end of a load whose loader failed. -/
def recover (c : Cache) (l : Load) (f : Failure) : Except CallFault (Option Value) × Cache :=
  let r := l.request
  let c := c.count .loadFailures
  let cell := r.policy.select l.invocation l.stale.isSome
  let c := match cell.log.text? f with
    | none => c
    | some text => c.record (.loaderFailed r.key r.mode l.invocation text)
  let c := match l.stale with
    | none => c
    | some e => c.writeBack l e cell.cache
  let result := match cell.fallback with
    | .propagate => .error (.load r.key f)
    | .returnNone => .ok none
    | .returnStale => .ok (l.stale.map (·.value))
  (result, c)

/-- What a load comes to. -/
inductive Ending where
  | returned (v : Option Value)
  | failed (fault : CallFault)
  | panicked (text : String)
  deriving DecidableEq, Repr

/-- The end of a load as such. A panic leaves everything as it is. -/
def settle (c : Cache) (l : Load) (o : Outcome) : Ending × Cache :=
  match o with
  | .value v cacheable => (.returned (some v), c.succeed l v cacheable)
  | .failure f =>
    match c.recover l f with
    | (.ok v, c) => (.returned v, c)
    | (.error fault, c) => (.failed fault, c)
  | .panic text => (.panicked text, c)

end Evergreen.Cache
