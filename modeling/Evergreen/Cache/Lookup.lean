import Evergreen.Cache.Basic

/-!
# Reading and writing the store

The cache never hands a store's failure on. A read that fails finds nothing, a write that
fails is not accepted, a removal that fails removed nothing; each is recorded and counted.
The one exception is the read of the write guard (`Cache.newer`), which passes over a failure
in silence.
-/

namespace Evergreen.Cache

/-- Records and counts a call of the store that failed. -/
def storeFailed (c : Cache) (op : StoreOp) (key : Option Key) (fault : StoreFault) : Cache :=
  (c.count .storeErrors).record (.storeFailed op key fault)

/-- Calls the store for the entry under a key. -/
def fetch (c : Cache) (k : Key) : Except StoreFault (Option Entry) × Cache :=
  let (answer, backing) := c.backing.get c.now k
  let shown := match answer with
    | .ok e => StoreAnswer.found e.isSome
    | .error _ => .failed
  (answer, { c with backing }.record (.storeCalled .get (some k) shown))

/-- Calls the store to put an entry under a key, with the time it has left as a hint. -/
def put (c : Cache) (k : Key) (e : Entry) : Except StoreFault Bool × Cache :=
  let hint := e.expiresIn c.now
  let (answer, backing) := c.backing.set c.now k e hint
  let shown := match answer with
    | .ok b => StoreAnswer.accepted b hint
    | .error _ => .failed
  (answer, { c with backing }.record (.storeCalled .set (some k) shown))

/-- Calls the store to remove what is under a key. -/
def delete (c : Cache) (k : Key) : Except StoreFault Bool × Cache :=
  let (answer, backing) := c.backing.remove k
  let shown := match answer with
    | .ok b => StoreAnswer.removed b
    | .error _ => .failed
  (answer, { c with backing }.record (.storeCalled .remove (some k) shown))

/-- Calls the store to remove everything. -/
def wipe (c : Cache) : Except StoreFault Unit × Cache :=
  let (answer, backing) := c.backing.clear
  let shown := match answer with
    | .ok _ => StoreAnswer.cleared
    | .error _ => .failed
  (answer, { c with backing }.record (.storeCalled .clear none shown))

/-- Removes what is under a key. -/
def drop (c : Cache) (k : Key) : Bool × Cache :=
  match c.delete k with
  | (.ok was, c) => (was, c)
  | (.error fault, c) => (false, c.storeFailed .remove (some k) fault)

/-- Removes everything. -/
def dropAll (c : Cache) : Cache :=
  match c.wipe with
  | (.ok _, c) => c
  | (.error fault, c) => c.storeFailed .clear none fault

/-- The entry under a key, unless it is past its hard lifetime: then it is removed, and there
is none. -/
def lookup (c : Cache) (k : Key) : Option Entry × Cache :=
  match c.fetch k with
  | (.ok (some e), c) =>
    if e.hardExpired c.now then (none, ((c.record (.evicting k)).drop k).2) else (some e, c)
  | (.ok none, c) => (none, c)
  | (.error fault, c) => (none, c.storeFailed .get (some k) fault)

/-- Writes an entry whatever the store holds. -/
def write (c : Cache) (k : Key) (e : Entry) : Bool × Cache :=
  match c.put k e with
  | (.ok true, c) => (true, c.count .writes)
  | (.ok false, c) => (false, c)
  | (.error fault, c) => (false, c.storeFailed .set (some k) fault)

/-- Whether the store holds an entry that was made after `started`. An entry that a failed
load carried over does not count. -/
def newer (c : Cache) (k : Key) (started : Nat) : Bool × Cache :=
  match c.fetch k with
  | (.ok (some e), c) => (started < e.since && !e.carried, c)
  | (_, c) => (false, c)

/-- Writes an entry that a load made, unless the store holds one made after the load began: a
slow load does not replace what a later and faster one has stored. -/
def writeLoaded (c : Cache) (k : Key) (e : Entry) (started : Nat) : Bool × Cache :=
  match c.newer k started with
  | (true, c) => (false, (c.count .writesSuperseded).record (.superseded k))
  | (false, c) => c.write k e

end Evergreen.Cache
