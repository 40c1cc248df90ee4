import Evergreen.Store.Basic

/-!
# Sessions with a memory store

A session is a memory store and a clock that moves only when it is told to. It shows what the
store does with deadlines: `set` takes the hint from the caller or from the entry itself.
-/

namespace Evergreen

/-- Where the hint of a `set` comes from. -/
inductive HintSource where
  | given (left : Option Nat)
  /-- The time that the entry says is left. -/
  | entry

namespace HintSource

/-- The hint for an entry stored at `now`. -/
def hint (h : HintSource) (e : Entry) (now : Nat) : Option Nat :=
  match h with
  | given left => left
  | entry => e.expiresIn now

end HintSource

/-- A memory store and its clock. -/
structure StoreSession where
  now : Nat
  store : ShardedStore

namespace StoreSession

/-- What is asked of the store. -/
inductive Step where
  | set (key : Key) (value : Value) (hard soft : Nat) (hint : HintSource)
  | get (key : Key)
  | remove (key : Key)
  | clear
  | size
  | isEmpty
  | purge
  | inspect
  | advance (duration : Nat)

/-- What it answers. -/
inductive Answer where
  | nothing
  | flag (b : Bool)
  | number (n : Nat)
  | reading (t : Nat)
  | text (s : String)
  | entry (r : Entry.Reading)
  | refused (fault : ConfigFault)

/-- One step. -/
def step (s : StoreSession) : Step → Answer × StoreSession
  | .set key value hard soft hint =>
    match Entry.create s.now value hard soft with
    | .error fault => (.refused fault, s)
    | .ok e => (.flag true, { s with store := s.store.set s.now key e (hint.hint e s.now) })
  | .get key =>
    let (e, store) := s.store.get s.now key
    (e.elim .nothing fun e => .entry (e.read s.now), { s with store })
  | .remove key =>
    let (was, store) := s.store.remove key
    (.flag was, { s with store })
  | .clear => (.nothing, { s with store := s.store.clear })
  | .size => (.number s.store.size, s)
  | .isEmpty => (.flag (s.store.size == 0), s)
  | .purge =>
    let (n, store) := s.store.purge s.now
    (.number n, { s with store })
  | .inspect => (.text s.store.inspect, s)
  | .advance duration =>
    let now := s.now + duration
    (.reading now, { s with now })

/-- The steps in turn: the answer to each, and the size of the store after it. -/
def run (s : StoreSession) : List Step → List (Answer × Nat)
  | [] => []
  | step :: steps =>
    let (answer, s) := s.step step
    (answer, s.store.size) :: s.run steps

end StoreSession

end Evergreen
