import Evergreen.Store.Basic

/-!
# Stores that fail

A store may fail at any call. The pattern of its failures is a *forecast*: what the `n`-th
call of each operation meets. A call passes, fails with a fault, or is ignored: it answers as
if there were nothing to do, and does nothing.

`Forecast.absorbed` is the forecast under which every call that fails is ignored instead.
-/

namespace Evergreen

/-- The operations of a store. -/
inductive StoreOp where
  | get
  | set
  | remove
  | clear
  deriving DecidableEq, Repr

def StoreOp.word : StoreOp → String
  | get => "get"
  | set => "set"
  | remove => "remove"
  | clear => "clear"

/-- What a call of a store meets. -/
inductive Verdict where
  | pass
  | fail (fault : StoreFault)
  /-- A get finds nothing, a set declines, a removal finds nothing to remove; nothing
  changes. -/
  | ignore
  deriving DecidableEq, Repr

/-- A failing call is ignored instead. -/
def Verdict.absorbed : Verdict → Verdict
  | fail _ => ignore
  | v => v

/-- What each call of each operation meets, counted from zero. -/
abbrev Forecast := StoreOp → Nat → Verdict

namespace Forecast

/-- Every call passes. -/
def fair : Forecast := fun _ _ => .pass

/-- No call fails, and none is ignored. -/
def Fair (f : Forecast) : Prop := ∀ op n, f op n = .pass

/-- Every call that fails is ignored instead. -/
def absorbed (f : Forecast) : Forecast := fun op n => (f op n).absorbed

/-- Where every call passes, none fails or is ignored. -/
theorem fair_fair : Fair fair := fun _ _ => rfl

end Forecast

/-- A store, its forecast, and how many calls of each operation there have been. -/
structure Backing where
  store : Store
  forecast : Forecast := Forecast.fair
  calls : StoreOp → Nat := fun _ => 0

namespace Backing

/-- What the next call of an operation meets. -/
def verdict (b : Backing) (op : StoreOp) : Verdict := b.forecast op (b.calls op)

/-- The backing after one more call, which left `store`. -/
def called (b : Backing) (op : StoreOp) (store : Store) : Backing :=
  let before := b.calls
  let n := before op + 1
  { b with store, calls := fun o => if o = op then n else before o }

def get (b : Backing) (now : Nat) (k : Key) : Except StoreFault (Option Entry) × Backing :=
  match b.verdict .get with
  | .pass => let (e, s) := b.store.get now k; (.ok e, b.called .get s)
  | .fail fault => (.error fault, b.called .get b.store)
  | .ignore => (.ok none, b.called .get b.store)

/-- Whether the entry was accepted. -/
def set (b : Backing) (now : Nat) (k : Key) (e : Entry) (hint : Option Nat) :
    Except StoreFault Bool × Backing :=
  match b.verdict .set with
  | .pass => (.ok true, b.called .set (b.store.set now k e hint))
  | .fail fault => (.error fault, b.called .set b.store)
  | .ignore => (.ok false, b.called .set b.store)

/-- Whether something was removed. -/
def remove (b : Backing) (k : Key) : Except StoreFault Bool × Backing :=
  match b.verdict .remove with
  | .pass => let (was, s) := b.store.remove k; (.ok was, b.called .remove s)
  | .fail fault => (.error fault, b.called .remove b.store)
  | .ignore => (.ok false, b.called .remove b.store)

def clear (b : Backing) : Except StoreFault Unit × Backing :=
  match b.verdict .clear with
  | .pass => (.ok (), b.called .clear b.store.clear)
  | .fail fault => (.error fault, b.called .clear b.store)
  | .ignore => (.ok (), b.called .clear b.store)

end Backing

end Evergreen
