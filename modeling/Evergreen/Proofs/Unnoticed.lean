import Evergreen.Proofs.StoreCalls

/-!
# Changes that the store's operations do not notice

What is done with the store looks at the clock and at the store, and leaves a trace in the store,
the marks, the counters and the journal. Any change of a cache that keeps the first two, and that
can be put off until the trace is left, makes no difference to it (`Unnoticed`): each operation
comes to the same in the cache that was changed, and leaves behind what it leaves behind otherwise,
changed. It is one law for every such change, of the tasks, of the poller, of what was counted or
noted before.

- `Unnoticed.called`, `Unnoticed.reported`: a call of the store, and its report;
- `Unnoticed.lookup`, `Unnoticed.write`, `Unnoticed.writeLoaded`: the operations made of them;
- `Unnoticed.looked`: what a get does before it decides how to go on;
- `Unnoticed.settle`: the end of a load as such.
-/

namespace Evergreen.Cache

/-- A change of a cache that leaves the clock and the store as they are, and that can as well be
made after a call of the store, a note, a count or a mark as before it. -/
structure Unnoticed (f : Cache → Cache) : Prop where
  now : ∀ c, (f c).now = c.now
  backing : ∀ c, (f c).backing = c.backing
  withBacking : ∀ c backing, { f c with backing } = f { c with backing }
  record : ∀ c e, (f c).record e = f (c.record e)
  count : ∀ c n, (f c).count n = f (c.count n)
  markRefreshed : ∀ c family, (f c).markRefreshed family = f (c.markRefreshed family)

namespace Unnoticed

variable {f : Cache → Cache} (h : Unnoticed f) (c : Cache)

include h

/-! ## Calls of the store -/

section Calls

variable (op : StoreOp) (key : Option Key) (k : Key) (e : Entry)

/-- The note of a call, and the store that it left behind, can be put before the change. -/
theorem called (store : Store) (answer : StoreAnswer) :
    (f c).called op key store answer = f (c.called op key store answer) := by
  unfold Cache.called
  rw [h.backing, h.withBacking, h.record]

/-- So can a report of a failure. -/
theorem storeFailed (fault : StoreFault) :
    (f c).storeFailed op key fault = f (c.storeFailed op key fault) := by
  unfold Cache.storeFailed
  rw [h.count, h.record]

/-- And so can the report of any answer, which is empty for most. -/
theorem reported {α : Type} (answer : Except StoreFault α) :
    (f c).reported op key answer = f (c.reported op key answer) := by
  cases answer with
  | ok _ => rfl
  | error fault => exact h.storeFailed c op key fault

/-- The weather is part of the store, so a read meets the same, and finds the same. -/
theorem fetch : (f c).fetch k = ((c.fetch k).1, f (c.fetch k).2) := by
  rw [fetch_eq, fetch_eq, h.backing, h.now]
  cases c.backing.verdict .get with
  | pass => exact congrArg (Prod.mk _) (h.called ..)
  | fail fault => exact congrArg (Prod.mk _) (h.called ..)
  | ignore => exact congrArg (Prod.mk _) (h.called ..)

/-- A write leaves the same hint with the same store. -/
theorem put : (f c).put k e = ((c.put k e).1, f (c.put k e).2) := by
  rw [put_eq, put_eq, h.backing, h.now]
  cases c.backing.verdict .set with
  | pass => exact congrArg (Prod.mk _) (h.called ..)
  | fail fault => exact congrArg (Prod.mk _) (h.called ..)
  | ignore => exact congrArg (Prod.mk _) (h.called ..)

/-- A removal finds the same. -/
theorem delete : (f c).delete k = ((c.delete k).1, f (c.delete k).2) := by
  rw [delete_eq, delete_eq, h.backing]
  cases c.backing.verdict .remove with
  | pass => exact congrArg (Prod.mk _) (h.called ..)
  | fail fault => exact congrArg (Prod.mk _) (h.called ..)
  | ignore => exact congrArg (Prod.mk _) (h.called ..)

theorem wipe : (f c).wipe = (c.wipe.1, f c.wipe.2) := by
  rw [wipe_eq, wipe_eq, h.backing]
  cases c.backing.verdict .clear with
  | pass => exact congrArg (Prod.mk _) (h.called ..)
  | fail fault => exact congrArg (Prod.mk _) (h.called ..)
  | ignore => exact congrArg (Prod.mk _) (h.called ..)

end Calls

/-! ## Operations made of them -/

section Operations

variable (k : Key) (e : Entry)

/-- A removal and its report come to the same. -/
theorem drop : (f c).drop k = ((c.drop k).1, f (c.drop k).2) := by
  rw [drop_eq, drop_eq, h.delete]
  exact congrArg (Prod.mk _) (h.reported ..)

theorem dropAll : (f c).dropAll = f c.dropAll := by
  rw [dropAll_eq, dropAll_eq, h.wipe]
  exact h.reported ..

/-- The read of a lookup is one like any other. -/
theorem glanced : (f c).glanced k = f (c.glanced k) := by
  unfold Cache.glanced
  rw [h.fetch]
  exact h.reported ..

/-- A lookup finds the same, and removes it in the same case. -/
theorem lookup : (f c).lookup k = ((c.lookup k).1, f (c.lookup k).2) := by
  rw [lookup_eq, lookup_eq, h.fetch, h.glanced, h.now]
  cases hit (c.fetch k).1 with
  | none => rfl
  | some e =>
    dsimp only
    rw [h.record, h.drop]
    by_cases he : e.hardExpired c.now = true
    · rw [if_pos he, if_pos he]
    · rw [if_neg he, if_neg he]

/-- What was accepted is counted, whichever comes first. -/
theorem write : (f c).write k e = ((c.write k e).1, f (c.write k e).2) := by
  rw [write_eq, write_eq, h.put]
  dsimp only
  rw [h.reported, h.count]
  cases took (c.put k e).1 <;> rfl

/-- What holds a load off is in the store, so it is held off in both or in neither. -/
theorem writeLoaded (started : Nat) : (f c).writeLoaded k e started =
    ((c.writeLoaded k e started).1, f (c.writeLoaded k e started).2) := by
  rw [writeLoaded_eq, writeLoaded_eq, h.fetch]
  dsimp only
  cases holdsOff started (hit (c.fetch k).1) with
  | true =>
    dsimp only
    rw [h.count, h.record]
  | false => exact h.write ..

/-- A value that is set is made into an entry by the clock. -/
theorem set (v : Value) (ttl : Nat) :
    (f c).set k v ttl = ((c.set k v ttl).1, f (c.set k v ttl).2) := by
  unfold Cache.set
  rw [h.now]
  cases checkKey k with
  | error fault => rfl
  | ok u =>
    cases Entry.create c.now v ttl ttl with
    | error fault => rfl
    | ok e =>
      dsimp only
      rw [h.write]

theorem setEntry : (f c).setEntry k e = ((c.setEntry k e).1, f (c.setEntry k e).2) := by
  unfold Cache.setEntry
  cases checkKey k with
  | error fault => rfl
  | ok u =>
    dsimp only
    rw [h.write]

/-- What is past its deadline is so by the clock. -/
theorem purged : (f c).purged = f c.purged := by
  have hpurge : (f c).backing.store.purge? (f c).now = c.backing.store.purge? c.now := by
    rw [h.backing, h.now]
  unfold Cache.purged
  rw [hpurge, h.backing]
  cases c.backing.store.purge? c.now with
  | none => rfl
  | some p => exact h.withBacking ..

end Operations

/-! ## What a get begins with -/

section Gets

variable (r : Request)

/-- **What a get does is a matter of the store** and the clock. -/
theorem nextAction : (f c).nextAction r = c.nextAction r := by
  unfold Cache.nextAction
  rw [h.lookup]
  exact congrArg (r.mode.action <| Freshness.of (c.lookup r.key).1 ·) (h.now _)

/-- So is what it has to serve. -/
theorem usable : (f c).usable r = c.usable r := by
  unfold Cache.usable
  rw [h.lookup]
  dsimp only
  rw [h.now]

/-- And what it leaves behind can be put before the change, with its count. -/
theorem looked : (f c).looked r = f (c.looked r) := by
  unfold Cache.looked
  rw [h.lookup]
  dsimp only
  rw [h.now]
  exact h.count ..

end Gets

/-! ## Ends of loads -/

section Ends

variable (l : Load)

/-- A value is written and marks its family, before the change as after it. -/
theorem succeed (v : Value) (cacheable : Bool) :
    (f c).succeed l v cacheable = f (c.succeed l v cacheable) := by
  unfold Cache.succeed
  cases cacheable with
  | false => exact h.markRefreshed ..
  | true =>
    simp only [if_true]
    rw [h.now, h.writeLoaded]
    exact h.markRefreshed ..

/-- A stale value that is written back gets its date from the clock. -/
theorem writeBack (e : Entry) (how : WriteBack) :
    (f c).writeBack l e how = f (c.writeBack l e how) := by
  unfold Cache.writeBack
  cases how with
  | dontCache => rfl
  | cacheExpired =>
    dsimp only
    rw [h.now, h.writeLoaded]
  | cacheFresh =>
    dsimp only
    rw [h.now, h.writeLoaded]
    exact h.markRefreshed ..

/-- A failed load is counted and noted, before the change as after it. -/
theorem failed (failure : Failure) : (f c).failed l failure = f (c.failed l failure) := by
  unfold Cache.failed
  rw [h.count]
  cases (cell l).log.text? failure with
  | none => rfl
  | some text => exact h.record ..

/-- What a caller gets for it depends on the load alone. -/
theorem recover (failure : Failure) :
    (f c).recover l failure = ((c.recover l failure).1, f (c.recover l failure).2) := by
  rw [recover_eq, recover_eq, h.failed]
  cases l.stale with
  | none => rfl
  | some e => exact congrArg (Prod.mk _) (h.writeBack ..)

/-- **The end of a load as such** looks at nothing but the clock and the store. -/
theorem settle (o : Outcome) : (f c).settle l o = ((c.settle l o).1, f (c.settle l o).2) := by
  cases o with
  | value v cacheable => exact congrArg (Prod.mk _) (h.succeed ..)
  | panic text => rfl
  | failure failure =>
    simp only [Cache.settle]
    rw [h.recover]
    obtain ⟨result, c'⟩ := c.recover l failure
    cases result <;> rfl

end Ends

end Unnoticed

end Evergreen.Cache
