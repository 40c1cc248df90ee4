import Evergreen.Proofs.Parts

/-!
# Calls of the store and their reports

Whatever the cache wants of its store, it makes a call, notes the answer, and reports the call
if it failed; a failure then counts as an answer without effect. So every operation that
touches the store is a call, a report, and what follows from the effect:

- `fetch_eq`, `put_eq`, `delete_eq`, `wipe_eq`: the calls, by what the forecast has for them;
- `drop_eq`, `dropAll_eq`, `lookup_eq`, `write_eq`: a call, its report, and the rest;
- `writeLoaded_eq`: the one call without a report is the read of the write guard.
-/

namespace Evergreen.Cache

/-- The cache after a call of its store that left `store` and was answered so. -/
def called (c : Cache) (op : StoreOp) (key : Option Key) (store : Store)
    (answer : StoreAnswer) : Cache :=
  { c with backing := c.backing.called op store }.record (.storeCalled op key answer)

/-- The cache after the report of a call, which is empty unless the call failed. -/
def reported {α : Type} (c : Cache) (op : StoreOp) (key : Option Key) :
    Except StoreFault α → Cache
  | .ok _ => c
  | .error fault => c.storeFailed op key fault

/-- What a read found; one that failed found nothing. -/
def hit : Except StoreFault (Option Entry) → Option Entry
  | .ok found => found
  | .error _ => none

/-- Whether a call had an effect; one that failed had none. -/
def took : Except StoreFault Bool → Bool
  | .ok b => b
  | .error _ => false

section Calls

variable (c : Cache)

/-- A read that passes gets what the store has; one that fails or is ignored leaves the store alone.
-/
theorem fetch_eq (k : Key) : c.fetch k = match c.backing.verdict .get with
    | .pass => (.ok (c.backing.store.get c.now k).1,
        c.called .get (some k) (c.backing.store.get c.now k).2
          (.found (c.backing.store.get c.now k).1.isSome))
    | .fail fault => (.error fault, c.called .get (some k) c.backing.store .failed)
    | .ignore => (.ok none, c.called .get (some k) c.backing.store (.found false)) := by
  unfold fetch Backing.get
  cases c.backing.verdict .get <;> rfl

/-- A write that passes is accepted; one that fails or is ignored leaves the store alone. -/
theorem put_eq (k : Key) (e : Entry) : c.put k e = match c.backing.verdict .set with
    | .pass => (.ok true,
        c.called .set (some k) (c.backing.store.set c.now k e (e.expiresIn c.now))
          (.accepted true (e.expiresIn c.now)))
    | .fail fault => (.error fault, c.called .set (some k) c.backing.store .failed)
    | .ignore => (.ok false,
        c.called .set (some k) c.backing.store (.accepted false (e.expiresIn c.now))) := by
  unfold put Backing.set
  cases c.backing.verdict .set <;> rfl

/-- A removal that passes says whether there was anything. -/
theorem delete_eq (k : Key) : c.delete k = match c.backing.verdict .remove with
    | .pass => (.ok (c.backing.store.remove k).1,
        c.called .remove (some k) (c.backing.store.remove k).2
          (.removed (c.backing.store.remove k).1))
    | .fail fault => (.error fault, c.called .remove (some k) c.backing.store .failed)
    | .ignore => (.ok false, c.called .remove (some k) c.backing.store (.removed false)) := by
  unfold delete Backing.remove
  cases c.backing.verdict .remove <;> rfl

/-- A clear that is ignored answers as one that passes. -/
theorem wipe_eq : c.wipe = match c.backing.verdict .clear with
    | .pass => (.ok (), c.called .clear none c.backing.store.clear .cleared)
    | .fail fault => (.error fault, c.called .clear none c.backing.store .failed)
    | .ignore => (.ok (), c.called .clear none c.backing.store .cleared) := by
  unfold wipe Backing.clear
  cases c.backing.verdict .clear <;> rfl

/-! ## Operations that touch the store -/

/-- A removal of the cache is a call and its report. -/
theorem drop_eq (k : Key) :
    c.drop k = (took (c.delete k).1, (c.delete k).2.reported .remove (some k) (c.delete k).1) := by
  unfold drop
  obtain ⟨_ | _, c'⟩ := c.delete k <;> rfl

/-- The removal of everything is a call and its report. -/
theorem dropAll_eq : c.dropAll = c.wipe.2.reported .clear none c.wipe.1 := by
  unfold dropAll
  obtain ⟨_ | _, c'⟩ := c.wipe <;> rfl

/-- The cache after the read of a lookup. -/
def glanced (c : Cache) (k : Key) : Cache := (c.fetch k).2.reported .get (some k) (c.fetch k).1

/-- A lookup is a read, and a removal if what it finds is past its hard lifetime. -/
theorem lookup_eq (k : Key) : c.lookup k = match hit (c.fetch k).1 with
    | none => (none, c.glanced k)
    | some e =>
      if e.hardExpired c.now then (none, (((c.glanced k).record (.evicting k)).drop k).2)
      else (some e, c.glanced k) := by
  have hn := (c.storeOnly_fetch k).now
  unfold lookup glanced
  rw [← hn]
  obtain ⟨_ | _ | e, c'⟩ := c.fetch k <;> rfl

/-- A write is a call and its report, and it is counted if it was accepted. -/
theorem write_eq (k : Key) (e : Entry) :
    c.write k e =
      let c' := (c.put k e).2.reported .set (some k) (c.put k e).1
      (took (c.put k e).1, if took (c.put k e).1 then c'.count .writes else c') := by
  unfold write
  obtain ⟨_ | b, c'⟩ := c.put k e
  · rfl
  · cases b <;> rfl

/-- Whether what a read found holds off a load that began at `started`. -/
def holdsOff (started : Nat) : Option Entry → Bool
  | none => false
  | some e => decide (started < e.since) && !e.carried

/-- The write of a load is a read that is not reported and, unless what it finds holds the load
off, a write. -/
theorem writeLoaded_eq (k : Key) (e : Entry) (started : Nat) :
    c.writeLoaded k e started =
      let c' := (c.fetch k).2
      match holdsOff started (hit (c.fetch k).1) with
      | true => (false, (c'.count .writesSuperseded).record (.superseded k))
      | false => c'.write k e := by
  unfold writeLoaded newer
  obtain ⟨_ | _ | e', c'⟩ := c.fetch k
  · rfl
  · rfl
  · dsimp only [hit, holdsOff]
    cases started < e'.since && !e'.carried <;> rfl

end Calls

end Evergreen.Cache
