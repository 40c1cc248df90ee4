import Evergreen.Proofs.KeptSteps
import Evergreen.Proofs.StoreCalls

/-!
# What a move does to the store

Whatever a move does, it reaches the store by calls alone, made at the clock reading of the
move. Reads apart, a call that passes has one of three effects (`Backing.Effect`), and
`Cache.Causes` says which effects a move may have: what it puts under a key, and with which
answer (`Puts`), what it is asked to remove (`Removes`), and what a lookup evicts. A sequence of
such calls is `Backing.Calls`. `backing_after` says that there is nothing else but a purge and a
change of the weather: an invariant of the store is shown of each call, and never of each move.

- `Puts.since_le_now`: what an allowed move puts there was made by now;
- `forecast_after`: the forecast changes with the weather alone.
-/

namespace Evergreen

/-- What a call does to a store that passes and is not a read. An entry comes with the time it
has left as its hint. -/
inductive Backing.Effect where
  | set (k : Key) (e : Entry)
  | remove (k : Key)
  | clear

/-- A backing after any number of calls made at `now`, with effects of one kind. -/
inductive Backing.Calls (P : Effect → Prop) (now : Nat) (b : Backing) : Backing → Prop
  | none : Calls P now b b
  | get {b' : Backing} (h : Calls P now b b') (k : Key) : Calls P now b (b'.get now k).2
  | set {b' : Backing} (h : Calls P now b b') (k : Key) (e : Entry)
    (he : b'.verdict .set = .pass → P (.set k e)) :
    Calls P now b (b'.set now k e (e.expiresIn now)).2
  | remove {b' : Backing} (h : Calls P now b b') (k : Key)
    (hk : b'.verdict .remove = .pass → P (.remove k)) : Calls P now b (b'.remove k).2
  | clear {b' : Backing} (h : Calls P now b b') (hc : b'.verdict .clear = .pass → P .clear) :
    Calls P now b b'.clear.2

namespace Backing

/-- What every call preserves, any number of calls preserves. -/
theorem Calls.preserves {I : Backing → Prop} {P : Effect → Prop} {now : Nat} {b b' : Backing}
    (h : Calls P now b b') (hb : I b)
    (get : ∀ b k, I b → I (b.get now k).2)
    (set : ∀ b k e, I b → (b.verdict .set = .pass → P (.set k e)) →
      I (b.set now k e (e.expiresIn now)).2)
    (remove : ∀ b k, I b → (b.verdict .remove = .pass → P (.remove k)) → I (b.remove k).2)
    (clear : ∀ b, I b → (b.verdict .clear = .pass → P .clear) → I b.clear.2) : I b' := by
  induction h with
  | none => exact hb
  | get _ k ih => exact get _ k ih
  | set _ k e he ih => exact set _ k e ih he
  | remove _ k hk ih => exact remove _ k ih hk
  | clear _ hc ih => exact clear _ ih hc

/-- Calls leave the forecast as it is. -/
theorem Calls.forecast {P : Effect → Prop} {now : Nat} {b b' : Backing} (h : Calls P now b b') :
    b'.forecast = b.forecast :=
  h.preserves (I := fun b' => b'.forecast = b.forecast) rfl
    (fun _ _ hb => (forecast_get ..).trans hb) (fun _ _ _ hb _ => (forecast_set ..).trans hb)
    (fun _ _ hb _ => (forecast_remove ..).trans hb) (fun _ hb _ => (forecast_clear _).trans hb)

end Backing

namespace Cache

open Backing (Calls Effect)

/-! ## Effects -/

/-- What a move puts in the store under a key: an entry that it was asked to store, or the
result of a load that the guard lets pass; and the store accepts it. -/
inductive Puts (c : Cache) (k : Key) : Entry → Move → Prop
  | set (v : Value) (ttl : Nat) (h : (c.set k v ttl).1 = .ok true) :
    Puts c k (Entry.stamped c.now v ttl ttl) (.set k v ttl)
  | setEntry (e : Entry) (h : (c.setEntry k e).1 = .ok true) : Puts c k e (.setEntry k e)
  | ended (l : Load) (o : Outcome) (e : Entry) (hl : c.load? l.id = some l) (hk : l.key = k)
    (hr : result? l c.now o = some e) (hg : (c.newer k l.started).1 = false)
    (hv : c.backing.verdict .set = .pass) : Puts c k e (.finish l.id o)

/-- What an allowed move puts in the store was made by now. -/
theorem Puts.since_le_now {c : Cache} {k : Key} {e : Entry} {m : Move} (h : c.Puts k e m)
    (hm : c.Allows m) : e.since ≤ c.now := by
  cases h with
  | set v ttl _ => exact Nat.le_refl _
  | setEntry e _ => exact Entry.Built.since_le_now hm
  | ended l o e _ _ hr _ _ => exact Nat.le_of_eq (since_of_result? hr)

/-- The store is asked to remove what is under a key, and does. -/
inductive Removes (c : Cache) (k : Key) : Move → Prop
  | remove (h : c.backing.verdict .remove = .pass) : Removes c k (.remove k)
  | removeAll (h : c.backing.verdict .clear = .pass) : Removes c k .removeAll

/-- The effects that a move may have on the store. -/
inductive Causes (c : Cache) (m : Move) : Effect → Prop
  | put {k : Key} {e : Entry} (h : c.Puts k e m) : Causes c m (.set k e)
  | removed {k : Key} (h : c.Removes k m) : Causes c m (.remove k)
  /-- A lookup finds an entry past its hard lifetime. -/
  | evicted {k : Key} {e : Entry} (h : c.backing.store.find? c.now k = some e)
    (he : e.hardExpired c.now = true) : Causes c m (.remove k)
  | cleared (h : ∀ k, c.Removes k m) : Causes c m .clear

/-! ## Operations -/

section Operations

variable (c : Cache) {m : Move}

theorem backing_reported {α : Type} (op : StoreOp) (key : Option Key)
    (a : Except StoreFault α) : (c.reported op key a).backing = c.backing := by
  cases a <;> rfl

/-- A lookup begins with a read, and the report of it leaves the store alone. -/
theorem backing_glanced (k : Key) : (c.glanced k).backing = (c.backing.get c.now k).2 :=
  backing_reported (c.fetch k).2 ..

/-- What a read finds is what there is. -/
theorem find?_of_hit {k : Key} {e : Entry} (h : hit (c.fetch k).1 = some e) :
    c.backing.store.find? c.now k = some e := by
  cases hf : (c.fetch k).1 with
  | error fault =>
    rw [hf] at h
    cases h
  | ok found =>
    rw [hf] at h
    exact find?_of_fetch (hf.trans (congrArg _ h))

/-- A lookup reads, and removes what is past its hard lifetime. -/
theorem calls_lookup {P : Effect → Prop} (k : Key)
    (hP : ∀ e, c.backing.store.find? c.now k = some e → e.hardExpired c.now = true →
      P (.remove k)) : Calls P c.now c.backing (c.lookup k).2.backing := by
  have hget : Calls P c.now c.backing (c.glanced k).backing := by
    rw [backing_glanced]
    exact Calls.none.get k
  rw [lookup_eq]
  cases hh : hit (c.fetch k).1 with
  | none => exact hget
  | some e =>
    dsimp only
    split
    · rename_i he
      rw [backing_drop]
      exact hget.remove k fun _ => hP e (c.find?_of_hit hh) he
    · exact hget

/-- A write is accepted exactly if the store lets it pass. -/
theorem write_fst (k : Key) (e : Entry) :
    (c.write k e).1 = true ↔ c.backing.verdict .set = .pass := by
  rw [write_eq, put_eq]
  cases c.backing.verdict .set <;> simp [took]

/-- A set, check by check. -/
theorem set_eq (k : Key) (v : Value) (ttl : Nat) : c.set k v ttl =
    if Text.isBlank k then (.error (.config .blankKey), c)
    else if ttl < minHardTtl then (.error (.config .zeroHardTtl), c)
    else (c.write k (.stamped c.now v ttl ttl)).map .ok id := by
  unfold Cache.set checkKey Entry.create checkTtls
  cases Text.isBlank k with
  | true => rfl
  | false =>
    by_cases h : ttl < minHardTtl
    · simp [h, bind, Except.bind]
    · simp [h, bind, Except.bind, pure, Except.pure, Prod.map]

/-- A set is a write, unless its key is blank. -/
theorem setEntry_eq (k : Key) (e : Entry) : c.setEntry k e =
    if Text.isBlank k then (.error (.config .blankKey), c) else (c.write k e).map .ok id := by
  unfold setEntry checkKey
  cases Text.isBlank k <;> rfl

/-- A set is refused without a call of the store, or is a write of a new entry. -/
theorem set_eq_or (k : Key) (v : Value) (ttl : Nat) :
    (∃ fault, c.set k v ttl = (.error fault, c)) ∨
      c.set k v ttl = (.ok (c.write k (Entry.stamped c.now v ttl ttl)).1,
        (c.write k (Entry.stamped c.now v ttl ttl)).2) := by
  rw [set_eq]
  split
  · exact .inl ⟨_, rfl⟩
  · split
    · exact .inl ⟨_, rfl⟩
    · exact .inr rfl

/-- An entry is refused without a call of the store, or is written. -/
theorem setEntry_eq_or (k : Key) (e : Entry) :
    (∃ fault, c.setEntry k e = (.error fault, c)) ∨
      c.setEntry k e = (.ok (c.write k e).1, (c.write k e).2) := by
  rw [setEntry_eq]
  split
  · exact .inl ⟨_, rfl⟩
  · exact .inr rfl

theorem calls_write (k : Key) {e : Entry}
    (he : c.backing.verdict .set = .pass → c.Puts k e m) :
    Calls (c.Causes m) c.now c.backing (c.write k e).2.backing := by
  rw [backing_write]
  exact Calls.none.set k e fun hv => .put (he hv)

theorem calls_finish_backing {l : Load} (hl : c.load? l.id = some l) (o : Outcome) :
    Calls (c.Causes (.finish l.id o)) c.now c.backing (c.finish l o).2.backing := by
  rw [backing_finish]
  cases hr : result? l c.now o with
  | none => exact .none
  | some e =>
    dsimp only
    rw [backing_writeLoaded]
    split
    · exact Calls.none.get l.key
    · rename_i hg
      refine (Calls.none.get l.key).set l.key e fun hv => ?_
      have hpass : c.backing.verdict .set = .pass := (c.verdict_fetch l.key).symm.trans hv
      exact .put (.ended l o e hl rfl hr (by simpa using hg) hpass)

theorem calls_get (r : Request) : Calls (c.Causes m) c.now c.backing (c.get r).2.backing := by
  rw [(c.sameStore_get r).backing]
  exact c.calls_lookup r.key fun _ => .evicted

theorem calls_visit (r : Request) : Calls (c.Causes m) c.now c.backing (c.visit r).2.backing := by
  cases hp : c.poller.phase with
  | scanning due =>
    have hevict : ∀ e, c.backing.store.find? c.now r.key = some e →
        e.hardExpired c.now = true → c.Causes m (.remove r.key) := fun _ => .evicted
    have hl : Calls (c.Causes m) c.now c.backing (c.visited due r).backing := calls_lookup
      { c with poller := { c.poller with phase := .scanning (due.erase r) } } r.key hevict
    rwa [(tasksOnly_visit hp r).backing]
  | _ =>
    have hv : (c.visit r).2 = c := by simp [visit, hp]
    rw [hv]
    exact .none

end Operations

/-! ## Moves -/

/-- **A move reaches the store by calls,** but for a purge and a change of the weather. -/
theorem backing_after (c : Cache) (m : Move) :
    Calls (c.Causes m) c.now c.backing (c.after m).backing ∨
      (m = .purge ∧ ∃ n store, c.backing.store.purge? c.now = some (n, store) ∧
        (c.after m).backing = { c.backing with store }) ∨
      ∃ f, m = .forecast f ∧ (c.after m).backing = { c.backing with forecast := f } := by
  have same {m : Move} {b : Backing} (h : b = c.backing) :
      Calls (c.Causes m) c.now c.backing b := h ▸ .none
  cases m with
  | get r => exact .inl (c.calls_get r)
  | peek k => exact .inl (c.calls_lookup k fun _ => .evicted)
  | set k v ttl =>
    refine .inl ?_
    -- a set that is refused makes no call, and one that is not is a write
    show Calls _ _ _ (c.set k v ttl).2.backing
    rcases c.set_eq_or k v ttl with ⟨fault, h⟩ | h
    · rw [h]
      exact .none
    · rw [h]
      refine c.calls_write k fun hv => .set v ttl ?_
      rw [h, (c.write_fst k _).2 hv]
  | setEntry k e =>
    refine .inl ?_
    show Calls _ _ _ (c.setEntry k e).2.backing
    rcases c.setEntry_eq_or k e with ⟨fault, h⟩ | h
    · rw [h]
      exact .none
    · rw [h]
      refine c.calls_write k fun hv => .setEntry e ?_
      rw [h, (c.write_fst k e).2 hv]
  | remove k =>
    refine .inl ?_
    show Calls _ _ _ ((c.resetRegistered k).drop k).2.backing
    rw [backing_drop, (c.sameStore_resetRegistered k).backing]
    exact Calls.none.remove k fun hv => .removed (.remove hv)
  | removeAll =>
    refine .inl ?_
    show Calls _ _ _ c.dropAll.resetAll.backing
    rw [c.dropAll.sameStore_resetAll.backing, backing_dropAll]
    exact Calls.none.clear fun hv => .cleared fun _ => .removeAll hv
  | schedule r => exact .inl (same (c.sameStore_schedule r).backing)
  | close => exact .inl (same c.pollerOnly_close.backing)
  | dispose => exact .inl (same c.pollerOnly_dispose.backing)
  | start place => exact .inl (same (c.tasksOnly_start place).backing)
  | discard place => exact .inl (same (c.tasksOnly_discard place).backing)
  | finish id o =>
    refine .inl ?_
    rcases c.after_finish_eq_or id o with h | ⟨l, rfl, hl, h⟩
    · rw [h]
      exact .none
    · rw [h]
      exact c.calls_finish_backing hl o
  | beginScan => exact .inl (same c.pollerOnly_beginScan.backing)
  | visit r =>
    refine .inl ?_
    simp only [after]
    split
    · exact c.calls_visit r
    · exact .none
  | endScan => exact .inl (same c.pollerOnly_after_endScan.backing)
  | purge =>
    simp only [after, purged]
    cases hp : c.backing.store.purge? c.now with
    | none => exact .inl .none
    | some p =>
      obtain ⟨n, store⟩ := p
      exact .inr (.inl ⟨trivial, n, store, rfl, rfl⟩)
  | forecast f => exact .inr (.inr ⟨f, rfl, rfl⟩)
  | tick _ | unschedule _ | shut | forget => exact .inl .none

/-- The forecast changes with the weather alone. -/
theorem forecast_after (c : Cache) (m : Move) :
    (c.after m).backing.forecast = match m with
      | .forecast f => f
      | _ => c.backing.forecast := by
  rcases c.backing_after m with h | ⟨rfl, n, store, -, h⟩ | ⟨f, rfl, h⟩
  · cases m with
    | forecast f => rfl
    | _ => exact h.forecast
  · rw [h]
  · rw [h]

end Cache

end Evergreen
