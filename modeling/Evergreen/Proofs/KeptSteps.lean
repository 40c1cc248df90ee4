import Evergreen.Proofs.Parts

/-!
# What a move does to what is kept

`Store.kept?` does not change with the clock, so what is kept under a key changes by writes and
removals alone, and by reads that find it past its time. `KeptStep c m k` lists all that a
single move can make of it. `keptStep_after` says that the list is complete: invariants of the
store are shown by cases on it and never by cases on moves.

- `kept?_lookup_of_live`: while it can be served, what is kept survives every lookup;
- `kept?_writeLoaded`: what a load writes is kept if the guard lets it pass and the store
  accepts it;
- `newer_eq_true_iff`: what the guard stands for where no call of the store fails.
-/

namespace Evergreen.Cache

/-- Nothing under a key is past its time: what is kept there can be served. -/
def Live (c : Cache) (k : Key) : Prop := c.finds k = c.backing.kept? k

/-- While it can be served, what is kept is what a read finds. -/
theorem Live.find?_eq {c : Cache} {k : Key} (h : c.Live k) :
    c.backing.store.find? c.now k = c.backing.kept? k := by
  cases hf : c.backing.store.find? c.now k with
  | none =>
    rw [← h]
    simp [finds, hf]
  | some e => exact (Store.kept?_of_find? hf).symm

/-- What is kept and can be served is not past its hard lifetime. -/
theorem Live.not_hardExpired {c : Cache} {k : Key} (h : c.Live k) {e : Entry}
    (he : c.backing.kept? k = some e) : e.hardExpired c.now = false := by
  rw [← h] at he
  exact (finds_eq_some_iff.1 he).2

/-! ## Lookups -/

section Lookups

variable (c : Cache)

theorem backing_drop (k : Key) : (c.drop k).2.backing = (c.backing.remove k).2 := by
  show _ = (c.delete k).2.backing
  unfold drop
  split
  · rename_i hd
    rw [hd]
  · rename_i hd
    rw [hd]
    rfl

theorem backing_dropAll : c.dropAll.backing = c.backing.clear.2 := by
  show _ = c.wipe.2.backing
  unfold dropAll
  split
  · rename_i hd
    rw [hd]
  · rename_i hd
    rw [hd]
    rfl

/-- What a read finds is what the store would answer. -/
theorem find?_of_fetch {c : Cache} {k : Key} {e : Entry}
    (h : (c.fetch k).1 = .ok (some e)) : c.backing.store.find? c.now k = some e := by
  rw [fetch_fst] at h
  split at h
  · simpa using h
  · cases h
  · cases h

/-- A lookup leaves what is kept, or lets it go. -/
theorem kept?_lookup_eq_or (k k' : Key) :
    (c.lookup k).2.backing.kept? k' = c.backing.kept? k' ∨
      (c.lookup k).2.backing.kept? k' = none := by
  have hf : (c.fetch k).2.backing.kept? k' = c.backing.kept? k' ∨
      (c.fetch k).2.backing.kept? k' = none := c.backing.kept?_get_eq_or c.now k k'
  unfold lookup
  split
  · rename_i e c' hc
    rw [hc] at hf
    split
    · -- the entry found is past its hard lifetime, and is removed
      rw [backing_drop]
      rcases c'.backing.kept?_remove_eq_or k k' with hr | hr
      · exact hf.imp hr.trans hr.trans
      · exact .inr hr
    · exact hf
  · rename_i c' hc
    rw [hc] at hf
    exact hf
  · rename_i fault c' hc
    rw [hc] at hf
    exact hf

/-- **While it can be served, what is kept survives every lookup.** -/
theorem kept?_lookup_of_live {k' : Key} (h : c.Live k') (k : Key) :
    (c.lookup k).2.backing.kept? k' = c.backing.kept? k' := by
  have hf : (c.fetch k).2.backing.kept? k' = c.backing.kept? k' := by
    by_cases hk : k' = k
    · subst hk
      exact Backing.kept?_get_of_find? k' h.find?_eq
    · exact c.backing.kept?_get_other c.now hk
  have hn := (c.storeOnly_fetch k).now
  unfold lookup
  split
  · rename_i e c' hc
    have hfind := find?_of_fetch (c := c) (k := k) (e := e) (by rw [hc])
    rw [hc] at hf hn
    split
    · rename_i he
      rw [backing_drop]
      by_cases hk : k' = k
      · -- what can be served is not past its hard lifetime
        subst hk
        have hlive := h.not_hardExpired (h.find?_eq.symm.trans hfind)
        rw [← hn, he] at hlive
        cases hlive
      · exact (c'.backing.kept?_remove_other hk).trans hf
    · exact hf
  · rename_i c' hc
    rw [hc] at hf
    exact hf
  · rename_i fault c' hc
    rw [hc] at hf
    exact hf

end Lookups

/-! ## Writes and their guard -/

section Writes

variable (c : Cache)

/-- A read does not change what the next write meets. -/
theorem verdict_fetch (k : Key) :
    (c.fetch k).2.backing.verdict .set = c.backing.verdict .set := by
  show (c.backing.get c.now k).2.verdict .set = _
  unfold Backing.get
  split <;> rfl

theorem backing_write (k : Key) (e : Entry) :
    (c.write k e).2.backing = (c.backing.set c.now k e (e.expiresIn c.now)).2 := by
  show _ = (c.put k e).2.backing
  unfold write
  split
  · rename_i hp
    rw [hp]
    rfl
  · rename_i hp
    rw [hp]
  · rename_i hp
    rw [hp]
    rfl

/-- What is written is kept if the store accepts it. -/
theorem kept?_write (k k' : Key) (e : Entry) :
    (c.write k e).2.backing.kept? k' =
      if c.backing.verdict .set = .pass ∧ k' = k then some e else c.backing.kept? k' := by
  rw [backing_write]
  exact c.backing.kept?_set ..

/-- The guard reads the store, and does nothing else to it. -/
theorem newer_snd (k : Key) (started : Nat) : (c.newer k started).2 = (c.fetch k).2 := by
  unfold newer
  split
  · rename_i hf
    rw [hf]
  · rename_i hf
    rw [hf]

/-- The guard reads the store and the clock. -/
theorem newer_fst (k : Key) (started : Nat) :
    (c.newer k started).1 = match (c.fetch k).1 with
      | .ok (some e) => decide (started < e.since) && !e.carried
      | _ => false := by
  unfold newer
  obtain ⟨answer, c'⟩ := c.fetch k
  rcases answer with fault | found | e
  · rfl
  · rfl
  · rfl

/-- What the guard answers depends on the store only. -/
theorem newer_congr {c c' : Cache} (h : SameStore c c') (k : Key) (started : Nat) :
    (c'.newer k started).1 = (c.newer k started).1 := by
  simp only [newer_fst, fetch_fst, h.backing, h.now]

/-- **The guard, where no call of the store fails:** it holds a write back exactly if the store
has an entry that was made after the load began and that no failed load carried over. -/
theorem newer_eq_true_iff (hf : c.backing.forecast.Reliable) {k : Key} {started : Nat} :
    (c.newer k started).1 = true ↔ ∃ e, c.backing.store.find? c.now k = some e ∧
      started < e.since ∧ e.carried = false := by
  rw [newer_fst, fetch_fst, Backing.verdict_get_of_reliable hf]
  cases c.backing.store.find? c.now k with
  | none => simp
  | some e => simp

/-- A write of a load is a read for its guard and, unless the guard holds it back, a write. -/
theorem backing_writeLoaded (k : Key) (e : Entry) (started : Nat) :
    (c.writeLoaded k e started).2.backing =
      if (c.newer k started).1 then (c.backing.get c.now k).2
      else ((c.backing.get c.now k).2.set c.now k e (e.expiresIn c.now)).2 := by
  -- the read is made for the guard, and what it lets go is gone whatever the guard says
  have hs : (c.newer k started).2 = (c.fetch k).2 := c.newer_snd k started
  have hn : (c.fetch k).2.now = c.now := (c.storeOnly_fetch k).now
  unfold writeLoaded
  split
  · rename_i c' hw
    rw [hw] at hs ⊢
    rw [if_pos rfl, show (c.backing.get c.now k).2 = (c.fetch k).2.backing from rfl, ← hs]
    rfl
  · rename_i c' hw
    rw [hw] at hs ⊢
    rw [if_neg (by simp), show (c.backing.get c.now k).2 = (c.fetch k).2.backing from rfl,
      ← hn, ← hs]
    exact c'.backing_write k e

/-- What a guarded write leaves in the store depends on the store only. -/
theorem backing_writeLoaded_congr {c c' : Cache} (h : SameStore c c') (k : Key) (e : Entry)
    (started : Nat) :
    (c'.writeLoaded k e started).2.backing = (c.writeLoaded k e started).2.backing := by
  simp only [backing_writeLoaded, newer_congr h, h.backing, h.now]

/-- What a load writes is kept if the guard lets it pass and the store accepts it. -/
theorem kept?_writeLoaded (k k' : Key) (e : Entry) (started : Nat) :
    (c.writeLoaded k e started).2.backing.kept? k' =
      if (c.newer k started).1 = false ∧ c.backing.verdict .set = .pass ∧ k' = k then some e
      else (c.backing.get c.now k).2.kept? k' := by
  have hv : (c.backing.get c.now k).2.verdict .set = c.backing.verdict .set :=
    c.verdict_fetch k
  rw [backing_writeLoaded]
  cases (c.newer k started).1 with
  | true => simp
  | false =>
    simp only [Bool.false_eq_true, if_false, true_and]
    rw [Backing.kept?_set, hv]

/-- A load asks the store to keep what it writes exactly if the guard lets it pass. -/
theorem calls_writeLoaded (k : Key) (e : Entry) (started : Nat) :
    (c.writeLoaded k e started).2.backing.calls .set =
      c.backing.calls .set + if (c.newer k started).1 then 0 else 1 := by
  have hg : (c.backing.get c.now k).2.calls .set = c.backing.calls .set := by
    unfold Backing.get
    split <;> rfl
  rw [backing_writeLoaded, ← hg]
  cases (c.newer k started).1 with
  | true => rfl
  | false =>
    show Backing.calls (Backing.set ..).2 .set = _
    unfold Backing.set
    split <;> rfl

end Writes

/-! ## What a load has to write -/

/-- The entry that a load carries over if its loader fails at `now`. -/
def carryOver? (l : Load) (now : Nat) : Option Entry :=
  l.stale.bind fun e => match (cell l).cache with
    | .dontCache => none
    | .cacheExpired => some (e.carriedOver now l.request.hard 0)
    | .cacheFresh => some (e.carriedOver now l.request.hard l.request.soft)

/-- The entry that the end of a load at `now` has to write, if any. -/
def result? (l : Load) (now : Nat) : Outcome → Option Entry
  | .value v cacheable =>
    if cacheable then some (Entry.stamped now v l.request.hard l.request.soft) else none
  | .failure _ => carryOver? l now
  | .panic _ => none

/-- A load carries over the value of its stale entry, and says so. -/
theorem carryOver?_eq_some {l : Load} {now : Nat} {e : Entry} (h : carryOver? l now = some e) :
    ∃ stale, l.stale = some stale ∧ (cell l).cache ≠ .dontCache ∧ e.value = stale.value ∧
      e.since = now ∧ e.carried = true := by
  simp only [carryOver?, Option.bind_eq_some_iff] at h
  obtain ⟨stale, hs, he⟩ := h
  split at he
  · cases he
  · rename_i hc
    cases he
    exact ⟨stale, hs, by rw [hc]; nofun, rfl, rfl, rfl⟩
  · rename_i hc
    cases he
    exact ⟨stale, hs, by rw [hc]; nofun, rfl, rfl, rfl⟩

/-- What a load writes was made when it ended. -/
theorem since_of_result? {l : Load} {now : Nat} {o : Outcome} {e : Entry}
    (h : result? l now o = some e) : e.since = now := by
  cases o with
  | value v cacheable =>
    simp only [result?] at h
    split at h
    · cases h
      rfl
    · cases h
  | failure f =>
    obtain ⟨stale, -, -, -, he, -⟩ := carryOver?_eq_some h
    exact he
  | panic text => cases h

/-- A failed load writes what it carries over, under the guard. -/
theorem backing_writeBack (c : Cache) (l : Load) {e : Entry} (he : l.stale = some e) :
    (c.writeBack l e (cell l).cache).backing = match carryOver? l c.now with
      | none => c.backing
      | some e => (c.writeLoaded l.key e l.started).2.backing := by
  simp only [carryOver?, he, Option.bind_some]
  cases (cell l).cache <;> rfl

/-- **What the end of a load does to the store:** it writes what the load has to write, under
the guard. -/
theorem backing_finish (c : Cache) (l : Load) (o : Outcome) :
    (c.finish l o).2.backing = match result? l c.now o with
      | none => c.backing
      | some e => (c.writeLoaded l.key e l.started).2.backing := by
  rw [(c.ended_finish l o).backing]
  -- the load has left when it writes, but the guard and the store do not see that
  cases o with
  | value v cacheable =>
    cases cacheable with
    | false => rfl
    | true =>
      exact backing_writeLoaded_congr (c.sameStore_leave l) ..
  | failure f =>
    have hs : SameStore c ((c.leave l).failed l f) :=
      (c.sameStore_leave l).trans (sameStore_failed _ l f)
    rw [settle_failure, recover_eq]
    cases he : l.stale with
    | none =>
      simp only [result?, carryOver?, he, Option.bind_none]
      exact hs.backing
    | some e =>
      simp only [result?]
      rw [backing_writeBack _ l he, hs.now]
      cases carryOver? l c.now with
      | none => exact hs.backing
      | some e => exact backing_writeLoaded_congr hs ..
  | panic text => rfl

/-- What is kept after the end of a load that has something to write. -/
theorem kept?_finish {c : Cache} {l : Load} {o : Outcome} {e : Entry}
    (h : result? l c.now o = some e) (k : Key) :
    (c.finish l o).2.backing.kept? k =
      if (c.newer l.key l.started).1 = false ∧ c.backing.verdict .set = .pass ∧ k = l.key then
        some e
      else (c.backing.get c.now l.key).2.kept? k := by
  rw [backing_finish, h]
  exact c.kept?_writeLoaded ..

/-! ## Steps -/

/-- What a move leaves under a key. -/
inductive KeptStep (c : Cache) (m : Move) (k : Key) : Option Entry → Prop
  | same : KeptStep c m k (c.backing.kept? k)
  /-- It was removed, or was found to be past its time. -/
  | gone (why : m = .remove k ∨ m = .removeAll ∨ ¬ c.Live k) : KeptStep c m k none
  | set (v : Value) (ttl : Nat) (hm : m = .set k v ttl) :
    KeptStep c m k (some (Entry.stamped c.now v ttl ttl))
  | setEntry (e : Entry) (hm : m = .setEntry k e) : KeptStep c m k (some e)
  /-- A load has ended, and the guard let it write. -/
  | ended (l : Load) (o : Outcome) (e : Entry) (hl : c.load? l.id = some l)
    (hm : m = .finish l.id o) (hk : l.key = k) (hr : result? l c.now o = some e)
    (hg : (c.newer k l.started).1 = false) : KeptStep c m k (some e)

section Steps

variable {c : Cache} {m : Move} {k : Key}

theorem KeptStep.of_eq {found : Option Entry} (h : found = c.backing.kept? k) :
    KeptStep c m k found := by
  rw [h]
  exact .same

/-- Reads may let go of what is past its time, and of nothing else. -/
theorem KeptStep.of_read {found : Option Entry} (h : found = c.backing.kept? k ∨ found = none)
    (hl : c.Live k → found = c.backing.kept? k) : KeptStep c m k found := by
  by_cases hk : c.Live k
  · exact .of_eq (hl hk)
  · rcases h with h | rfl
    · exact .of_eq h
    · exact .gone (.inr (.inr hk))

theorem keptStep_lookup (k' : Key) :
    KeptStep c m k ((c.lookup k').2.backing.kept? k) :=
  .of_read (c.kept?_lookup_eq_or k' k) fun h => c.kept?_lookup_of_live h k'

/-- What a read for the guard leaves. -/
theorem keptStep_get (k' : Key) :
    KeptStep c m k ((c.backing.get c.now k').2.kept? k) := by
  refine .of_read (c.backing.kept?_get_eq_or c.now k' k) fun h => ?_
  by_cases hk : k = k'
  · subst hk
    exact Backing.kept?_get_of_find? k h.find?_eq
  · exact c.backing.kept?_get_other c.now hk

theorem keptStep_write {k' : Key} {e : Entry} (h : k = k' → KeptStep c m k (some e)) :
    KeptStep c m k ((c.write k' e).2.backing.kept? k) := by
  rw [kept?_write]
  split
  · rename_i hk
    exact h hk.2
  · exact .same

/-- The end of a load puts what it has loaded or carried over, or nothing. -/
theorem keptStep_finish {l : Load} (hl : c.load? l.id = some l) (o : Outcome) :
    KeptStep c (.finish l.id o) k ((c.finish l o).2.backing.kept? k) := by
  cases hr : result? l c.now o with
  | none =>
    rw [backing_finish, hr]
    exact .same
  | some e =>
    rw [kept?_finish hr]
    split
    · rename_i h
      obtain ⟨hg, -, rfl⟩ := h
      exact .ended l o e hl rfl rfl hr hg
    · -- held back or declined: what is left of the write is the read for its guard
      exact keptStep_get l.key

theorem keptStep_visit (r : Request) : KeptStep c m k ((c.visit r).2.backing.kept? k) := by
  cases hp : c.poller.phase with
  | scanning due =>
    -- the scan has moved on, and the store is as before
    have hl : KeptStep c m k ((c.visited due r).backing.kept? k) := by
      refine .of_read (kept?_lookup_eq_or _ r.key k) ?_
      intro h
      exact kept?_lookup_of_live
        { c with poller := { c.poller with phase := .scanning (due.erase r) } } h r.key
    rwa [(tasksOnly_visit hp r).backing]
  | _ =>
    have hv : (c.visit r).2 = c := by simp [visit, hp]
    rw [hv]
    exact .same

/-- A get puts nothing; at most it drops what is dead. -/
theorem keptStep_get_after (r : Request) : KeptStep c m k ((c.get r).2.backing.kept? k) := by
  rw [(c.sameStore_get r).backing]
  exact keptStep_lookup r.key

end Steps

/-- **Every move is a step of what is kept.** -/
theorem keptStep_after (c : Cache) (m : Move) (k : Key) :
    KeptStep c m k ((c.after m).backing.kept? k) := by
  cases m with
  | tick now => exact .same
  | get r => exact keptStep_get_after r
  | peek k' => exact keptStep_lookup k'
  | set k' v ttl =>
    show KeptStep c _ k ((c.set k' v ttl).2.backing.kept? k)
    unfold Cache.set Entry.create
    cases checkKey k' with
    | error fault => exact .same
    | ok u =>
      cases checkTtls ttl ttl with
      | error fault => exact .same
      | ok u =>
        refine keptStep_write ?_
        rintro rfl
        exact .set v ttl rfl
  | setEntry k' e =>
    show KeptStep c _ k ((c.setEntry k' e).2.backing.kept? k)
    unfold Cache.setEntry
    split
    · exact .same
    · refine keptStep_write ?_
      rintro rfl
      exact .setEntry e rfl
  | remove k' =>
    show KeptStep c _ k (((c.resetRegistered k').drop k').2.backing.kept? k)
    rw [backing_drop, (c.sameStore_resetRegistered k').backing]
    by_cases hk : k = k'
    · subst hk
      rcases c.backing.kept?_remove_eq_or k k with h | h
      · exact .of_eq h
      · rw [h]
        exact .gone (.inl rfl)
    · exact .of_eq (c.backing.kept?_remove_other hk)
  | removeAll =>
    show KeptStep c _ k (c.dropAll.resetAll.backing.kept? k)
    rw [c.dropAll.sameStore_resetAll.backing, backing_dropAll]
    rcases c.backing.kept?_clear_eq_or k with h | h
    · exact .of_eq h
    · rw [h]
      exact .gone (.inr (.inl rfl))
  | schedule r =>
    show KeptStep c _ k ((c.schedule r).2.backing.kept? k)
    rw [(c.sameStore_schedule r).backing]
    exact .same
  | unschedule k' => exact .same
  | close =>
    show KeptStep c _ k (c.close.backing.kept? k)
    rw [c.pollerOnly_close.backing]
    exact .same
  | dispose =>
    show KeptStep c _ k (c.dispose.backing.kept? k)
    rw [c.pollerOnly_dispose.backing]
    exact .same
  | start place =>
    rw [(c.tasksOnly_start place).backing]
    exact .same
  | discard place =>
    rw [(c.tasksOnly_discard place).backing]
    exact .same
  | finish id o =>
    rcases c.after_finish_eq_or id o with h | ⟨l, rfl, hl, h⟩
    · rw [h]
      exact .same
    · rw [h]
      exact keptStep_finish hl o
  | beginScan =>
    show KeptStep c _ k ((c.beginScan?.getD c).backing.kept? k)
    rw [c.pollerOnly_beginScan.backing]
    exact .same
  | visit r =>
    simp only [after]
    split
    · exact keptStep_visit r
    · exact .same
  | endScan =>
    rw [c.pollerOnly_after_endScan.backing]
    exact .same
  | shut => exact .same
  | purge =>
    simp only [after, purged]
    split
    · exact .same
    · -- a purge lets go of what a read would let go
      rename_i n store hp
      refine .of_read (Store.kept?_purge_eq_or hp k) ?_
      intro h
      exact (Store.kept?_purge hp k).trans h.find?_eq
  | forecast f => exact .same
  | forget => exact .same

end Evergreen.Cache
