import Evergreen.Proofs.BackingSteps
import Evergreen.Proofs.OneMap
import Evergreen.Proofs.Scans

/-!
# Removing everything

Removing a key makes its request due and then takes its slot away; removing everything clears
all shards of the store and then makes every registered request due. Both come to the same,
provided that each slot stands where a removal looks for it (`Store.Placed`), which every call of
the store preserves.

- `Store.without_eq_clear`: removing all keys that hold something is clearing;
- `traceless_removeAll`, `traceless_run_remove`: what either leads to, but for the notes and the
  calls that were made on the way (`traceless`);
- `covers_iff`: which keys have to be among those that are removed;
- `offeredByEveryScan_of_emptied`: what is left is offered by the next scan.
-/

namespace Evergreen

/-! ## Stores -/

namespace Store

/-- Every slot stands in the shard of its key, as it does in a store that was created and changed
by nothing but calls. A plain map has no shards. -/
def Placed : Store → Prop
  | memory s => s.Placed
  | plain _ => True

theorem Placed.get {s : Store} (h : s.Placed) (now : Nat) (k : Key) : (s.get now k).2.Placed := by
  cases s with
  | memory s => exact ShardedStore.Placed.call h now (.get k)
  | plain t => trivial

theorem Placed.set {s : Store} (h : s.Placed) (now : Nat) (k : Key) (e : Entry)
    (hint : Option Nat) : (s.set now k e hint).Placed := by
  cases s with
  | memory s => exact ShardedStore.Placed.call h now (.set k e hint)
  | plain t => trivial

theorem Placed.remove {s : Store} (h : s.Placed) (k : Key) : (s.remove k).2.Placed := by
  cases s with
  | memory s => exact ShardedStore.Placed.call h 0 (.remove k)
  | plain t => trivial

theorem Placed.clear {s : Store} (h : s.Placed) : s.clear.Placed := by
  cases s with
  | memory s => exact ShardedStore.Placed.call h 0 .clear
  | plain t => trivial

theorem Placed.purge {s s' : Store} (h : s.Placed) {now n : Nat}
    (hp : s.purge? now = some (n, s')) : s'.Placed := by
  cases s with
  | memory s =>
    cases hp
    exact ShardedStore.Placed.call h now .purge
  | plain t => cases hp

/-- The keys under which there is something to remove. -/
def keys : Store → List Key
  | memory s => s.allPairs.map (·.1)
  | plain t => t.keys

/-- While every slot is where its key belongs, the keys that are listed are those that are found. -/
theorem mem_keys_iff {s : Store} (hp : s.Placed) {k : Key} : k ∈ s.keys ↔ s.holds k = true := by
  cases s with
  | memory s =>
    simp [keys, holds, ShardedStore.mem_allPairs hp, Option.isSome_iff_exists]
  | plain t => exact Table.mem_keys_iff

/-- Removing a key leaves everything under the others. -/
theorem holds_remove (s : Store) (k k' : Key) :
    (s.remove k).2.holds k' = (k' != k && s.holds k') := by
  cases s with
  | memory s =>
    simp only [Store.remove, holds, ShardedStore.remove, ShardedStore.slot?_erase]
    by_cases hk : k' = k <;> simp [hk]
  | plain t =>
    simp only [Store.remove, holds, Table.contains, Table.find?_erase]
    by_cases hk : k' = k <;> simp [hk]

/-- Clearing leaves the same whether something has been removed before or not. -/
theorem clear_remove (s : Store) (k : Key) : (s.remove k).2.clear = s.clear := by
  cases s with
  | plain t => rfl
  | memory s =>
    simp [Store.remove, Store.clear, ShardedStore.clear, ShardedStore.remove, ShardedStore.onShard,
      ShardedStore.onEveryShard]

/-- A store that holds nothing is a store that was cleared. -/
theorem eq_clear {s : Store} (hp : s.Placed) (h : ∀ k, s.holds k = false) : s = s.clear := by
  cases s with
  | plain t =>
    have hnone (p : Key × Entry) : p ∉ t.pairs := fun hmem => by
      have hfound : t.find? p.1 = some p.2 := Table.find?_eq_some_iff.2 hmem
      simpa [holds, Table.contains, hfound] using h p.1
    obtain ⟨pairs, distinct⟩ := t
    obtain rfl : pairs = [] := List.eq_nil_iff_forall_not_mem.2 hnone
    rfl
  | memory s =>
    have hnone (t : Table Slot) (ht : t ∈ s.shards) : t = Table.empty := by
      -- a slot that stood in any shard would be found under its key
      have hpairs (p : Key × Slot) : p ∉ t.pairs := fun hmem => by
        have hslot : s.slot? p.1 = some p.2 :=
          (ShardedStore.mem_allPairs hp).1 (List.mem_flatMap.2 ⟨t, ht, hmem⟩)
        simpa [holds, hslot] using h p.1
      obtain ⟨pairs, distinct⟩ := t
      obtain rfl : pairs = [] := List.eq_nil_iff_forall_not_mem.2 hpairs
      rfl
    have hshards : s.shards = s.shards.map fun _ => Table.empty :=
      (List.map_id s.shards).symm.trans (List.map_congr_left hnone)
    obtain ⟨hash, shards, nonempty⟩ := s
    simp only [Store.clear, ShardedStore.clear, ShardedStore.onEveryShard, ← hshards]

/-- The store without what is under some keys. -/
def without (s : Store) (ks : List Key) : Store := ks.foldl (fun s k => (s.remove k).2) s

theorem Placed.without {s : Store} (h : s.Placed) (ks : List Key) : (s.without ks).Placed := by
  induction ks generalizing s with
  | nil => exact h
  | cons k ks ih => exact ih (h.remove k)

/-- A clear takes in what was removed before it. -/
theorem clear_without (s : Store) (ks : List Key) : (s.without ks).clear = s.clear := by
  induction ks generalizing s with
  | nil => rfl
  | cons k ks ih => exact (ih _).trans (s.clear_remove k)

/-- After removals, what is held is what none of them was about. -/
theorem holds_without (s : Store) (ks : List Key) (k : Key) :
    (s.without ks).holds k = (!ks.contains k && s.holds k) := by
  induction ks generalizing s with
  | nil => simp [without]
  | cons k' ks ih =>
    show ((s.remove k').2.without ks).holds k = _
    rw [ih, holds_remove]
    by_cases hk : k = k'
    · simp [hk]
    · simp [hk, beq_eq_false_iff_ne.2 hk, bne]

/-- **Removing every key is clearing,** in any order, and also where a key is named twice or
holds nothing. -/
theorem without_eq_clear {s : Store} (hp : s.Placed) {ks : List Key}
    (h : ∀ k, s.holds k = true → k ∈ ks) : s.without ks = s.clear := by
  rw [eq_clear (hp.without ks), clear_without]
  intro k
  rw [holds_without]
  cases hk : s.holds k with
  | false => exact Bool.and_false _
  | true => simp [h k hk]

theorem size_clear (s : Store) : s.clear.size = 0 := by
  cases s with
  | plain t => rfl
  | memory s =>
    show (s.shards.map fun _ => Table.empty).foldr (fun t n => t.size + n) 0 = 0
    induction s.shards with
    | nil => rfl
    | cons t ts ih => simpa [Table.size, Table.empty] using ih

end Store

namespace Cache

/-! ## The store of a cache -/

/-- Every slot still stands in the shard of its key after a move. -/
theorem placed_after {c : Cache} (h : c.backing.store.Placed) (m : Move) :
    (c.after m).backing.store.Placed := by
  rcases c.backing_after m with hcalls | ⟨-, n, store, hpurge, hafter⟩ | ⟨f, -, hafter⟩
  · refine hcalls.preserves (I := fun b => b.store.Placed) h ?_ ?_ ?_ ?_
    · intro b k hb
      unfold Backing.get
      split
      · exact hb.get c.now k
      all_goals exact hb
    · intro b k e hb _
      unfold Backing.set
      split
      · exact hb.set c.now k e _
      all_goals exact hb
    · intro b k hb _
      unfold Backing.remove
      split
      · exact hb.remove k
      all_goals exact hb
    · intro b hb _
      unfold Backing.clear
      split
      · exact hb.clear
      all_goals exact hb
  · rw [hafter]
    exact h.purge hpurge
  · rw [hafter]
    exact h

/-- A run leaves every slot where its key belongs. -/
theorem placed_run {c : Cache} (h : c.backing.store.Placed) (ms : List Move) :
    (c.run ms).backing.store.Placed :=
  run_preserves (I := fun c => c.backing.store.Placed) (fun _ m hp => placed_after hp m) h ms

/-! ## Removing everything, and removing each -/

/-- The families of the requests that are registered. -/
def registeredFamilies (c : Cache) : List Nat :=
  c.poller.registry.requests.values.map (·.request.family)

/-- The families of the requests that are registered under some keys. -/
def familiesAt (c : Cache) (ks : List Key) : List Nat :=
  ks.filterMap fun k => (c.poller.registry.request? k).map (·.family)

/-- The cache with another store, and without the refresh marks of some families. -/
def unmarked (c : Cache) (fs : List Nat) (store : Store) : Cache :=
  { c with
    marks := fun f => if f ∈ fs then none else c.marks f
    backing := { c.backing with store } }

/-- The cache with nothing stored, and with every registered request as if it was never
refreshed. -/
def emptied (c : Cache) : Cache := c.unmarked c.registeredFamilies c.backing.store.clear

/-- The cache without its traces of removals: what was noted, and how often the store was
called to remove something. -/
def traceless (c : Cache) : Cache :=
  { c with
    backing := { c.backing with
      calls := fun op => if op = .remove ∨ op = .clear then 0 else c.backing.calls op }
    journal := [] }

section Removals

variable {c : Cache}

/-- To reset the marks of registrations one by one is to take them all away. -/
theorem foldl_resetMark_eq (c : Cache) (regs : List Registration) :
    regs.foldl (fun c reg => c.resetMark reg.request.family) c =
      c.unmarked (regs.map (·.request.family)) c.backing.store := by
  induction regs generalizing c with
  | nil => simp [unmarked]
  | cons reg regs ih =>
    rw [List.foldl_cons, ih]
    unfold unmarked resetMark
    congr 1
    funext f
    by_cases hf : f = reg.request.family <;> simp [hf]

/-- Marks taken away in two goes are taken away in one. -/
theorem unmarked_unmarked (fs fs' : List Nat) (store store' : Store) :
    (c.unmarked fs store).unmarked fs' store' = c.unmarked (fs ++ fs') store' := by
  unfold unmarked
  congr 1
  funext f
  by_cases hf : f ∈ fs' <;> simp [hf]

/-- A call that removes leaves traces, and another store. -/
theorem traceless_called {op : StoreOp} (hop : op = .remove ∨ op = .clear) (key : Option Key)
    (store : Store) (answer : StoreAnswer) :
    (c.called op key store answer).traceless = (c.unmarked [] store).traceless := by
  have hcalls : (fun o => if o = .remove ∨ o = .clear then 0
      else if o = op then c.backing.calls op + 1 else c.backing.calls o) =
      fun o => if o = .remove ∨ o = .clear then 0 else c.backing.calls o := by
    funext o
    by_cases ho : o = .remove ∨ o = .clear
    · simp only [if_pos ho]
    · have hne : o ≠ op := fun h => ho (h ▸ hop)
      simp only [if_neg ho, if_neg hne]
  simp only [traceless, called, record, Backing.called, unmarked, hcalls]
  simp

/-- What removing everything leads to. -/
theorem traceless_removeAll (hr : c.backing.forecast.Reliable) :
    c.removeAll.traceless = c.emptied.traceless := by
  have hv : c.backing.verdict .clear = .pass := (hr _ _).resolve_right nofun
  have hdrop : c.dropAll = c.called .clear none c.backing.store.clear .cleared := by
    rw [dropAll_eq, wipe_eq, hv]
    rfl
  have hall : c.removeAll = (c.unmarked c.registeredFamilies c.backing.store).called .clear none
      c.backing.store.clear .cleared := by
    rw [removeAll, hdrop, resetAll, foldl_resetMark_eq]
    rfl
  rw [hall, traceless_called (.inr rfl), unmarked_unmarked, List.append_nil]
  rfl

/-- What removing a key leads to. -/
theorem remove_eq (hr : c.backing.forecast.Reliable) (k : Key) :
    (c.remove k).2 = (c.unmarked (c.familiesAt [k]) c.backing.store).called .remove (some k)
      (c.backing.store.remove k).2 (.removed (c.backing.store.remove k).1) := by
  have hv : c.backing.verdict .remove = .pass := (hr _ _).resolve_right nofun
  have hreset : c.resetRegistered k = c.unmarked (c.familiesAt [k]) c.backing.store := by
    unfold resetRegistered unmarked familiesAt
    cases hq : c.poller.registry.request? k with
    | none => simp [hq]
    | some q => simp [hq, resetMark]
  rw [remove, hreset, drop_eq, delete_eq,
    show (c.unmarked (c.familiesAt [k]) c.backing.store).backing = c.backing from rfl, hv]
  rfl

theorem familiesAt_cons (k : Key) (ks : List Key) :
    c.familiesAt (k :: ks) = c.familiesAt [k] ++ c.familiesAt ks :=
  List.filterMap_append (l := [k])

/-- What removing keys one after the other leads to. -/
theorem traceless_run_remove (hr : c.backing.forecast.Reliable) (ks : List Key) :
    (c.run (ks.map .remove)).traceless =
      (c.unmarked (c.familiesAt ks) (c.backing.store.without ks)).traceless := by
  induction ks generalizing c with
  | nil => simp [unmarked, familiesAt, Store.without]
  | cons k ks ih =>
    have hnext : (c.after (.remove k)).backing.forecast.Reliable := by
      rw [forecast_after]
      exact hr
    refine (ih hnext).trans ?_
    rw [show c.after (.remove k) = _ from remove_eq hr k, familiesAt_cons k ks]
    -- the marks and the store of the rest are taken after the first removal
    show (((c.unmarked (c.familiesAt [k]) c.backing.store).unmarked (c.familiesAt ks)
      (c.backing.store.without (k :: ks))).called .remove (some k) _ _).traceless = _
    rw [traceless_called (.inl rfl), unmarked_unmarked, unmarked_unmarked, List.append_nil]
    rfl

/-- Keys that include each key under which something is stored, and each that is registered. -/
def Covers (c : Cache) (ks : List Key) : Prop :=
  ∀ k, c.backing.store.holds k = true ∨ c.isScheduled k = true → k ∈ ks

/-- Keys cover a cache if they include what is stored and what is registered. -/
theorem covers_iff (hp : c.backing.store.Placed) {ks : List Key} :
    c.Covers ks ↔ c.backing.store.keys ++ c.scheduledKeys ⊆ ks := by
  refine forall_congr' fun k => ?_
  rw [List.mem_append, Store.mem_keys_iff hp, scheduledKeys, Table.mem_keys_iff]
  rfl

/-- Only what is registered under one of the keys is concerned. -/
theorem mem_familiesAt {ks : List Key} {f : Nat} : f ∈ c.familiesAt ks ↔
    ∃ k ∈ ks, ∃ q, c.poller.registry.request? k = some q ∧ q.family = f := by
  simp [familiesAt, List.mem_filterMap, Option.map_eq_some_iff]

theorem mem_registeredFamilies {f : Nat} :
    f ∈ c.registeredFamilies ↔ ∃ k q, c.poller.registry.request? k = some q ∧ q.family = f := by
  simp only [registeredFamilies, Table.values, List.map_map, List.mem_map, Registry.request?,
    Option.map_eq_some_iff, Table.find?_eq_some_iff]
  constructor
  · rintro ⟨⟨k, reg⟩, hreg, hf⟩
    exact ⟨k, reg.request, ⟨reg, hreg, rfl⟩, hf⟩
  · rintro ⟨k, _, ⟨reg, hreg, rfl⟩, hf⟩
    exact ⟨(k, reg), hreg, hf⟩

/-- **Removing each leads to the same as removing everything.** -/
theorem traceless_run_remove_of_covers (hr : c.backing.forecast.Reliable)
    (hp : c.backing.store.Placed) {ks : List Key} (hks : c.Covers ks) :
    (c.run (ks.map .remove)).traceless = c.emptied.traceless := by
  -- which families are among them matters, and not how often or in which order
  have hfamilies (f : Nat) : f ∈ c.familiesAt ks ↔ f ∈ c.registeredFamilies := by
    rw [mem_familiesAt, mem_registeredFamilies]
    refine ⟨fun ⟨k, _, hq⟩ => ⟨k, hq⟩, fun ⟨k, q, hq, hf⟩ => ⟨k, hks k (.inr ?_), q, hq, hf⟩⟩
    obtain ⟨reg, hreg, -⟩ := Option.map_eq_some_iff.1 hq
    simp [isScheduled, Table.contains, hreg]
  rw [traceless_run_remove hr, Store.without_eq_clear hp fun k hk => hks k (.inl hk)]
  simp only [emptied, unmarked, hfamilies]

/-- Where nothing is stored and every registered request is as if it was never refreshed, every
scan offers all of them. -/
theorem offeredByEveryScan_of_emptied {c' : Cache} (hc' : c'.Reachable)
    (h : c'.traceless = c.emptied.traceless) {q : Request} (hq : c.Registered q) :
    c'.Registered q ∧ c'.OfferedByEveryScan q := by
  have hpoller : c'.poller = c.poller := congrArg (·.poller) h
  have hmarks : c'.marks = c.emptied.marks := congrArg (·.marks) h
  refine ⟨?_, offeredByEveryScan_of_overdue hc' fun t ht => ?_⟩
  · unfold Registered
    rwa [hpoller]
  · obtain ⟨k, hk⟩ := hq
    have hf : q.family ∈ c.registeredFamilies := mem_registeredFamilies.2 ⟨k, q, hk, rfl⟩
    rw [hmarks] at ht
    simp [emptied, unmarked, hf] at ht

/-- A removal is always allowed. -/
theorem along_map_remove (c : Cache) (ks : List Key) : Along Allows c (ks.map .remove) := by
  induction ks generalizing c with
  | nil => trivial
  | cons k ks ih => exact ⟨trivial, ih _⟩

end Removals

/-- **Removing everything is removing each.** In every cache that can be reached, over a store
that does not fail:

1. after `removeAll` nothing is stored, every registered request is as if it was never
   refreshed, and all else is as it was, but for the traces of removals;
2. the same comes of removing one key after the other, in any order, as long as each is among
   them under which something is stored or a request is registered;
3. after either, every scan offers each registered request once until a load renews it. -/
theorem remove_all_is_remove_each {c₀ : Cache} (hc : c₀.Launched) (hp : c₀.backing.store.Placed)
    {before : List Move} (hbefore : Along Allows c₀ before) :
    let c := c₀.run before
    c.backing.forecast.Reliable →
      (c.removeAll.traceless = c.emptied.traceless ∧ c.removeAll.backing.store.size = 0 ∧
        ∀ now k, c.removeAll.backing.store.find? now k = none) ∧
      (c.Covers (c.backing.store.keys ++ c.scheduledKeys) ∧
        ∀ ks, c.Covers ks → (c.run (ks.map .remove)).traceless = c.removeAll.traceless) ∧
      ∀ q, c.Registered q →
        (c.removeAll.Registered q ∧ c.removeAll.OfferedByEveryScan q) ∧
        ∀ ks, c.Covers ks → (c.run (ks.map .remove)).Registered q ∧
          (c.run (ks.map .remove)).OfferedByEveryScan q := by
  intro c hr
  have hreach : c.Reachable := (Reachable.launched hc).run hbefore
  have hplaced : c.backing.store.Placed := placed_run hp before
  have hall := traceless_removeAll hr
  have hstore : c.removeAll.backing.store = c.backing.store.clear :=
    congrArg (·.backing.store) hall
  have heach (ks : List Key) (hks : c.Covers ks) := traceless_run_remove_of_covers hr hplaced hks
  refine ⟨⟨hall, ?_, ?_⟩, ⟨(covers_iff hplaced).2 (List.Subset.refl _),
    fun ks hks => (heach ks hks).trans hall.symm⟩, fun q hq =>
    ⟨offeredByEveryScan_of_emptied (hreach.after (m := .removeAll) trivial) hall hq, fun ks hks =>
      offeredByEveryScan_of_emptied (hreach.run (along_map_remove c ks)) (heach ks hks) hq⟩⟩
  · rw [hstore, Store.size_clear]
  · intro now k
    rw [hstore, Store.find?_clear]

/-- A cache just built over an empty memory store of four shards, at time zero. -/
def overShards (executor : Executor) : Cache :=
  { overMap executor with
    backing := { store := .memory (ShardedStore.create String.length 4) } }

theorem launched_overShards (executor : Executor) : (overShards executor).Launched := by
  have hb : Blueprint.build
      { store := some (.memory (ShardedStore.create String.length 4))
        executor := some executor } 0 = .ok (overShards executor) := rfl
  refine launched_of_build hb ?_
  rintro s hs k
  cases hs
  simp [Store.kept?]

/-- A registered request is refreshed, and a value is stored under another key. -/
def refreshedAndSet : List Move :=
  [.schedule profile, .tick minPollInterval, .beginScan, .visit profile, .endScan, .start 0,
    .finish 0 (.value "loaded" true), .set "other" "given" (10 * Clock.second)]

theorem covers_refreshedAndSet :
    ((overShards (.pool 1 4)).run refreshedAndSet).Covers ["other", "profile"] := by
  have hplaced : (overShards (.pool 1 4)).backing.store.Placed := ShardedStore.placed_create _ _
  exact (covers_iff (placed_run hplaced _)).2 (by decide)

/-- The two keys stand in different shards. Removing them one after the other makes the request
due again that was refreshed, as removing everything does. -/
theorem remove_all_is_remove_each_refreshedAndSet :
    ∃ c, c = (overShards (.pool 1 4)).run refreshedAndSet ∧ c.isDue profile = false ∧
      c.Covers ["other", "profile"] ∧
      (c.run (["other", "profile"].map .remove)).traceless = c.removeAll.traceless ∧
      c.removeAll.backing.store.size = 0 ∧
      (c.run (["other", "profile"].map .remove)).OfferedByEveryScan profile := by
  have hallowed : Along Allows (overShards (.pool 1 4)) refreshedAndSet :=
    ⟨profile_wellFormed, trivial, trivial, trivial, trivial, trivial, trivial, trivial, trivial⟩
  have hplaced : (overShards (.pool 1 4)).backing.store.Placed := ShardedStore.placed_create _ _
  obtain ⟨hall, heach, hscans⟩ := remove_all_is_remove_each (launched_overShards (.pool 1 4))
    hplaced hallowed fun _ _ => .inl rfl
  have hscan := hscans profile ⟨"profile", rfl⟩
  exact ⟨_, rfl, by decide, covers_refreshedAndSet, heach.2 _ covers_refreshedAndSet, hall.2.1,
    (hscan.2 _ covers_refreshedAndSet).2⟩

end Cache

end Evergreen
