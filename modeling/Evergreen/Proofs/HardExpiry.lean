import Evergreen.Proofs.BackingSteps
import Evergreen.Proofs.ModeTable

/-!
# Past the hard lifetime

A store may go on keeping an entry past its hard lifetime: a plain map pays no heed to hints, a
removal may fail, and an entry may have been old when it was put there. What may be kept must
still not be served, so the age of an entry is looked at whenever the store is read.

- `counters_get`: a get counts what its lookup has found, and counts it once;
- `mem_loads_get`, `mem_waiting_get`: a get hands on what the store yields, and nothing else;
- `kept?_lookup_of_outlived`: a lookup that meets an entry past its time has it removed;
- `misses_of_yields`: a get that finds nothing to serve is a miss in every respect;
- `hard_expired_never_served`: these together, for all that reads the store.
-/

namespace Evergreen

/-- The counter of what a lookup has found. -/
def Freshness.counter : Freshness → Counter
  | miss => .misses
  | fresh => .freshHits
  | stale => .staleHits

/-- Whether a counter is one of those that count what gets find. -/
def Counter.countsFinds : Counter → Bool
  | freshHits | staleHits | misses => true
  | _ => false

namespace Cache

/-! ## What a get counts -/

section Counts

variable (c : Cache)

theorem counters_reported {α : Type} (op : StoreOp) (key : Option Key) (a : Except StoreFault α)
    {k : Counter} (hk : k ≠ .storeErrors) :
    (c.reported op key a).counters k = c.counters k := by
  cases a with
  | ok x => rfl
  | error fault => exact Counters.bump_other _ hk

/-- A lookup counts nothing but calls of the store that fail. -/
theorem counters_lookup (key : Key) {k : Counter} (hk : k ≠ .storeErrors) :
    (c.lookup key).2.counters k = c.counters k := by
  have hglanced : (c.glanced key).counters k = c.counters k :=
    (c.fetch key).2.counters_reported _ _ _ hk
  rw [lookup_eq]
  cases hit (c.fetch key).1 with
  | none => exact hglanced
  | some e =>
    dsimp only
    split
    · rw [drop_eq]
      have hdrop := (((c.glanced key).record (.evicting key)).delete key).2.counters_reported
        .remove (some key) (((c.glanced key).record (.evicting key)).delete key).1 hk
      exact hdrop.trans hglanced
    · exact hglanced

theorem countFound_eq (f : Freshness) : c.countFound f = c.count f.counter := by
  cases f <;> rfl

/-- The lookup of a get is counted once, by what it has found. -/
theorem counters_looked (r : Request) {k : Counter} (hk : k.countsFinds = true) :
    (c.looked r).counters k =
      c.counters.bump (Freshness.of (c.yields r.key) c.now).counter k := by
  have hne : k ≠ .storeErrors := by
    rintro rfl
    cases hk
  have hlookup := c.counters_lookup r.key hne
  have hlooked : (c.looked r).counters =
      (c.lookup r.key).2.counters.bump (Freshness.of (c.yields r.key) c.now).counter := by
    show ((c.lookup r.key).2.countFound
      (Freshness.of (c.lookup r.key).1 (c.lookup r.key).2.now)).counters = _
    rw [countFound_eq, lookup_fst, (c.storeOnly_lookup r.key).now]
    rfl
  rw [hlooked]
  by_cases heq : k = (Freshness.of (c.yields r.key) c.now).counter
  · rw [← heq, Counters.bump_self, Counters.bump_self, hlookup]
  · rw [Counters.bump_other _ heq, Counters.bump_other _ heq, hlookup]

/-- An offer counts nothing that lookups find. -/
theorem counters_offer (r : Request) (stale : Option Entry) (byPoller : Bool) {k : Counter}
    (hk : k.countsFinds = true) :
    (c.offer r stale byPoller).2.counters k = c.counters k := by
  rcases c.offer_cases r stale byPoller with
    ⟨-, ho⟩ | ⟨-, -, ho⟩ | ⟨-, crew, -, ho⟩ | ⟨-, why, -, ho⟩
  all_goals
    rw [ho]
    refine Counters.bump_other _ ?_
    rintro rfl
    cases hk

theorem counters_registerIfAbsent (r : Request) :
    (c.registerIfAbsent r).2.counters = c.counters := by
  unfold registerIfAbsent enroll startPoller
  split
  · rfl
  · split
    · rfl
    · dsimp only
      split <;> rfl

/-- **A get counts once** what its lookup has found, whatever it does then. -/
theorem counters_get (r : Request) {k : Counter} (hk : k.countsFinds = true) :
    (c.get r).2.counters k =
      c.counters.bump (Freshness.of (c.yields r.key) c.now).counter k := by
  rw [← c.counters_looked r hk, get_snd]
  cases c.nextAction r with
  | serve => rfl
  | loadForCaller =>
    refine Counters.bump_other _ ?_
    rintro rfl
    cases hk
  | serveAndReload => exact (c.looked r).counters_offer r _ false hk
  | serveAndRegister => exact congrFun ((c.looked r).counters_registerIfAbsent r) k

end Counts

/-! ## What a get hands on -/

section Handing

variable {c : Cache} {r : Request}

/-- The load that begins with a get is of its request, and has what the store yields. -/
theorem mem_loads_get {l : Load} (hl : l ∈ (c.get r).2.loads) :
    l ∈ c.loads ∨ l.request = r ∧ l.stale = c.yields r.key := by
  have hs := (c.storeOnly_looked r).sameTasks
  cases ha : c.nextAction r with
  | serve =>
    rw [get_snd, ha, hs.loads] at hl
    exact .inl hl
  | loadForCaller =>
    have he := (c.looked r).sameTasks_enter_caller r (c.usable r)
    rw [get_snd, ha, loads, he.callers, he.held] at hl
    simp only [hs.callers, hs.held, List.mem_append, List.mem_singleton] at hl
    rcases hl with (hl | rfl) | hl
    · exact .inl (List.mem_append_left _ hl)
    · exact .inr ⟨rfl, c.usable_eq r⟩
    · exact .inl (List.mem_append_right _ hl)
  | serveAndReload =>
    obtain ⟨o, -, hcomes, -⟩ := (servesAndReloads ha).offered
    rcases hcomes.mem_loads hl with hl | rfl
    · exact .inl hl
    · exact .inr ⟨rfl, rfl⟩
  | serveAndRegister =>
    rw [(servesAndRegisters ha).sameTasks.loads] at hl
    exact .inl hl

/-- The task that a get puts in the queue is of its request, and has what the store yields. -/
theorem mem_waiting_get {task : Reload} (ht : task ∈ (c.get r).2.crew.waiting) :
    task ∈ c.crew.waiting ∨ task = ⟨r, c.yields r.key⟩ := by
  have hs := (c.storeOnly_looked r).sameTasks
  cases ha : c.nextAction r with
  | serve =>
    rw [get_snd, ha, hs.waiting] at ht
    exact .inl ht
  | loadForCaller =>
    have he := (c.looked r).sameTasks_enter_caller r (c.usable r)
    rw [get_snd, ha, he.waiting] at ht
    exact .inl (hs.waiting ▸ ht)
  | serveAndReload =>
    obtain ⟨o, -, hcomes, -⟩ := (servesAndReloads ha).offered
    exact hcomes.mem_waiting ht
  | serveAndRegister =>
    rw [(servesAndRegisters ha).sameTasks.waiting] at ht
    exact .inl ht

/-- A get in which the store yields nothing replies with nothing, or with what a load that was
handed nothing comes to. -/
def Reply.Empty : Reply → Prop
  | .answered v => v = none
  | .loading l => l.stale = none
  | .lent l v => l.stale = none ∧ v = none

theorem empty_of_yields (h : c.yields r.key = none) : (c.get r).1.Empty := by
  have hu : c.usable r = none := (c.usable_eq r).trans h
  rw [get_eq, hu]
  cases c.nextAction r with
  | serve => rfl
  | loadForCaller => rfl
  | serveAndRegister => rfl
  | serveAndReload =>
    rcases (c.looked r).offer_cases r none false with
      ⟨-, ho⟩ | ⟨-, -, ho⟩ | ⟨-, crew, -, ho⟩ | ⟨-, why, -, ho⟩
    all_goals rw [ho]
    · rfl
    · exact ⟨rfl, rfl⟩
    · rfl
    · rfl

/-- A load that was handed nothing returns no value but its loader's. -/
theorem value_of_missing {l : Load} (h : l.stale = none) {o : Outcome} {v : Value}
    (hv : (c.finish l o).1 = .returned (some v)) : ∃ cacheable, o = .value v cacheable := by
  cases o with
  | value w cacheable =>
    rw [finish_fst] at hv
    cases hv
    exact ⟨cacheable, rfl⟩
  | failure f =>
    rw [finish_failure_fst, fallback, h] at hv
    cases hf : (cell l).fallback <;> rw [hf] at hv <;> cases hv
  | panic text =>
    rw [finish_fst] at hv
    cases hv

end Handing

/-! ## Entries past their time -/

/-- The store keeps an entry under a key that is past its hard lifetime. -/
def Outlived (c : Cache) (k : Key) : Prop :=
  ∃ e, c.backing.kept? k = some e ∧ e.hardExpired c.now = true

/-- A get meets nothing that it may use: it is a miss for the mode table and the counters, it
replies with nothing that was stored, no load or task is handed anything, and the one value
that can come of it is what its own loader returns. -/
structure Misses (c : Cache) (r : Request) : Prop where
  action : c.nextAction r = r.mode.action .miss
  missed : (c.get r).2.counters .misses = c.counters .misses + 1
  noFreshHit : (c.get r).2.counters .freshHits = c.counters .freshHits
  noStaleHit : (c.get r).2.counters .staleHits = c.counters .staleHits
  reply : (c.get r).1.Empty
  loads : ∀ l ∈ (c.get r).2.loads, l ∈ c.loads ∨ l.stale = none
  tasks : ∀ task ∈ (c.get r).2.crew.waiting, task ∈ c.crew.waiting ∨ task.stale = none
  value : ∀ l, (c.get r).1 = .loading l → ∀ (c' : Cache) o v,
    (c'.finish l o).1 = .returned (some v) → ∃ cacheable, o = .value v cacheable

section Outlived

variable {c : Cache} {k : Key} {r : Request}

/-- The store yields nothing that is past its hard lifetime. -/
theorem Outlived.yields (h : c.Outlived k) : c.yields k = none := by
  obtain ⟨e, hkept, hhard⟩ := h
  rw [Option.eq_none_iff_forall_ne_some]
  intro e' he'
  obtain ⟨-, hfind, hlive⟩ := yields_eq_some_iff.1 he'
  have hsame : e' = e := Option.some.inj ((Store.kept?_of_find? hfind).symm.trans hkept)
  rw [hsame, hhard] at hlive
  cases hlive

/-- A get that the store yields nothing for is a miss. -/
theorem misses_of_yields (h : c.yields r.key = none) : c.Misses r := by
  have hcounter : (Freshness.of (c.yields r.key) c.now).counter = .misses := by
    rw [h]
    rfl
  have hreply := empty_of_yields h
  constructor
  · rw [nextAction_eq, h]
    rfl
  · rw [c.counters_get r rfl, hcounter, Counters.bump_self]
  · rw [c.counters_get r rfl, hcounter, Counters.bump_other _ (by decide)]
  · rw [c.counters_get r rfl, hcounter, Counters.bump_other _ (by decide)]
  · exact hreply
  · intro l hl
    exact (mem_loads_get hl).imp id fun hl => hl.2.trans h
  · intro task ht
    refine (mem_waiting_get ht).imp id fun ht => ?_
    rw [ht]
    exact h
  · intro l hl c' o v
    rw [hl] at hreply
    exact value_of_missing hreply

/-- **A lookup that meets an entry past its time has it removed,** by the store itself if its
own deadline has come, and by a call otherwise. -/
theorem kept?_lookup_of_outlived (h : c.Outlived k) (hget : c.backing.verdict .get = .pass)
    (hremove : c.backing.verdict .remove = .pass) :
    (c.lookup k).2.backing.kept? k = none := by
  obtain ⟨e, hkept, hhard⟩ := h
  have hread := c.backing_glanced k
  have hpass : (c.backing.get c.now k).2 =
      c.backing.called .get (c.backing.store.get c.now k).2 := by
    unfold Backing.get
    rw [hget]
  have hfound : hit (c.fetch k).1 = c.backing.store.find? c.now k := by
    rw [fetch_eq, hget]
    exact Store.get_fst ..
  rw [lookup_eq, hfound]
  cases hf : c.backing.store.find? c.now k with
  | none =>
    show (c.glanced k).backing.store.kept? k = none
    rw [hread, hpass]
    exact (Store.kept?_get_self ..).trans hf
  | some e' =>
    -- what the read has found is the entry itself, and the lookup goes on to remove it
    have he : e' = e := Option.some.inj ((Store.kept?_of_find? hf).symm.trans hkept)
    subst he
    dsimp only
    rw [if_pos hhard, backing_drop]
    have hv : (c.glanced k).backing.verdict .remove = .pass := by
      rw [hread, hpass]
      exact hremove
    show ((c.glanced k).backing.remove k).2.kept? k = none
    unfold Backing.remove
    rw [hv]
    show ((c.glanced k).backing.store.remove k).2.kept? k = none
    rw [Store.kept?_remove, if_pos rfl]

end Outlived

/-- **Nothing past its hard lifetime is served out of the store,** in any state of a cache,
whatever its store keeps, fails at or pays no heed to:

1. a peek returns nothing that is past its hard lifetime;
2. a get that meets an entry past its time is a miss in every respect;
3. if the read and the removal do not fail, the key is empty once a get or a peek has met such
   an entry, and before any load has ended;
4. no load begins, and no task is queued, with a stale entry past its time, whatever move makes
   it; but a task that has waited is handed what it was queued with. -/
theorem hard_expired_never_served (c : Cache) :
    (∀ k e, (c.peek k).1 = some e → e.hardExpired c.now = false) ∧
    (∀ r : Request, c.Outlived r.key → c.Misses r) ∧
    (∀ k, c.Outlived k → c.backing.verdict .get = .pass → c.backing.verdict .remove = .pass →
      (c.peek k).2.backing.kept? k = none ∧
      ∀ r : Request, r.key = k → (c.get r).2.backing.kept? k = none) ∧
    (∀ m, ∀ l ∈ (c.after m).loads, l ∈ c.loads ∨
      (∀ e, l.stale = some e → e.hardExpired c.now = false) ∨
      ∃ task ∈ c.crew.waiting, task.request = l.request ∧ task.stale = l.stale) ∧
    (∀ m, ∀ task ∈ (c.after m).crew.waiting, task ∈ c.crew.waiting ∨
      ∀ e, task.stale = some e → e.hardExpired c.now = false) := by
  refine ⟨?_, ?_, ?_, ?_, ?_⟩
  · intro k e he
    exact (finds_eq_some_iff.1 (finds_of_lookup he)).2
  · intro r h
    exact misses_of_yields h.yields
  · intro k h hget hremove
    have hlookup := kept?_lookup_of_outlived h hget hremove
    refine ⟨hlookup, ?_⟩
    rintro r rfl
    rw [(c.sameStore_get r).backing]
    exact hlookup
  · intro m l hl
    rcases mem_loads_after hl with hl | ⟨-, -, hhanded⟩
    · exact .inl hl
    · cases hhanded with
      | looked _ found =>
        exact .inr (.inl fun e he => (finds_eq_some_iff.1 (found e he)).2)
      | waited _ task ht hr he => exact .inr (.inr ⟨task, ht, hr, he⟩)
  · intro m task ht
    exact (mem_waiting_after ht).imp id fun found e he => (finds_eq_some_iff.1 (found e he)).2

/-- The old entry is there, past its hard lifetime: the store pays no heed to deadlines. -/
def outlivedStored : List Move := [.setEntry "profile" old, .tick (11 * Clock.second)]

/-- A get of the old entry is a miss and leaves nothing there. -/
theorem hard_expired_never_served_outlivedStored :
    ((overMap .threads).run outlivedStored).Misses profile ∧
      (((overMap .threads).run outlivedStored).get profile).2.backing.kept? "profile" = none := by
  have h : ((overMap .threads).run outlivedStored).Outlived "profile" := ⟨old, rfl, by decide⟩
  obtain ⟨-, hmiss, hgone, -⟩ :=
    hard_expired_never_served ((overMap .threads).run outlivedStored)
  exact ⟨hmiss profile h, (hgone "profile" h rfl rfl).2 profile rfl⟩

end Cache

end Evergreen
