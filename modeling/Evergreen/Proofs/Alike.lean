import Evergreen.Proofs.Frames
import Evergreen.Proofs.StoreCalls

/-!
# Caches alike but for failures of their stores

A call of the store that fails could as well have been passed over: a read finds nothing, a
write is declined, a removal finds nothing to remove, a clear clears nothing. `Alike` relates
two caches that differ in nothing else: in what their next calls of the store meet, as far as a
failure may stand for a call that is passed over; in the count of failures; and in the journal,
by the failures that it tells of.

- `alike_iff_core`: caches are alike if they have the same core;
- `core_storeFailed`: a report of a failure leaves no trace in the core;
- `Alike.fetch`, `Alike.put`, `Alike.delete`, `Alike.wipe`: a call has the same effect in alike
  caches, and leaves them alike; and so every operation that is made of calls.
-/

namespace Evergreen

/-! ## What failures stand for -/

@[simp] theorem Verdict.absorbed_absorbed (v : Verdict) : v.absorbed.absorbed = v.absorbed := by
  cases v <;> rfl

@[simp] theorem Forecast.absorbed_absorbed (f : Forecast) : f.absorbed.absorbed = f.absorbed :=
  funext fun _ => funext fun _ => Verdict.absorbed_absorbed _

/-- Nothing fails where every failure is passed over instead. -/
theorem Forecast.absorbed_ne_fail (f : Forecast) (op : StoreOp) (n : Nat) (fault : StoreFault) :
    f.absorbed op n ≠ .fail fault := by
  unfold absorbed
  cases f op n <;> nofun

/-- The answer of a call that is passed over in place of one that failed. What hint a declined
write came with is left open. -/
def StoreAnswer.absorbed (op : StoreOp) : StoreAnswer → StoreAnswer
  | failed =>
    match op with
    | .get => found false
    | .set => accepted false none
    | .remove => removed false
    | .clear => cleared
  | accepted false _ => accepted false none
  | a => a

/-- An event with every failing call passed over instead; a failure that is not there is not
reported. -/
def Event.absorbed? : Event → Option Event
  | storeCalled op key answer => some (storeCalled op key (answer.absorbed op))
  | storeFailed .. => none
  | e => some e

namespace Cache

/-! ## Caches that differ by failures of their stores -/

/-- Two caches that differ by failures of their stores alone. -/
structure Alike (c c' : Cache) : Prop where
  now : c'.now = c.now
  createdAt : c'.createdAt = c.createdAt
  store : c'.backing.store = c.backing.store
  storeCalls : c'.backing.calls = c.backing.calls
  forecast : c'.backing.forecast.absorbed = c.backing.forecast.absorbed
  executor : c'.executor = c.executor
  crew : c'.crew = c.crew
  inFlight : c'.inFlight = c.inFlight
  callers : c'.callers = c.callers
  poller : c'.poller = c.poller
  marks : c'.marks = c.marks
  calls : c'.calls = c.calls
  counters : ∀ k, k ≠ .storeErrors → c'.counters k = c.counters k
  nextLoad : c'.nextLoad = c.nextLoad
  journal : c'.journal.filterMap Event.absorbed? = c.journal.filterMap Event.absorbed?

/-- The cache without a trace of failures of its store. -/
def core (c : Cache) : Cache :=
  { c with
    backing := { c.backing with forecast := c.backing.forecast.absorbed }
    counters := fun k => if k = .storeErrors then 0 else c.counters k
    journal := c.journal.filterMap Event.absorbed? }

/-- Caches are alike if they have the same core. -/
theorem alike_iff_core {c c' : Cache} : Alike c c' ↔ c'.core = c.core := by
  constructor
  · intro h
    -- forecast, counters and journal are equal up to failures, and all else as it is
    obtain ⟨_, _, ⟨_, _, _⟩, _, _, _, _, _, _, _, counters, _, _⟩ := c
    obtain ⟨_, _, ⟨_, _, _⟩, _, _, _, _, _, _, _, counters', _, _⟩ := c'
    obtain ⟨rfl, rfl, rfl, rfl, hf, rfl, rfl, rfl, rfl, rfl, rfl, rfl, hc, rfl, hj⟩ := h
    have hk : (fun k => if k = .storeErrors then 0 else counters' k) =
        fun k => if k = .storeErrors then 0 else counters k := by
      funext k
      by_cases hk : k = .storeErrors
      · simp [hk]
      · simp only [if_neg hk]
        exact hc k hk
    simp only [core, hk]
    dsimp only at hf hj
    rw [hf, hj]
  · intro h
    have e {α : Type} (f : Cache → α) : f c'.core = f c.core := congrArg f h
    refine ⟨e now, e createdAt, e (·.backing.store), e (·.backing.calls),
      e (·.backing.forecast), e executor, e crew, e inFlight, e callers, e poller, e marks,
      e calls, ?_, e nextLoad, e journal⟩
    intro k hk
    have hc := congrFun (e counters) k
    simpa [core, hk] using hc

section Congruence

variable {x y : Cache}

/-- What leaves the failures aside makes alike caches of alike ones. -/
theorem Alike.map (h : Alike x y) (f : Cache → Cache) (hf : ∀ c, (f c).core = f c.core) :
    Alike (f x) (f y) := by
  rw [alike_iff_core] at h ⊢
  rw [hf, hf, h]

/-- The same result, with caches that are alike. -/
structure Same {α : Type} (p q : α × Cache) : Prop where
  fst : q.1 = p.1
  snd : Alike p.2 q.2

theorem Same.pairs {α : Type} {p q : α × Cache} (h : Same p q) :
    ∃ a c c', p = (a, c) ∧ q = (a, c') ∧ Alike c c' := by
  obtain ⟨a, c⟩ := p
  obtain ⟨a', c'⟩ := q
  obtain ⟨rfl, h⟩ := h
  exact ⟨a', c, c', rfl, rfl, h⟩

/-- What leaves the failures aside comes to the same in alike caches. -/
theorem Alike.mapPair {α : Type} (h : Alike x y) (f : Cache → α × Cache)
    (hf : ∀ c, (f c).2.core = (f c.core).2 ∧ (f c.core).1 = (f c).1) : Same (f x) (f y) := by
  refine ⟨?_, h.map (fun c => (f c).2) fun c => (hf c).1⟩
  rw [← (hf y).2, alike_iff_core.1 h, (hf x).2]

end Congruence

/-! ## Operations that do not call the store -/

section Core

variable (c : Cache)

@[simp] theorem core_now : c.core.now = c.now := rfl

@[simp] theorem core_store : c.core.backing.store = c.backing.store := rfl

@[simp] theorem core_executor : c.core.executor = c.executor := rfl

@[simp] theorem core_crew : c.core.crew = c.crew := rfl

@[simp] theorem core_poller : c.core.poller = c.poller := rfl

theorem core_count {k : Counter} (hk : k ≠ .storeErrors) :
    (c.count k).core = c.core.count k := by
  have h : (fun k' => if k' = .storeErrors then 0 else c.counters.bump k k') =
      Counters.bump (fun k' => if k' = .storeErrors then 0 else c.counters k') k := by
    funext k'
    by_cases he : k' = k
    · subst he
      simp [hk]
    · simp only [Counters.bump_other _ he]
  simp only [core, count, h]

/-- Reports of failures leave no trace in the core. -/
theorem core_storeFailed (op : StoreOp) (key : Option Key) (fault : StoreFault) :
    (c.storeFailed op key fault).core = c.core := by
  have h : (fun k' => if k' = .storeErrors then 0 else c.counters.bump .storeErrors k') =
      fun k' => if k' = .storeErrors then 0 else c.counters k' := by
    funext k'
    by_cases he : k' = .storeErrors
    · simp [he]
    · simp only [if_neg he, Counters.bump_other _ he]
  simp only [storeFailed, core, count, record, h]
  rfl

theorem core_enter (r : Request) (stale : Option Entry) (seat : Seat) :
    (c.enter r stale seat).2.core = (c.core.enter r stale seat).2 := by
  cases seat <;> simp only [enter, Seat.invocation] <;>
    rw [← core_count _ (by decide)] <;> rfl

theorem core_startPoller : c.startPoller.core = c.core.startPoller := by
  simp only [startPoller, core_poller]
  cases c.poller.phase <;> rfl

theorem core_enroll (r : Request) : (c.enroll r).core = c.core.enroll r :=
  core_startPoller _

theorem core_registerIfAbsent (r : Request) :
    (c.registerIfAbsent r).2.core = (c.core.registerIfAbsent r).2 := by
  unfold registerIfAbsent
  by_cases hc : c.poller.closed = true
  · rw [if_pos hc, if_pos (show c.core.poller.closed = true from hc)]
    rfl
  · rw [if_neg hc, if_neg (show ¬ c.core.poller.closed = true from hc)]
    by_cases hr : c.poller.registry.requests.contains r.key = true
    · rw [if_pos hr, if_pos (show c.core.poller.registry.requests.contains r.key = true from hr)]
    · rw [if_neg hr,
        if_neg (show ¬ c.core.poller.registry.requests.contains r.key = true from hr)]
      exact c.core_enroll r

theorem core_register (r : Request) :
    (c.register r).2.core = (c.core.register r).2 ∧ (c.core.register r).1 = (c.register r).1 := by
  unfold register
  by_cases hc : c.poller.closed = true
  · rw [if_pos hc, if_pos (show c.core.poller.closed = true from hc)]
    exact ⟨rfl, rfl⟩
  · rw [if_neg hc, if_neg (show ¬ c.core.poller.closed = true from hc), core_poller]
    cases c.poller.registry.requests.find? r.key with
    | none => exact ⟨c.core_enroll r, rfl⟩
    | some old =>
      dsimp only
      by_cases hk : c.poller.registry.keeps old r = true
      · simp only [if_pos hk]
        exact ⟨rfl, trivial⟩
      · simp only [if_neg hk]
        refine ⟨?_, trivial⟩
        exact core_enroll (c.resetMark r.family) r

theorem core_resetRegistered (k : Key) :
    (c.resetRegistered k).core = c.core.resetRegistered k := by
  simp only [resetRegistered, core_poller]
  cases c.poller.registry.request? k <;> rfl

theorem core_resetAll : c.resetAll.core = c.core.resetAll := by
  simp only [resetAll, core_poller]
  generalize c.poller.registry.requests.values = regs
  induction regs generalizing c with
  | nil => rfl
  | cons reg regs ih => exact ih (c.resetMark reg.request.family)

theorem core_beginScan : (c.beginScan?.getD c).core = c.core.beginScan?.getD c.core := by
  unfold beginScan?
  rw [core_poller]
  cases c.poller.phase with
  | waiting deadline =>
    dsimp only
    by_cases hd : deadline ≤ c.now
    · rw [if_pos hd, if_pos (show deadline ≤ c.core.now from hd)]
      rfl
    · rw [if_neg hd, if_neg (show ¬ deadline ≤ c.core.now from hd)]
      rfl
  | _ => rfl

theorem core_endScan : c.endScan.core = c.core.endScan := by
  have hc := c.core_count (k := .schedulerTicks) (by decide)
  simp only [endScan, core_poller]
  cases c.poller.phase with
  | scanning due =>
    cases due with
    | nil =>
      simp only [← hc]
      cases hp : c.poller.closed <;> simp only [count, core_poller, hp] <;> rfl
    | cons r due => rfl
  | _ => rfl

theorem core_close : c.close.core = c.core.close := by
  unfold close
  by_cases hc : c.poller.closed = true
  · rw [if_pos hc, if_pos (show c.core.poller.closed = true from hc)]
  · rw [if_neg hc, if_neg (show ¬ c.core.poller.closed = true from hc), core_poller]
    dsimp only
    cases c.poller.phase <;> rfl

theorem core_dispose : c.dispose.core = c.core.dispose := by
  simp only [dispose, core_poller]
  cases c.poller.phase with
  | waiting _ => exact c.core_close
  | _ => rfl

theorem core_purged : c.purged.core = c.core.purged := by
  simp only [purged, core_store, core_now]
  cases c.backing.store.purge? c.now <;> rfl

/-- What comes of an offer, and what the cache becomes with it. -/
theorem core_offer (r : Request) (stale : Option Entry) (byPoller : Bool) :
    (c.offer r stale byPoller).2.core = (c.core.offer r stale byPoller).2 ∧
      (c.core.offer r stale byPoller).1 = (c.offer r stale byPoller).1 := by
  unfold offer
  by_cases hk : c.inFlight.contains r.key = true
  · rw [if_pos hk, if_pos (show c.core.inFlight.contains r.key = true from hk)]
    exact ⟨core_count _ (by decide), rfl⟩
  · rw [if_neg hk, if_neg (show ¬ c.core.inFlight.contains r.key = true from hk)]
    simp only [markInFlight, core_executor, core_crew]
    cases c.executor with
    | inPlace => exact ⟨core_enter _ r stale (.lent byPoller), rfl⟩
    | _ =>
      cases c.crew.offer ⟨r, stale⟩ with
      | ok crew => exact ⟨core_count _ (by decide), rfl⟩
      | error why => exact ⟨core_count _ (by decide), rfl⟩

end Core

/-! ## Operations that call the store -/

section Calls

variable {x y : Cache}

/-- A call passes in both of two caches that are alike, or in neither. -/
theorem Alike.verdict (h : Alike x y) (op : StoreOp) :
    (y.backing.verdict op).absorbed = (x.backing.verdict op).absorbed := by
  have hf := congrFun (congrFun h.forecast op) (x.backing.calls op)
  simp only [Backing.verdict, h.storeCalls]
  exact hf

theorem Alike.called (h : Alike x y) (op : StoreOp) (key : Option Key) (store : Store)
    {a b : StoreAnswer} (hab : b.absorbed op = a.absorbed op) :
    Alike (x.called op key store a) (y.called op key store b) where
  now := h.now
  createdAt := h.createdAt
  store := rfl
  storeCalls := by
    simp only [Cache.called, record, Backing.called, h.storeCalls]
  forecast := h.forecast
  executor := h.executor
  crew := h.crew
  inFlight := h.inFlight
  callers := h.callers
  poller := h.poller
  marks := h.marks
  calls := h.calls
  counters := h.counters
  nextLoad := h.nextLoad
  journal := by
    simp only [Cache.called, record, List.filterMap_cons, Event.absorbed?, hab, h.journal]

/-- Reports of failures tell no caches apart. -/
theorem Alike.reported {α : Type} (h : Alike x y) (op : StoreOp) (key : Option Key)
    (a b : Except StoreFault α) : Alike (x.reported op key a) (y.reported op key b) := by
  have hr (c : Cache) (a : Except StoreFault α) : (c.reported op key a).core = c.core := by
    cases a with
    | ok _ => rfl
    | error fault => exact c.core_storeFailed op key fault
  rw [alike_iff_core] at h ⊢
  rw [hr, hr, h]

/-- A read finds the same in caches that are alike. -/
theorem Alike.fetch (h : Alike x y) (k : Key) :
    hit (y.fetch k).1 = hit (x.fetch k).1 ∧ Alike (x.fetch k).2 (y.fetch k).2 := by
  have hv := h.verdict .get
  simp only [fetch_eq, h.now, h.store]
  cases hx : x.backing.verdict .get <;> cases hy : y.backing.verdict .get <;>
    simp only [hx, hy, Verdict.absorbed, reduceCtorEq] at hv <;> exact ⟨rfl, h.called _ _ _ rfl⟩

theorem Alike.put (h : Alike x y) (k : Key) (e : Entry) :
    took (y.put k e).1 = took (x.put k e).1 ∧ Alike (x.put k e).2 (y.put k e).2 := by
  have hv := h.verdict .set
  simp only [put_eq, h.now, h.store]
  cases hx : x.backing.verdict .set <;> cases hy : y.backing.verdict .set <;>
    simp only [hx, hy, Verdict.absorbed, reduceCtorEq] at hv <;> exact ⟨rfl, h.called _ _ _ rfl⟩

theorem Alike.delete (h : Alike x y) (k : Key) :
    took (y.delete k).1 = took (x.delete k).1 ∧ Alike (x.delete k).2 (y.delete k).2 := by
  have hv := h.verdict .remove
  simp only [delete_eq, h.store]
  cases hx : x.backing.verdict .remove <;> cases hy : y.backing.verdict .remove <;>
    simp only [hx, hy, Verdict.absorbed, reduceCtorEq] at hv <;> exact ⟨rfl, h.called _ _ _ rfl⟩

theorem Alike.wipe (h : Alike x y) : Alike x.wipe.2 y.wipe.2 := by
  have hv := h.verdict .clear
  simp only [wipe_eq, h.store]
  cases hx : x.backing.verdict .clear <;> cases hy : y.backing.verdict .clear <;>
    simp only [hx, hy, Verdict.absorbed, reduceCtorEq] at hv <;> exact h.called _ _ _ rfl

theorem Alike.drop (h : Alike x y) (k : Key) : Same (x.drop k) (y.drop k) := by
  obtain ⟨ht, hd⟩ := h.delete k
  rw [drop_eq, drop_eq]
  exact ⟨ht, hd.reported ..⟩

theorem Alike.dropAll (h : Alike x y) : Alike x.dropAll y.dropAll := by
  rw [dropAll_eq, dropAll_eq]
  exact h.wipe.reported ..

theorem Alike.record (h : Alike x y) {e : Event} (he : e.absorbed? = some e) :
    Alike (x.record e) (y.record e) :=
  h.map (·.record e) fun c => by simp only [core, Cache.record, List.filterMap_cons, he]

theorem Alike.count (h : Alike x y) {k : Counter} (hk : k ≠ .storeErrors) :
    Alike (x.count k) (y.count k) :=
  h.map (·.count k) fun c => c.core_count hk

theorem Alike.lookup (h : Alike x y) (k : Key) : Same (x.lookup k) (y.lookup k) := by
  obtain ⟨hh, hf⟩ := h.fetch k
  have hg : Alike (x.glanced k) (y.glanced k) := hf.reported ..
  rw [lookup_eq, lookup_eq, hh, h.now]
  cases hit (x.fetch k).1 with
  | none => exact ⟨rfl, hg⟩
  | some e =>
    dsimp only
    split
    · exact ⟨rfl, ((hg.record rfl).drop k).snd⟩
    · exact ⟨rfl, hg⟩

theorem Alike.write (h : Alike x y) (k : Key) (e : Entry) :
    Same (x.write k e) (y.write k e) := by
  obtain ⟨ht, hp⟩ := h.put k e
  have hr := hp.reported .set (some k) (x.put k e).1 (y.put k e).1
  rw [write_eq, write_eq]
  refine ⟨ht, ?_⟩
  simp only [ht]
  split
  · exact hr.count (by decide)
  · exact hr

theorem Alike.writeLoaded (h : Alike x y) (k : Key) (e : Entry) (started : Nat) :
    Same (x.writeLoaded k e started) (y.writeLoaded k e started) := by
  obtain ⟨hh, hf⟩ := h.fetch k
  rw [writeLoaded_eq, writeLoaded_eq, hh]
  cases holdsOff started (hit (x.fetch k).1) with
  | true => exact ⟨rfl, (hf.count (by decide)).record rfl⟩
  | false => exact hf.write k e

/-! ## The end of a load -/

theorem Alike.markRefreshed (h : Alike x y) (family : Nat) :
    Alike (x.markRefreshed family) (y.markRefreshed family) :=
  h.map (·.markRefreshed family) fun _ => rfl

theorem Alike.succeed (h : Alike x y) (l : Load) (v : Value) (cacheable : Bool) :
    Alike (x.succeed l v cacheable) (y.succeed l v cacheable) := by
  unfold Cache.succeed
  cases cacheable with
  | false => exact h.markRefreshed _
  | true =>
    simp only [if_true, h.now]
    exact (h.writeLoaded ..).snd.markRefreshed _

theorem Alike.writeBack (h : Alike x y) (l : Load) (e : Entry) (how : WriteBack) :
    Alike (x.writeBack l e how) (y.writeBack l e how) := by
  unfold Cache.writeBack
  rw [h.now]
  cases how with
  | dontCache => exact h
  | cacheExpired => exact (h.writeLoaded ..).snd
  | cacheFresh => exact (h.writeLoaded ..).snd.markRefreshed _

theorem Alike.failed (h : Alike x y) (l : Load) (f : Failure) :
    Alike (x.failed l f) (y.failed l f) := by
  have hc := h.count (k := .loadFailures) (by decide)
  unfold Cache.failed
  cases (cell l).log.text? f with
  | none => exact hc
  | some text => exact hc.record rfl

theorem Alike.recover (h : Alike x y) (l : Load) (f : Failure) :
    Same (x.recover l f) (y.recover l f) := by
  have hf := h.failed l f
  rw [recover_eq, recover_eq]
  refine ⟨rfl, ?_⟩
  cases l.stale with
  | none => exact hf
  | some e => exact hf.writeBack l e _

theorem Alike.settle (h : Alike x y) (l : Load) (o : Outcome) :
    Same (x.settle l o) (y.settle l o) := by
  cases o with
  | value v cacheable => exact ⟨rfl, h.succeed l v cacheable⟩
  | failure f =>
    obtain ⟨result, x', y', hx, hy, h'⟩ := (h.recover l f).pairs
    simp only [Cache.settle, hx, hy]
    cases result <;> exact ⟨rfl, h'⟩
  | panic text => exact ⟨rfl, h⟩

theorem Alike.clearInFlight (h : Alike x y) (k : Key) :
    Alike (x.clearInFlight k) (y.clearInFlight k) :=
  h.map (·.clearInFlight k) fun _ => rfl

theorem Alike.finish (h : Alike x y) (l : Load) (o : Outcome) :
    Same (x.finish l o) (y.finish l o) := by
  have hl : Alike (x.leave l) (y.leave l) := h.map (·.leave l) fun _ => rfl
  obtain ⟨ending, x', y', hx, hy, h'⟩ := (hl.settle l o).pairs
  have hc := h'.clearInFlight l.key
  unfold Cache.finish
  rw [hx, hy]
  cases l.seat with
  | caller => exact ⟨rfl, h'⟩
  | worker =>
    cases ending with
    | returned v => exact ⟨rfl, hc⟩
    | failed fault => exact ⟨rfl, (h'.record rfl).clearInFlight l.key⟩
    | panicked text =>
      dsimp only
      generalize x'.clearInFlight l.key = u at hc ⊢
      generalize y'.clearInFlight l.key = v at hc ⊢
      rw [hc.executor]
      cases u.executor with
      | pool workers room => exact ⟨rfl, hc.record rfl⟩
      | _ => exact ⟨rfl, hc⟩
  | lent byPoller =>
    cases ending with
    | returned v =>
      have hs := hc.count (k := .reloadsStarted) (by decide)
      cases byPoller with
      | false => exact ⟨rfl, hs⟩
      | true => exact ⟨rfl, hs.record rfl⟩
    | failed fault =>
      have hs := ((h'.record (e := .failureDropped fault l.key) rfl).clearInFlight l.key).count
        (k := .reloadsStarted) (by decide)
      cases byPoller with
      | false => exact ⟨rfl, hs⟩
      | true => exact ⟨rfl, hs.record rfl⟩
    | panicked text =>
      cases byPoller with
      | false => exact ⟨rfl, hc⟩
      | true => exact ⟨rfl, hc.map crash fun _ => rfl⟩

/-! ## Gets and visits -/

theorem Alike.looked (h : Alike x y) (r : Request) :
    y.nextAction r = x.nextAction r ∧ y.usable r = x.usable r ∧
      Alike (x.looked r) (y.looked r) := by
  obtain ⟨found, x', y', hx, hy, h'⟩ := (h.lookup r.key).pairs
  simp only [nextAction, usable, Cache.looked, hx, hy, h'.now, true_and]
  refine h'.count ?_
  cases Freshness.of found x'.now <;> decide

theorem Alike.offer (h : Alike x y) (r : Request) (stale : Option Entry) (byPoller : Bool) :
    Same (x.offer r stale byPoller) (y.offer r stale byPoller) :=
  h.mapPair (·.offer r stale byPoller) fun c => c.core_offer r stale byPoller

theorem Alike.enter (h : Alike x y) (r : Request) (stale : Option Entry) (seat : Seat) :
    Same (x.enter r stale seat) (y.enter r stale seat) :=
  h.mapPair (·.enter r stale seat) fun c => ⟨c.core_enter r stale seat, rfl⟩

theorem Alike.get (h : Alike x y) (r : Request) : Same (x.get r) (y.get r) := by
  obtain ⟨ha, hu, hl⟩ := h.looked r
  rw [get_eq, get_eq, ha, hu]
  cases x.nextAction r with
  | serve => exact ⟨rfl, hl⟩
  | loadForCaller =>
    obtain ⟨l, x', y', hx, hy, h'⟩ := (hl.enter r (x.usable r) .caller).pairs
    simp only [hx, hy]
    exact ⟨rfl, h'⟩
  | serveAndReload =>
    obtain ⟨o, x', y', hx, hy, h'⟩ := (hl.offer r (x.usable r) false).pairs
    simp only [hx, hy]
    cases o <;> exact ⟨rfl, h'⟩
  | serveAndRegister =>
    exact ⟨rfl, hl.map (fun c => (c.registerIfAbsent r).2) fun c => c.core_registerIfAbsent r⟩

/-- A scan comes to a request. -/
theorem Alike.visited (h : Alike x y) (due : List Request) (r : Request) :
    y.visitFinds due r = x.visitFinds due r ∧ Alike (x.visited due r) (y.visited due r) := by
  have hp : Alike { x with poller := { x.poller with phase := .scanning (due.erase r) } }
      { y with poller := { y.poller with phase := .scanning (due.erase r) } } :=
    h.map (fun c => { c with poller := { c.poller with phase := .scanning (due.erase r) } })
      fun _ => rfl
  exact ⟨(hp.lookup r.key).fst, (hp.lookup r.key).snd⟩

theorem Alike.visit (h : Alike x y) (r : Request) : Same (x.visit r) (y.visit r) := by
  cases hp : x.poller.phase with
  | scanning due =>
    have hp' : y.poller.phase = .scanning due := by rw [h.poller, hp]
    obtain ⟨hf, hv⟩ := h.visited due r
    obtain ⟨o, x', y', hx, hy, h'⟩ := (hv.offer r (x.visitFinds due r) true).pairs
    rw [visit_eq hp, visit_eq hp', hf, hx, hy]
    cases o with
    | done o => exact ⟨rfl, h'.record rfl⟩
    | running l => exact ⟨rfl, h'⟩
  | _ =>
    simp only [Cache.visit, h.poller, hp]
    exact ⟨rfl, h⟩

/-! ## The other operations -/

theorem Alike.set (h : Alike x y) (k : Key) (v : Value) (ttl : Nat) :
    Same (x.set k v ttl) (y.set k v ttl) := by
  unfold Cache.set
  rw [h.now]
  cases checkKey k with
  | error fault => exact ⟨rfl, h⟩
  | ok u =>
    cases Entry.create x.now v ttl ttl with
    | error fault => exact ⟨rfl, h⟩
    | ok e => exact ⟨congrArg Except.ok (h.write k e).fst, (h.write k e).snd⟩

theorem Alike.setEntry (h : Alike x y) (k : Key) (e : Entry) :
    Same (x.setEntry k e) (y.setEntry k e) := by
  unfold Cache.setEntry
  cases checkKey k with
  | error fault => exact ⟨rfl, h⟩
  | ok u => exact ⟨congrArg Except.ok (h.write k e).fst, (h.write k e).snd⟩

theorem Alike.start? (h : Alike x y) (place : Nat) :
    (y.start? place).map (·.1) = (x.start? place).map (·.1) ∧
      Alike ((x.start? place).elim x (·.2)) ((y.start? place).elim y (·.2)) := by
  unfold Cache.start?
  rw [h.crew]
  cases x.crew.take? place with
  | none => exact ⟨rfl, h⟩
  | some p =>
    obtain ⟨task, crew⟩ := p
    have hc := (h.map (fun c => { c with crew }) fun _ => rfl).enter task.request task.stale .worker
    exact ⟨congrArg some hc.fst, hc.snd⟩

theorem Alike.discard? (h : Alike x y) (place : Nat) :
    (y.discard? place).map (·.1) = (x.discard? place).map (·.1) ∧
      Alike ((x.discard? place).elim x (·.2)) ((y.discard? place).elim y (·.2)) := by
  unfold Cache.discard?
  rw [h.crew]
  cases x.crew.remove? place with
  | none => exact ⟨rfl, h⟩
  | some p =>
    obtain ⟨task, crew⟩ := p
    exact ⟨rfl, h.map (fun c => { c with crew }.clearInFlight task.key) fun _ => rfl⟩

theorem Alike.load? (h : Alike x y) (id : Nat) : y.load? id = x.load? id := by
  simp only [Cache.load?, loads, h.callers, h.crew]

theorem Alike.canVisit (h : Alike x y) (r : Request) : y.canVisit r = x.canVisit r := by
  simp only [Cache.canVisit, scanLeft, pollerBusy, h.poller, h.crew]

end Calls

end Cache

end Evergreen
