import Evergreen.Proofs.FailedLoads
import Evergreen.Proofs.Singleflight
import Evergreen.Proofs.StoreCalls

/-!
# What a get comes to

A get looks its key up, and the mode of its request says the rest. Here the whole of it is put
together, from the read of the store to what the caller has in the end, and to what is left
behind in the cache.

- `lookup_fst`: a lookup finds what the store yields (`yields`): nothing if it cannot be read,
  and nothing past its hard lifetime;
- `nextAction_eq`, `usable_eq`: so the mode table is applied to what the store yields;
- `ServesFresh`, `LoadsForCaller`, `ServesAndReloads`, `ServesAndRegisters`: the four things
  that a get may do;
- `get_follows_mode_table`: which of them it does.
-/

namespace Evergreen

namespace Store

/-- A read that finds something changes nothing. -/
theorem get_snd_of_find? {s : Store} {now : Nat} {k : Key} {e : Entry}
    (h : s.find? now k = some e) : (s.get now k).2 = s := by
  cases s with
  | plain t => rfl
  | memory s =>
    simp only [find?, Option.map_eq_some_iff, Option.filter_eq_some_iff] at h
    obtain ⟨slot, ⟨hs, he⟩, -⟩ := h
    simp only [get, ShardedStore.get, hs]
    rw [if_neg (by simpa using he)]

end Store

namespace Cache

/-! ## What the store yields -/

/-- What the store yields for a key: nothing if it cannot be read, and nothing that is past its
hard lifetime. -/
def yields (c : Cache) (k : Key) : Option Entry :=
  match c.backing.verdict .get with
  | .pass => c.finds k
  | _ => none

/-- Nothing that the store yields for a key is fresh: it is stale, or there is nothing. -/
def Outdated (c : Cache) (k : Key) : Prop :=
  ∀ e, c.yields k = some e → e.softExpired c.now = true

section Yields

variable {c : Cache} {k : Key} {e : Entry}

/-- What a lookup yields was read without failure and is not past its hard lifetime. -/
theorem yields_eq_some_iff : c.yields k = some e ↔
    c.backing.verdict .get = .pass ∧ c.backing.store.find? c.now k = some e ∧
      e.hardExpired c.now = false := by
  unfold yields
  cases c.backing.verdict .get with
  | pass => simp [finds_eq_some_iff]
  | fail fault => simp
  | ignore => simp

/-- A lookup finds what the store yields. -/
theorem lookup_fst (c : Cache) (k : Key) : (c.lookup k).1 = c.yields k := by
  rw [lookup_eq, fetch_eq]
  unfold yields finds
  cases c.backing.verdict .get with
  | fail fault => rfl
  | ignore => rfl
  | pass =>
    simp only [hit, Store.get_fst]
    cases c.backing.store.find? c.now k with
    | none => rfl
    | some e =>
      dsimp only
      cases he : e.hardExpired c.now with
      | true => simp [Option.filter, he]
      | false => simp [Option.filter, he]

theorem freshness_of_yields (h : c.yields k = some e) :
    Freshness.of (some e) c.now = if e.softExpired c.now then .stale else .fresh := by
  simp [Freshness.of, (yields_eq_some_iff.1 h).2.2]

/-- What a get has to serve is what the store yields. -/
theorem usable_eq (c : Cache) (r : Request) : c.usable r = c.yields r.key := by
  have hn := (c.storeOnly_lookup r.key).now
  unfold usable
  dsimp only
  rw [lookup_fst, hn]
  cases h : c.yields r.key with
  | none => rfl
  | some e =>
    rw [freshness_of_yields h]
    cases e.softExpired c.now <;> rfl

/-- The mode table is applied to what the store yields. -/
theorem nextAction_eq (c : Cache) (r : Request) :
    c.nextAction r = r.mode.action (Freshness.of (c.yields r.key) c.now) := by
  have hn := (c.storeOnly_lookup r.key).now
  unfold nextAction
  dsimp only
  rw [lookup_fst, hn]

/-- What is outdated is a miss if it is nothing, and stale otherwise. -/
theorem freshness_of_outdated (h : c.Outdated k) :
    Freshness.of (c.yields k) c.now = if (c.yields k).isSome then .stale else .miss := by
  cases he : c.yields k with
  | none => rfl
  | some e => rw [freshness_of_yields he, h e he]; rfl

/-- A lookup that finds an entry is a read, and changes nothing. -/
theorem lookup_of_yields (h : c.yields k = some e) :
    c.lookup k = (some e, c.called .get (some k) c.backing.store (.found true)) := by
  obtain ⟨hv, hf, he⟩ := yields_eq_some_iff.1 h
  have hs := Store.get_snd_of_find? hf
  rw [lookup_eq]
  unfold glanced
  rw [fetch_eq, hv]
  simp only [hit, reported, Store.get_fst, hf, he, hs]
  rfl

end Yields

/-! ## What a get comes to -/

/-- What a get comes to, once the load that it is waiting for, if any, has come to its end. A
panic of a reload that runs on the caller's thread goes on through the get. -/
def Reply.comesTo : Reply → Ending → Ending
  | .answered v, _ => .returned v
  | .loading _, ending => ending
  | .lent _ _, .panicked text => .panicked text
  | .lent _ v, _ => .returned v

/-! ## How often loaders are called -/

/-- One more call of the loader of a family. -/
def oneCallMore (c : Cache) (family : Nat) : Nat → Nat :=
  fun f => if f = family then c.calls family + 1 else c.calls f

section Loaders

variable (c : Cache)

theorem calls_enter (r : Request) (stale : Option Entry) (seat : Seat) :
    (c.enter r stale seat).2.calls = c.oneCallMore r.family := by
  cases seat <;> rfl

/-- An offer calls a loader exactly if the reload runs on the thread that offers it. -/
theorem calls_offer (r : Request) (stale : Option Entry) (byPoller : Bool) :
    (c.offer r stale byPoller).2.calls = match (c.offer r stale byPoller).1 with
      | .running _ => c.oneCallMore r.family
      | .done _ => c.calls := by
  rcases c.offer_cases r stale byPoller with
    ⟨-, ho⟩ | ⟨-, -, ho⟩ | ⟨-, crew, -, ho⟩ | ⟨-, why, -, ho⟩ <;> rw [ho] <;> rfl

/-- The end of a load calls no loader. -/
theorem calls_finish_loader (l : Load) (o : Outcome) : (c.finish l o).2.calls = c.calls := by
  have hs := ((c.leave l).storeAndMarks_settle l o).calls
  show _ = (c.leave l).calls
  rw [← hs]
  unfold finish
  obtain ⟨ending, c'⟩ := (c.leave l).settle l o
  obtain ⟨_, _, _, executor, _, _, _, _, _, _, _, _, _⟩ := c'
  cases l.seat with
  | caller => rfl
  | worker => cases ending <;> cases executor <;> rfl
  | lent byPoller => cases ending <;> cases byPoller <;> rfl

end Loaders

/-! ## The four things that a get may do -/

/-- A get serves a fresh entry: nothing changes but that the store was read and a hit is
counted. -/
structure ServesFresh (c : Cache) (r : Request) (e : Entry) : Prop where
  answered : (c.get r).1 = .answered (some e.value)
  unchanged : (c.get r).2 =
    (c.called .get (some r.key) c.backing.store (.found true)).count .freshHits

/-- The load of a caller who gets a request now. -/
def ownLoad (c : Cache) (r : Request) : Load := c.nextOf r (c.yields r.key) .caller

/-- What a caller has of a load that failed, as a cell of the policy says. -/
def ofCell (cell : OnFailure) (r : Request) (stale : Option Entry) (f : Failure) : Ending :=
  match cell.fallback with
  | .propagate => .failed (.load r.key f)
  | .returnNone => .returned none
  | .returnStale => .returned (stale.map (·.value))

/-- A get loads for its caller. The loader of the request is called once, then and there, with
what the store yields as stale; nothing is offered to the executor. The get comes to the value
of the loader or, if the loader fails, to what one cell of the policy says, whatever has
happened to the cache in the meantime; and no loader is called for that. -/
structure LoadsForCaller (c : Cache) (r : Request) : Prop where
  loading : (c.get r).1 = .loading (c.ownLoad r)
  underWay : (c.get r).2.load? (c.ownLoad r).id = some (c.ownLoad r)
  called : (c.get r).2.calls = c.oneCallMore r.family
  noted : (c.get r).2.journal.head? = some (.loaderCalled r.key (c.calls r.family + 1) .sync
    r.mode ((c.yields r.key).map fun e => (e.value, e.age c.now)))
  unoffered : c.offered? (.get r) = none
  value : ∀ (c' : Cache) v cacheable,
    (c.get r).1.comesTo (c'.finish (c.ownLoad r) (.value v cacheable)).1 = .returned (some v)
  failure : ∀ (c' : Cache) f,
    (c.get r).1.comesTo (c'.finish (c.ownLoad r) (.failure f)).1 =
      match c.yields r.key with
      | some e => ofCell r.policy.syncExpired r (some e) f
      | none => ofCell r.policy.syncMissing r none f
  noneForNone : c.yields r.key = none → r.policy.syncMissing.fallback ≠ .returnStale
  calledOnce : ∀ (c' : Cache) o, (c'.finish (c.ownLoad r) o).2.calls = c'.calls

/-- A get serves what the store yields and offers one reload that carries it. What comes of the
reload makes no difference to what is served, but for a panic of one that the executor runs on
the caller's own thread; any other calls no loader then and there. -/
structure ServesAndReloads (c : Cache) (r : Request) : Prop where
  offered : ∃ o, c.offered? (.get r) = some (r, o) ∧
    Comes c r (c.yields r.key) false (c.get r).2 o ∧
    (c.get r).2.calls = match o with
      | .running _ => c.oneCallMore r.family
      | .done _ => c.calls
  served : ∀ ending, (∀ text, ending ≠ .panicked text) →
    (c.get r).1.comesTo ending = .returned ((c.yields r.key).map (·.value))
  direct : c.executor ≠ .inPlace →
    (c.get r).1 = .answered ((c.yields r.key).map (·.value))

/-- A get serves what the store yields and leaves the request to the poller: it is registered
unless the cache is closed or its key is registered. No loader is called and no task offered. -/
structure ServesAndRegisters (c : Cache) (r : Request) : Prop where
  answered : (c.get r).1 = .answered ((c.yields r.key).map (·.value))
  registered : (c.get r).2.poller.registry =
    if c.poller.closed ∨ c.isScheduled r.key then c.poller.registry
    else c.poller.registry.insert r
  uncalled : (c.get r).2.calls = c.calls
  unoffered : c.offered? (.get r) = none
  sameTasks : SameTasks c (c.get r).2

/-! ## The mode table -/

section Table

variable {c : Cache} {r : Request}

/-- A get that finds an entry fresh serves it and does no more. -/
theorem servesFresh {e : Entry} (h : c.yields r.key = some e)
    (hs : e.softExpired c.now = false) : c.ServesFresh r e := by
  have hfresh : Freshness.of (some e) c.now = .fresh := by
    rw [freshness_of_yields h, hs]
    rfl
  have ha : c.nextAction r = .serve := by
    rw [nextAction_eq, h, hfresh]
    cases r.mode <;> rfl
  constructor
  · rw [get_eq, ha, usable_eq, h]
    rfl
  · rw [get_snd, ha]
    show c.looked r = _
    unfold looked
    rw [lookup_of_yields h]
    show (Cache.countFound _ (Freshness.of (some e) c.now)) = _
    rw [hfresh]
    rfl

/-- A get that loads for its caller offers nothing. -/
theorem offered?_get_eq_none (h : c.nextAction r ≠ .serveAndReload) :
    c.offered? (.get r) = none := if_neg h

/-- A get that has to wait loads for its caller. -/
theorem loadsForCaller (hc : c.Reachable) (hr : r.WellFormed)
    (ha : c.nextAction r = .loadForCaller) : c.LoadsForCaller r := by
  have hs := c.storeOnly_looked r
  have hown : (c.looked r).nextOf r (c.usable r) .caller = c.ownLoad r := by
    rw [usable_eq]
    exact nextOf_congr hs.now hs.nextLoad r _ _
  have hget : c.get r =
      (.loading (c.ownLoad r), ((c.looked r).enter r (c.usable r) .caller).2) := by
    rw [get_eq, ha, ← hown]
    rfl
  have hcell (c' : Cache) (f : Failure) : (c'.finish (c.ownLoad r) (.failure f)).1 =
      match c.yields r.key with
      | some e => ofCell r.policy.syncExpired r (some e) f
      | none => ofCell r.policy.syncMissing r none f := by
    rw [finish_failure_fst]
    unfold fallback cell ofCell
    have hstale : (c.ownLoad r).stale = c.yields r.key := rfl
    have hinv : (c.ownLoad r).invocation = .sync := rfl
    have hreq : (c.ownLoad r).request = r := rfl
    rw [hstale, hinv, hreq]
    cases c.yields r.key with
    | none => cases h : r.policy.syncMissing.fallback <;> simp [Policy.select, h]
    | some e => cases h : r.policy.syncExpired.fallback <;> simp [Policy.select, h]
  constructor
  · rw [hget]
  · -- the load has joined the callers, and no other has its number
    have hacc : (c.after (.get r)).Accounted := (accounted_of_reachable hc).after (.get r)
    have hmem : c.ownLoad r ∈ (c.get r).2.loads := by
      have he := (c.looked r).sameTasks_enter_caller r (c.usable r)
      rw [hget]
      refine List.mem_append_left _ ?_
      rw [he.callers, hown]
      exact List.mem_append_right _ (List.mem_singleton_self _)
    exact hacc.load?_of_mem hmem
  · rw [hget, calls_enter]
    unfold oneCallMore
    rw [hs.calls]
  · rw [hget]
    show some (Event.loaderCalled r.key ((c.looked r).calls r.family + 1) .sync r.mode
      ((c.usable r).map fun e => (e.value, e.age (c.looked r).now))) = _
    rw [hs.calls, hs.now, usable_eq]
  · exact offered?_get_eq_none (by rw [ha]; decide)
  · intro c' v cacheable
    rw [hget, finish_fst]
    rfl
  · intro c' f
    rw [hget]
    exact hcell c' f
  · intro _
    exact Policy.check_eq_ok_iff.1 hr.policy_ok .sync
  · intro c' o
    exact c'.calls_finish_loader _ o

/-- A get that need not wait serves what there is and offers a reload. -/
theorem servesAndReloads (ha : c.nextAction r = .serveAndReload) : c.ServesAndReloads r := by
  have hs := c.storeOnly_looked r
  have hcomes := comes_offer hs.sameTasks hs.now hs.executor hs.crew r (c.usable r) false
  have hcalls := (c.looked r).calls_offer r (c.usable r) false
  have hoffered : c.offered? (.get r) =
      some (r, ((c.looked r).offer r (c.usable r) false).1) := if_pos ha
  have hsnd : (c.get r).2 = ((c.looked r).offer r (c.usable r) false).2 := by rw [get_snd, ha]
  have hfst : (c.get r).1 = match ((c.looked r).offer r (c.usable r) false).1 with
      | .done _ => .answered ((c.usable r).map (·.value))
      | .running l => .lent l ((c.usable r).map (·.value)) := by
    rw [get_eq, ha]
    dsimp only
    obtain ⟨o, c'⟩ := (c.looked r).offer r (c.usable r) false
    cases o <;> rfl
  unfold oneCallMore at hcalls
  rw [hs.calls] at hcalls
  rw [← hsnd] at hcomes hcalls
  rw [usable_eq] at *
  constructor
  · exact ⟨_, hoffered, hcomes, hcalls⟩
  · intro ending hpanic
    rw [hfst]
    cases ((c.looked r).offer r (c.yields r.key) false).1 with
    | done o => rfl
    | running l =>
      cases ending with
      | returned v => rfl
      | failed fault => rfl
      | panicked text => exact absurd rfl (hpanic text)
  · intro he
    rw [hfst]
    generalize ((c.looked r).offer r (c.yields r.key) false).1 = o at hcomes
    -- only an executor that runs tasks in place lends its caller's thread
    cases hcomes with
    | running _ hplace _ => exact absurd hplace he
    | _ => rfl

/-- A get that leaves its request to the poller serves what there is and registers it. -/
theorem servesAndRegisters (ha : c.nextAction r = .serveAndRegister) :
    c.ServesAndRegisters r := by
  have hs := c.storeOnly_looked r
  have hsnd : (c.get r).2 = ((c.looked r).registerIfAbsent r).2 := by rw [get_snd, ha]
  constructor
  · rw [get_eq, ha, usable_eq]
  · rw [hsnd]
    unfold registerIfAbsent enroll startPoller isScheduled
    rw [hs.poller]
    by_cases hclosed : c.poller.closed = true
    · simp [hclosed, record, hs.poller]
    · by_cases hk : c.poller.registry.requests.contains r.key = true
      · simp [hclosed, hk, hs.poller]
      · simp only [hclosed, hk, Bool.false_eq_true, or_self, if_false]
        split <;> rfl
  · rw [hsnd, (pollerOnly_registerIfAbsent ..).calls, hs.calls]
  · exact offered?_get_eq_none (by rw [ha]; nofun)
  · rw [hsnd]
    exact hs.sameTasks.trans (pollerOnly_registerIfAbsent _ r).sameTasks

/-- **The mode table, end to end.** In every cache that can be reached, for every well-formed
request and whatever the store does:

1. what is fresh is served, and nothing changes but the count of hits;
2. in block mode, and in return mode where there is nothing, a get loads for its caller what is
   not fresh;
3. in return mode where there is something stale, and in async mode, it serves what there is
   and offers a reload with it;
4. in scheduled mode it serves what there is and leaves the request to the poller. -/
theorem get_follows_mode_table (hc : c.Reachable) (hr : r.WellFormed) :
    (∀ e, c.yields r.key = some e → e.softExpired c.now = false → c.ServesFresh r e) ∧
    (c.Outdated r.key → r.mode = .block ∨ r.mode = .returning ∧ c.yields r.key = none →
      c.LoadsForCaller r) ∧
    (c.Outdated r.key → r.mode = .returning ∧ c.yields r.key ≠ none ∨ r.mode = .async →
      c.ServesAndReloads r) ∧
    (c.Outdated r.key → r.mode = .scheduled → c.ServesAndRegisters r) := by
  refine ⟨fun e => servesFresh, fun ho hm => ?_, fun ho hm => ?_, fun ho hm => ?_⟩
  · refine loadsForCaller hc hr ?_
    rw [nextAction_eq, freshness_of_outdated ho]
    rcases hm with hm | ⟨hm, hn⟩
    · rw [hm]
      cases (c.yields r.key).isSome <;> rfl
    · rw [hm, hn]
      rfl
  · refine servesAndReloads ?_
    rw [nextAction_eq, freshness_of_outdated ho]
    rcases hm with ⟨hm, hn⟩ | hm
    · rw [hm, if_pos (Option.isSome_iff_ne_none.2 hn)]
      rfl
    · rw [hm]
      cases (c.yields r.key).isSome <;> rfl
  · refine servesAndRegisters ?_
    rw [nextAction_eq, freshness_of_outdated ho, hm]
    cases (c.yields r.key).isSome <;> rfl

end Table

/-- The old entry is there, and wants a refresh. -/
def staleStored : List Move := [.setEntry "profile" old, .tick (2 * Clock.second)]

/-- Of two requests for the old entry, one loads for its caller and one is served and
reloaded. -/
theorem get_follows_mode_table_staleStored :
    ((overMap (.byHand none)).run staleStored).LoadsForCaller (clinging .block) ∧
      ((overMap (.byHand none)).run staleStored).ServesAndReloads (clinging .returning) := by
  have hc : ((overMap (.byHand none)).run staleStored).Reachable :=
    (reachable_overMap _).run ⟨built_old, trivial, trivial⟩
  have ho : ((overMap (.byHand none)).run staleStored).Outdated "profile" := by
    intro e he
    cases he
    decide
  obtain ⟨-, hblock, -, -⟩ := get_follows_mode_table hc (clinging_wellFormed .block)
  obtain ⟨-, -, hreturning, -⟩ := get_follows_mode_table hc (clinging_wellFormed .returning)
  exact ⟨hblock ho (.inl rfl), hreturning ho (.inl ⟨rfl, nofun⟩)⟩

end Cache

end Evergreen
