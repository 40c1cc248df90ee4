import Evergreen.Proofs.HardExpiry
import Evergreen.Proofs.Scans

/-!
# What a move counts

Besides what becomes of calls of the store, ten things are counted, each where it happens: what a
get finds, loads that begin or fail, what comes of an offer, scans that end. `counted c m` lists
what a move counts of these, and `counts_after` says that the list is complete.

- `Counts`: the counters of one cache are those of another and what was counted in between;
- `counts_offer`, `counts_finish`: an offer counts what comes of it, unless it runs on the thread
  that made it; then that is counted at the end of its load, and not at all if the loader panics.
-/

namespace Evergreen

/-- Whether a counter counts what becomes of calls of the store. -/
def Counter.countsStore : Counter → Bool
  | writes | writesSuperseded | storeErrors => true
  | _ => false

/-- Whether the executor runs a load on the thread that offered it. -/
def Seat.isLent : Seat → Bool
  | lent _ => true
  | _ => false

/-- The counter of loads that begin on a seat. -/
def Seat.counter (seat : Seat) : Counter :=
  match seat.invocation with
  | .sync => .syncLoads
  | .background => .backgroundLoads

namespace Cache

/-! ## Counting -/

/-- From one cache to the next, `ks` was counted besides calls of the store. -/
structure Counts (c c' : Cache) (ks : List Counter) : Prop where
  counters : ∀ k, k.countsStore = false → c'.counters k = c.counters k + ks.count k

section Pieces

variable {a b c : Cache}

/-- What is counted piece by piece is counted as a whole. -/
theorem Counts.trans {ks ks' : List Counter} (h : Counts a b ks) (h' : Counts b c ks') :
    Counts a c (ks ++ ks') where
  counters k hk := by
    rw [h'.counters k hk, h.counters k hk, List.count_append, Nat.add_assoc]

/-- Where nothing is counted but calls of the store. -/
theorem counts_nothing (h : ∀ k, k.countsStore = false → b.counters k = a.counters k) :
    Counts a b [] :=
  ⟨h⟩

theorem counts_of_eq (h : b.counters = a.counters) : Counts a b [] :=
  counts_nothing fun k _ => congrFun h k

theorem Counts.refl (a : Cache) : Counts a a [] := counts_of_eq rfl

/-- What counts nothing may come after. -/
theorem Counts.andThen {ks : List Counter} (h : Counts a b ks) (h' : Counts b c []) :
    Counts a c ks := by
  simpa only [List.append_nil] using h.trans h'

/-- What counts nothing may come before. -/
theorem Counts.after {ks : List Counter} (h : Counts b c ks) (h' : Counts a b []) :
    Counts a c ks := h'.trans h

/-- Only the counters matter. -/
theorem Counts.congr {ks : List Counter} (h : Counts a b ks) (hc : c.counters = b.counters) :
    Counts a c ks := h.andThen (counts_of_eq hc)

theorem Counts.congr_left {ks : List Counter} (h : Counts b c ks) (hb : b.counters = a.counters) :
    Counts a c ks := h.after (counts_of_eq hb)

theorem counts_count (c : Cache) (k : Counter) : Counts c (c.count k) [k] where
  counters k' _ := by
    show c.counters.bump k k' = _
    rw [List.count_singleton]
    by_cases h : k' = k
    · rw [h, Counters.bump_self, if_pos (by simp)]
    · rw [Counters.bump_other _ h, if_neg (by simpa using Ne.symm h), Nat.add_zero]

/-- A counter of calls of the store may be counted on the way. -/
theorem counts_count_store (c : Cache) {k : Counter} (hk : k.countsStore = true) :
    Counts c (c.count k) [] :=
  counts_nothing fun k' hk' => Counters.bump_other _ (by
    rintro rfl
    rw [hk] at hk'
    cases hk')

theorem counts_record (c : Cache) (e : Event) : Counts c (c.record e) [] := counts_of_eq rfl

end Pieces

/-! ## Calls of the store -/

section Calls

variable (c : Cache)

theorem counts_storeFailed (op : StoreOp) (key : Option Key) (fault : StoreFault) :
    Counts c (c.storeFailed op key fault) [] :=
  (c.counts_count_store rfl).andThen (counts_record _ _)

/-- The report of a call counts nothing else. -/
theorem counts_reported {α : Type} (op : StoreOp) (key : Option Key) (a : Except StoreFault α) :
    Counts c (c.reported op key a) [] := by
  cases a with
  | ok x => exact .refl c
  | error fault => exact c.counts_storeFailed op key fault

theorem counts_drop (key : Key) : Counts c (c.drop key).2 [] := by
  rw [drop_eq]
  exact ((c.delete key).2.counts_reported ..).congr_left rfl

theorem counts_dropAll : Counts c c.dropAll [] := by
  rw [dropAll_eq]
  exact (c.wipe.2.counts_reported ..).congr_left rfl

theorem counts_lookup (key : Key) : Counts c (c.lookup key).2 [] := by
  have hglanced : Counts c (c.glanced key) [] :=
    ((c.fetch key).2.counts_reported ..).congr_left rfl
  rw [lookup_eq]
  split
  · exact hglanced
  · split
    · exact (hglanced.andThen (counts_record _ _)).andThen (counts_drop _ key)
    · exact hglanced

theorem counts_write (key : Key) (e : Entry) : Counts c (c.write key e).2 [] := by
  have hput : Counts c ((c.put key e).2.reported .set (some key) (c.put key e).1) [] :=
    ((c.put key e).2.counts_reported ..).congr_left rfl
  rw [write_eq]
  dsimp only
  split
  · exact hput.andThen (counts_count_store _ rfl)
  · exact hput

theorem counts_writeLoaded (key : Key) (e : Entry) (started : Nat) :
    Counts c (c.writeLoaded key e started).2 [] := by
  rw [writeLoaded_eq]
  dsimp only
  split
  · exact ((counts_count_store _ rfl).andThen (counts_record _ _)).congr_left rfl
  · exact (counts_write _ key e).congr_left rfl

end Calls

/-! ## Loads -/

section Loads

variable (c : Cache)

theorem counts_enter (r : Request) (stale : Option Entry) (seat : Seat) :
    Counts c (c.enter r stale seat).2 [seat.counter] := by
  refine (c.counts_count seat.counter).congr ?_
  cases seat <;> rfl

/-- What the end of a load counts as such: only that it failed. -/
def failureCount : Outcome → List Counter
  | .failure _ => [.loadFailures]
  | _ => []

/-- What the end of a load counts. The offer that has lent its thread to it ends with it, unless
the loader panics. -/
def endCount (l : Load) : Outcome → List Counter
  | .panic _ => []
  | o => failureCount o ++ if l.seat.isLent then [.reloadsStarted] else []

theorem counts_failed (l : Load) (f : Failure) : Counts c (c.failed l f) [.loadFailures] := by
  unfold failed
  cases (cell l).log.text? f with
  | none => exact c.counts_count _
  | some text => exact (c.counts_count _).andThen (counts_record ..)

theorem counts_writeBack (l : Load) (e : Entry) (how : WriteBack) :
    Counts c (c.writeBack l e how) [] := by
  cases how with
  | dontCache => exact .refl c
  | cacheExpired => exact c.counts_writeLoaded ..
  | cacheFresh => exact (c.counts_writeLoaded ..).congr rfl

theorem counts_settle (l : Load) (o : Outcome) : Counts c (c.settle l o).2 (failureCount o) := by
  cases o with
  | value v cacheable =>
    cases cacheable with
    | false => exact counts_of_eq rfl
    | true => exact (c.counts_writeLoaded ..).congr rfl
  | failure f =>
    rw [settle_failure, recover_eq]
    cases l.stale with
    | none => exact c.counts_failed l f
    | some e => exact (c.counts_failed l f).andThen (counts_writeBack ..)
  | panic text => exact .refl c

/-- The end of a load counts its failure, and the offer that ends with it. -/
theorem counts_finish (l : Load) (o : Outcome) : Counts c (c.finish l o).2 (endCount l o) := by
  have hs : Counts c ((c.leave l).settle l o).2 (failureCount o) :=
    ((c.leave l).counts_settle l o).congr_left rfl
  unfold finish endCount
  -- what is settled stays closed: only the seat, the ending and the executor are told apart
  cases o with
  | panic text =>
    simp only [settle] at hs ⊢
    generalize c.leave l = c' at hs ⊢
    obtain ⟨_, _, _, executor, _, _, _, _, _, _, _, _, _⟩ := c'
    cases l.seat with
    | caller => exact hs
    | worker => cases executor <;> exact hs.congr rfl
    | lent byPoller => cases byPoller <;> exact hs.congr rfl
  | value v cacheable =>
    simp only [settle] at hs ⊢
    generalize (c.leave l).succeed l v cacheable = c' at hs ⊢
    have hk : Counts c (c'.clearInFlight l.key) [] := hs.congr rfl
    cases l.seat with
    | caller => exact hs
    | worker => exact hk
    | lent byPoller =>
      have hr := hk.trans (counts_count _ .reloadsStarted)
      cases byPoller with
      | false => exact hr
      | true => exact hr.andThen (counts_record _ _)
  | failure f =>
    rw [settle_failure] at hs
    simp only [settle]
    generalize (c.leave l).recover l f = p at hs ⊢
    obtain ⟨result, c'⟩ := p
    have hk : Counts c (c'.clearInFlight l.key) [.loadFailures] := hs.congr rfl
    cases result with
    | ok v =>
      cases l.seat with
      | caller => exact hs
      | worker => exact hk
      | lent byPoller =>
        have hr := hk.trans (counts_count _ .reloadsStarted)
        cases byPoller with
        | false => exact hr
        | true => exact hr.andThen (counts_record _ _)
    | error fault =>
      have hd : Counts c ((c'.record (.failureDropped fault l.key)).clearInFlight l.key)
          [.loadFailures] := hs.congr rfl
      cases l.seat with
      | caller => exact hs
      | worker => exact hd
      | lent byPoller =>
        have hr := hd.trans (counts_count _ .reloadsStarted)
        cases byPoller with
        | false => exact hr
        | true => exact hr.andThen (counts_record _ _)

end Loads

/-! ## Offers, gets and visits -/

/-- What an offer counts: what comes of it, or the load that it begins. -/
def Offer.count : Offer → Counter
  | .done .started => .reloadsStarted
  | .done .alreadyInFlight => .reloadsDeduplicated
  | .done (.refused _) => .reloadsRejected
  | .running _ => .backgroundLoads

section Offers

variable (c : Cache)

theorem counts_offer (r : Request) (stale : Option Entry) (byPoller : Bool) :
    Counts c (c.offer r stale byPoller).2 [(c.offer r stale byPoller).1.count] := by
  rcases c.offer_cases r stale byPoller with
    ⟨-, ho⟩ | ⟨-, -, ho⟩ | ⟨-, crew, -, ho⟩ | ⟨-, why, -, ho⟩
  · rw [ho]
    exact ((c.record _).counts_count .reloadsDeduplicated).congr_left rfl
  · rw [ho]
    exact ((c.markInFlight r.key).counts_enter r stale (.lent byPoller)).congr_left rfl
  · rw [ho]
    exact (counts_count { c.markInFlight r.key with crew } .reloadsStarted).congr_left rfl
  · rw [ho]
    exact (counts_count (((c.markInFlight r.key).clearInFlight r.key).record _)
      .reloadsRejected).congr_left rfl

/-- What a get finds, as the counters see it. -/
def foundBy (c : Cache) (r : Request) : Counter := (Freshness.of (c.yields r.key) c.now).counter

theorem counts_looked (r : Request) : Counts c (c.looked r) [c.foundBy r] := by
  have hfound : c.looked r = (c.lookup r.key).2.count (c.foundBy r) := by
    show (c.lookup r.key).2.countFound (Freshness.of (c.lookup r.key).1 (c.lookup r.key).2.now) = _
    rw [countFound_eq, lookup_fst, (c.storeOnly_lookup r.key).now]
    rfl
  rw [hfound]
  exact (counts_count _ _).after (c.counts_lookup r.key)

/-- What a move counts of the offer that it makes. -/
def offerCount (c : Cache) (m : Move) : List Counter := (c.offered? m).toList.map (·.2.count)

/-- What a get counts: what it finds, and what it does then. -/
def getCount (c : Cache) (r : Request) : List Counter :=
  c.foundBy r :: if c.nextAction r = .loadForCaller then [.syncLoads] else c.offerCount (.get r)

theorem counts_registerIfAbsent (r : Request) : Counts c (c.registerIfAbsent r).2 [] :=
  counts_of_eq (c.counters_registerIfAbsent r)

theorem counts_get (r : Request) : Counts c (c.get r).2 (c.getCount r) := by
  have hl := c.counts_looked r
  rw [get_snd]
  unfold getCount
  cases ha : c.nextAction r with
  | serve =>
    have hnone : c.offerCount (.get r) = [] := by simp [offerCount, offered?, ha]
    rw [hnone]
    exact hl
  | loadForCaller => exact hl.trans (counts_enter _ r _ .caller)
  | serveAndReload =>
    have hsome : c.offerCount (.get r) =
        [((c.looked r).offer r (c.usable r) false).1.count] := by simp [offerCount, offered?, ha]
    rw [hsome]
    exact hl.trans (counts_offer _ r _ false)
  | serveAndRegister =>
    have hnone : c.offerCount (.get r) = [] := by simp [offerCount, offered?, ha]
    rw [hnone]
    exact hl.andThen (counts_registerIfAbsent _ r)

theorem counts_visit {r : Request} (hv : c.canVisit r = true) :
    Counts c (c.visit r).2 (c.offerCount (.visit r)) := by
  have hl : Counts c (c.visited c.scanLeft r) [] := (counts_lookup { c with
    poller := { c.poller with phase := .scanning (c.scanLeft.erase r) } } r.key).congr_left rfl
  have ho := hl.trans ((c.visited c.scanLeft r).counts_offer r (c.visitFinds c.scanLeft r) true)
  have hcount : c.offerCount (.visit r) =
      [((c.visited c.scanLeft r).offer r (c.visitFinds c.scanLeft r) true).1.count] := by
    simp [offerCount, offered?, hv]
  rw [hcount]
  rcases visit_snd (scanning_of_canVisit hv) r with hs | ⟨o, hs⟩
  · rw [hs]
    exact ho
  · rw [hs]
    exact ho.andThen (counts_record ..)

end Offers

/-! ## Moves -/

/-- A move ends a scan that is done. -/
def completesScan (c : Cache) : Move → Bool
  | .endScan => !c.pollerBusy && match c.poller.phase with
    | .scanning [] => true
    | _ => false
  | _ => false

/-- What a move counts besides calls of the store. -/
def counted (c : Cache) : Move → List Counter
  | .get r => c.getCount r
  | .start place => if (c.start? place).isSome then [.backgroundLoads] else []
  | .finish id o => (c.load? id).elim [] fun l => endCount l o
  | .visit r => c.offerCount (.visit r)
  | .endScan => if c.completesScan .endScan then [.schedulerTicks] else []
  | _ => []

section Moves

variable (c : Cache)

variable {c} in
theorem completesScan_iff {m : Move} : c.completesScan m = true ↔ m = .endScan ∧ c.ScanDone := by
  constructor
  · intro h
    unfold completesScan at h
    split at h
    · rw [Bool.and_eq_true, Bool.not_eq_true'] at h
      obtain ⟨hidle, hp⟩ := h
      split at hp
      · exact ⟨rfl, ‹_›, hidle⟩
      · cases hp
    · cases h
  · rintro ⟨rfl, hp, hidle⟩
    simp [completesScan, hp, hidle]

variable {c} in
/-- The end of a scan that is done. -/
theorem after_endScan (h : c.ScanDone) : c.after .endScan =
    if c.poller.closed then
      { c.count .schedulerTicks with poller := { c.poller with phase := .finished } }.record
        .pollerStopped
    else { c.count .schedulerTicks with poller := c.poller.await c.now } := by
  simp only [after, endScan, h.idle, h.nothingLeft, Bool.false_eq_true, if_false]
  rfl

variable {c} in
theorem after_endScan_of_not_done (h : ¬ c.ScanDone) : c.after .endScan = c := by
  simp only [after, endScan]
  split
  · rfl
  · rename_i hidle
    split
    · rename_i hp
      exact absurd ⟨hp, by simpa using hidle⟩ h
    · rfl

theorem counts_schedule (r : Request) : Counts c (c.schedule r).2 [] := by
  refine counts_of_eq ?_
  unfold schedule register enroll startPoller
  split
  · rfl
  · split
    · dsimp only
      split <;> rfl
    · split
      · rfl
      · dsimp only [resetMark]
        split <;> rfl

theorem counts_resetAll : Counts c c.resetAll [] := by
  unfold resetAll
  generalize c.poller.registry.requests.values = regs
  induction regs generalizing c with
  | nil => exact .refl c
  | cons reg regs ih => exact (ih (c.resetMark reg.request.family)).congr_left rfl

theorem counts_remove (k : Key) : Counts c (c.remove k).2 [] := by
  refine (counts_drop _ k).after (counts_of_eq ?_)
  unfold resetRegistered
  split <;> rfl

theorem counts_set (k : Key) (v : Value) (ttl : Nat) : Counts c (c.set k v ttl).2 [] := by
  unfold set
  split
  · exact .refl c
  · exact .refl c
  · exact c.counts_write k _

theorem counts_setEntry (k : Key) (e : Entry) : Counts c (c.setEntry k e).2 [] := by
  unfold setEntry
  split
  · exact .refl c
  · exact c.counts_write k e

theorem counts_close : Counts c c.close [] := by
  refine counts_of_eq ?_
  unfold close
  split
  · rfl
  · dsimp only
    split <;> rfl

theorem counts_dispose : Counts c c.dispose [] := by
  unfold dispose
  split
  · exact c.counts_close
  · exact counts_of_eq rfl

theorem counts_beginScan : Counts c (c.beginScan?.getD c) [] := by
  refine counts_of_eq ?_
  unfold beginScan?
  split
  · split <;> rfl
  · rfl

theorem counts_endScan : Counts c (c.after .endScan) (c.counted .endScan) := by
  unfold counted
  by_cases hd : c.ScanDone
  · rw [if_pos (completesScan_iff.2 ⟨rfl, hd⟩), after_endScan hd]
    have hcount := c.counts_count .schedulerTicks
    split
    · exact hcount.andThen (counts_of_eq rfl)
    · exact hcount.andThen (counts_of_eq rfl)
  · rw [if_neg fun h => hd (completesScan_iff.1 h).2, after_endScan_of_not_done hd]
    exact .refl c

theorem counts_purged : Counts c c.purged [] := by
  refine counts_of_eq ?_
  unfold purged
  split <;> rfl

theorem counts_start (place : Nat) :
    Counts c (c.after (.start place)) (c.counted (.start place)) := by
  simp only [after, counted]
  cases hs : c.start? place with
  | none => exact .refl c
  | some p =>
    obtain ⟨l, c'⟩ := p
    obtain ⟨task, -, rfl⟩ := start?_eq_some hs
    exact (counts_enter _ task.request task.stale .worker).congr_left rfl

theorem counts_discard (place : Nat) : Counts c (c.after (.discard place)) [] := by
  rcases c.after_discard place with h | ⟨task, -, h⟩
  · rw [h]
    exact .refl c
  · rw [h]
    exact counts_of_eq rfl

/-- **What a move counts.** -/
theorem counts_after (m : Move) : Counts c (c.after m) (c.counted m) := by
  cases m with
  | get r => exact c.counts_get r
  | peek k => exact c.counts_lookup k
  | set k v ttl => exact c.counts_set k v ttl
  | setEntry k e => exact c.counts_setEntry k e
  | remove k => exact c.counts_remove k
  | removeAll => exact c.counts_dropAll.andThen (counts_resetAll _)
  | schedule r => exact c.counts_schedule r
  | close => exact c.counts_close
  | dispose => exact c.counts_dispose
  | start place => exact c.counts_start place
  | discard place => exact c.counts_discard place
  | finish id o =>
    simp only [after, counted]
    cases c.load? id with
    | none => exact .refl c
    | some l => exact c.counts_finish l o
  | beginScan => exact c.counts_beginScan
  | visit r =>
    simp only [after, counted]
    split
    · exact c.counts_visit ‹_›
    · rename_i hv
      have hnone : c.offerCount (.visit r) = [] := by simp [offerCount, offered?, hv]
      rw [hnone]
      exact .refl c
  | endScan => exact c.counts_endScan
  | purge => exact c.counts_purged
  | tick _ | unschedule _ | shut | forecast _ | forget => exact counts_of_eq rfl

end Moves

end Cache

end Evergreen
