import Evergreen.Proofs.KeptSteps
import Evergreen.Proofs.StoreCalls

/-!
# The journal and the counters

What a cache does is told twice: it is noted in the journal, and most of it is counted. This
module says how the two grow together. `Tells c c' ks` relates a cache to a later one: the
journal has grown at its head, each counter that events stand for has grown by the events that
stand for it, and every call of the store that failed has its report, but for reads of the keys
`ks`.

- `Tells.trans`: what is told piece by piece is told as a whole;
- `tells_lookup`, `tells_write`, `tells_finish` and so on: what the operations tell. The one
  read that goes unreported is that of the write guard (`tells_fetch`);
- `tells_after`: what a move tells, unless somebody takes the journal;
- `history`, `told_history`: what a run tells, whoever took the journal in between.
-/

namespace Evergreen

/-! ## What events stand for -/

/-- A call of the store: its operation, and its key unless it is about every key. -/
abbrev StoreCall := StoreOp × Option Key

namespace Event

/-- The counter that counts events of a kind, where one does. -/
def counter? : Event → Option Counter
  | storeCalled .set _ (.accepted true _) => some .writes
  | storeFailed .. => some .storeErrors
  | loaderCalled _ _ .sync .. => some .syncLoads
  | loaderCalled _ _ .background .. => some .backgroundLoads
  | superseded _ => some .writesSuperseded
  | reloadInFlight _ => some .reloadsDeduplicated
  | reloadRefused .. => some .reloadsRejected
  | _ => none

/-- The call of the store that an event tells of, if the call failed. -/
def failedCall? : Event → Option StoreCall
  | storeCalled op key .failed => some (op, key)
  | _ => none

/-- The failed call that an event is the report of. -/
def report? : Event → Option StoreCall
  | storeFailed op key _ => some (op, key)
  | _ => none

/-- An event that is neither counted nor about a failure of the store. -/
structure Plain (e : Event) : Prop where
  uncounted : e.counter? = none
  noCall : e.failedCall? = none
  noReport : e.report? = none

/-- An event that is counted and not about a failure of the store. -/
structure CountedBy (e : Event) (k : Counter) : Prop where
  counted : e.counter? = some k
  noCall : e.failedCall? = none
  noReport : e.report? = none

end Event

/-- Whether a counter counts events. The others count what the journal does not tell. -/
def Counter.countsEvents : Counter → Bool
  | freshHits | staleHits | misses | loadFailures | reloadsStarted | schedulerTicks => false
  | _ => true

namespace Cache

/-! ## Telling -/

/-- The events `es` tell what has happened from one cache to the next, with a report for every
failed call but for reads of the keys `ks`. -/
structure Told (c c' : Cache) (es : List Event) (ks : List Key) : Prop where
  counters : ∀ k, k.countsEvents = true →
    c'.counters k = c.counters k + es.countP (·.counter? = some k)
  reports : ∀ call, (es.filterMap Event.failedCall?).count call =
    (es.filterMap Event.report?).count call + (ks.map fun k => (StoreOp.get, some k)).count call

/-- The journal has grown by events that tell what has happened. -/
def Tells (c c' : Cache) (ks : List Key) : Prop :=
  ∃ es, c'.journal = es ++ c.journal ∧ Told c c' es ks

theorem Told.trans {a b c : Cache} {es es' : List Event} {ks ks' : List Key}
    (h : Told a b es ks) (h' : Told b c es' ks') : Told a c (es' ++ es) (ks' ++ ks) := by
  constructor
  · intro k hk
    have h₁ := h.counters k hk
    have h₂ := h'.counters k hk
    rw [List.countP_append]
    omega
  · intro call
    have h₁ := h.reports call
    have h₂ := h'.reports call
    simp only [List.filterMap_append, List.map_append, List.count_append]
    omega

/-- What is told piece by piece is told as a whole. -/
theorem Tells.trans {a b c : Cache} {ks ks' : List Key} (h : Tells a b ks)
    (h' : Tells b c ks') : Tells a c (ks' ++ ks) := by
  obtain ⟨es, hj, ht⟩ := h
  obtain ⟨es', hj', ht'⟩ := h'
  exact ⟨es' ++ es, by rw [hj', hj, List.append_assoc], ht.trans ht'⟩

section Pieces

variable {c c' : Cache} {e : Event} {k : Counter}

theorem told_of_counters (h : c'.counters = c.counters) : Told c c' [] [] :=
  ⟨fun k _ => by simp [h], fun _ => rfl⟩

/-- Where nothing is noted or counted, nothing needs to be. -/
theorem tells_nothing (hj : c'.journal = c.journal) (hc : c'.counters = c.counters) :
    Tells c c' [] :=
  ⟨[], hj, told_of_counters hc⟩

theorem Tells.refl (c : Cache) : Tells c c [] := tells_nothing rfl rfl

theorem Tells.andThen {a b : Cache} {ks : List Key} (h : Tells a b ks) (h' : Tells b c []) :
    Tells a c ks := h.trans h'

theorem Tells.after {a b : Cache} {ks : List Key} (h : Tells b c ks) (h' : Tells a b []) :
    Tells a c ks := by
  simpa only [List.append_nil] using h'.trans h

/-- Only the journal and the counters matter. -/
theorem Tells.congr {a b : Cache} {ks : List Key} (h : Tells a b ks)
    (hj : c.journal = b.journal) (hc : c.counters = b.counters) : Tells a c ks :=
  h.andThen (tells_nothing hj hc)

theorem Tells.congr_left {a b : Cache} {ks : List Key} (h : Tells b c ks)
    (hj : b.journal = a.journal) (hc : b.counters = a.counters) : Tells a c ks :=
  h.after (tells_nothing hj hc)

/-- An event that is not counted. -/
theorem tells_plain (he : e.Plain) (hj : c'.journal = e :: c.journal)
    (hc : c'.counters = c.counters) : Tells c c' [] := by
  refine ⟨[e], hj, fun k _ => ?_, fun call => ?_⟩
  · simp [hc, he.uncounted]
  · simp [he.noCall, he.noReport]

/-- An event that is counted. -/
theorem tells_counted (he : e.CountedBy k) (hj : c'.journal = e :: c.journal)
    (hc : c'.counters = c.counters.bump k) : Tells c c' [] := by
  refine ⟨[e], hj, fun k' _ => ?_, fun call => ?_⟩
  · rw [hc, List.countP_singleton, he.counted]
    by_cases hk : k' = k
    · simp [hk]
    · simp [Counters.bump_other _ hk, Ne.symm hk]
  · simp [he.noCall, he.noReport]

/-- What is counted without an event. -/
theorem tells_count (hk : k.countsEvents = false) (c : Cache) : Tells c (c.count k) [] := by
  refine ⟨[], rfl, fun k' hk' => ?_, fun _ => rfl⟩
  have hne : k' ≠ k := by
    rintro rfl
    rw [hk] at hk'
    cases hk'
  simp [count, Counters.bump_other _ hne]

theorem tells_record (he : e.Plain) (c : Cache) : Tells c (c.record e) [] :=
  tells_plain he rfl rfl

end Pieces

/-! ## Calls of the store -/

section Calls

variable (c : Cache)

/-- A call that failed and is reported. -/
theorem tells_storeFailed (op : StoreOp) (key : Option Key) (store : Store)
    (fault : StoreFault) :
    Tells c ((c.called op key store .failed).storeFailed op key fault) [] := by
  refine ⟨[.storeFailed op key fault, .storeCalled op key .failed], rfl, fun k _ => ?_,
    fun call => ?_⟩
  · -- of the two events the report is counted, and the call is not
    have hcall : (Event.storeCalled op key .failed).counter? = none := by cases op <;> rfl
    have hreport : (Event.storeFailed op key fault).counter? = some .storeErrors := rfl
    show c.counters.bump .storeErrors k = _
    rw [List.countP_cons, List.countP_singleton, hcall, hreport]
    by_cases hk : k = .storeErrors
    · simp [hk]
    · simp [Counters.bump_other _ hk, Ne.symm hk]
  · rfl

/-- The keys whose read would go unreported: the given one, if reading it fails. -/
def unread (k : Key) : List Key :=
  match c.backing.verdict .get with
  | .fail _ => [k]
  | _ => []

/-- A read as such reports nothing. -/
theorem tells_fetch (k : Key) : Tells c (c.fetch k).2 (c.unread k) := by
  unfold unread
  rw [fetch_eq]
  cases c.backing.verdict .get with
  | pass => exact tells_plain ⟨rfl, rfl, rfl⟩ rfl rfl
  | ignore => exact tells_plain ⟨rfl, rfl, rfl⟩ rfl rfl
  | fail fault =>
    refine ⟨[.storeCalled .get (some k) .failed], rfl, fun k' _ => rfl, fun call => ?_⟩
    exact (Nat.zero_add _).symm

theorem tells_glanced (k : Key) : Tells c (c.glanced k) [] := by
  unfold glanced
  rw [fetch_eq]
  cases c.backing.verdict .get with
  | pass => exact tells_plain ⟨rfl, rfl, rfl⟩ rfl rfl
  | ignore => exact tells_plain ⟨rfl, rfl, rfl⟩ rfl rfl
  | fail fault => exact c.tells_storeFailed ..

theorem tells_drop (k : Key) : Tells c (c.drop k).2 [] := by
  rw [drop_eq, delete_eq]
  cases c.backing.verdict .remove with
  | pass => exact tells_plain ⟨rfl, rfl, rfl⟩ rfl rfl
  | ignore => exact tells_plain ⟨rfl, rfl, rfl⟩ rfl rfl
  | fail fault => exact c.tells_storeFailed ..

theorem tells_dropAll : Tells c c.dropAll [] := by
  rw [dropAll_eq, wipe_eq]
  cases c.backing.verdict .clear with
  | pass => exact tells_plain ⟨rfl, rfl, rfl⟩ rfl rfl
  | ignore => exact tells_plain ⟨rfl, rfl, rfl⟩ rfl rfl
  | fail fault => exact c.tells_storeFailed ..

theorem tells_lookup (k : Key) : Tells c (c.lookup k).2 [] := by
  have hg := c.tells_glanced k
  rw [lookup_eq]
  cases hit (c.fetch k).1 with
  | none => exact hg
  | some e =>
    dsimp only
    split
    · exact (hg.andThen (tells_record ⟨rfl, rfl, rfl⟩ _)).andThen (tells_drop _ k)
    · exact hg

/-- A write that the store accepts is counted, one that fails is reported. -/
theorem tells_write (k : Key) (e : Entry) : Tells c (c.write k e).2 [] := by
  rw [write_eq, put_eq]
  cases c.backing.verdict .set with
  | pass => exact tells_counted ⟨rfl, rfl, rfl⟩ rfl rfl
  | ignore => exact tells_plain ⟨rfl, rfl, rfl⟩ rfl rfl
  | fail fault => exact c.tells_storeFailed ..

theorem tells_writeLoaded (k : Key) (e : Entry) (started : Nat) :
    Tells c (c.writeLoaded k e started).2 (c.unread k) := by
  have hf := c.tells_fetch k
  rw [writeLoaded_eq]
  cases holdsOff started (hit (c.fetch k).1) with
  | true => exact hf.andThen (tells_counted ⟨rfl, rfl, rfl⟩ rfl rfl)
  | false => exact hf.andThen (tells_write _ k e)

end Calls

/-! ## Loads -/

section Loads

variable (c : Cache)

theorem tells_enter (r : Request) (stale : Option Entry) (seat : Seat) :
    Tells c (c.enter r stale seat).2 [] := by
  cases seat <;> exact tells_counted ⟨rfl, rfl, rfl⟩ rfl rfl

/-- The reads that the end of a load does not report. -/
def unreadByEnd (l : Load) (o : Outcome) : List Key :=
  if (result? l c.now o).isSome then c.unread l.key else []

theorem tells_failed (l : Load) (f : Failure) : Tells c (c.failed l f) [] := by
  have hc := tells_count (k := .loadFailures) rfl c
  unfold failed
  cases (cell l).log.text? f with
  | none => exact hc
  | some text => exact hc.andThen (tells_record ⟨rfl, rfl, rfl⟩ _)

theorem tells_writeBack (l : Load) {e : Entry} (he : l.stale = some e) :
    Tells c (c.writeBack l e (cell l).cache)
      (if (carryOver? l c.now).isSome then c.unread l.key else []) := by
  unfold writeBack
  simp only [carryOver?, he, Option.bind_some]
  cases (cell l).cache with
  | dontCache => exact .refl c
  | cacheExpired => exact c.tells_writeLoaded ..
  | cacheFresh => exact (c.tells_writeLoaded ..).congr rfl rfl

theorem tells_settle (l : Load) (o : Outcome) :
    Tells c (c.settle l o).2 (c.unreadByEnd l o) := by
  cases o with
  | value v cacheable =>
    cases cacheable with
    | false => exact tells_nothing rfl rfl
    | true => exact (c.tells_writeLoaded ..).congr rfl rfl
  | failure f =>
    have hf := c.tells_failed l f
    have hs := c.sameStore_failed l f
    have hu : (c.failed l f).unread l.key = c.unread l.key := by simp only [unread, hs.backing]
    rw [settle_failure, recover_eq]
    unfold unreadByEnd
    cases he : l.stale with
    | none =>
      simp only [result?, carryOver?, he]
      exact hf
    | some e =>
      have hw := tells_writeBack (c.failed l f) l he
      rw [hu, hs.now] at hw
      exact hw.after hf
  | panic text => exact .refl c

theorem tells_finish (l : Load) (o : Outcome) :
    Tells c (c.finish l o).2 (c.unreadByEnd l o) := by
  have hs : Tells c ((c.leave l).settle l o).2 (c.unreadByEnd l o) :=
    ((c.leave l).tells_settle l o).congr_left rfl rfl
  -- what is settled stays closed: only the seat, the ending and the executor are told apart
  unfold finish
  generalize (c.leave l).settle l o = p at hs ⊢
  obtain ⟨ending, c'⟩ := p
  have hk : Tells c (c'.clearInFlight l.key) (c.unreadByEnd l o) := hs.congr rfl rfl
  cases l.seat with
  | caller => exact hs
  | worker =>
    cases ending with
    | returned v => exact hk
    | failed fault =>
      exact (hs.andThen (tells_record (e := .failureDropped fault l.key) ⟨rfl, rfl, rfl⟩ _)).congr
        rfl rfl
    | panicked text =>
      obtain ⟨_, _, _, executor, _, _, _, _, _, _, _, _, _⟩ := c'
      cases executor with
      | pool workers room => exact hk.andThen (tells_record ⟨rfl, rfl, rfl⟩ _)
      | _ => exact hk
  | lent byPoller =>
    cases ending with
    | returned v =>
      have hr := hk.andThen (tells_count (k := .reloadsStarted) rfl _)
      cases byPoller with
      | false => exact hr
      | true => exact hr.andThen (tells_record ⟨rfl, rfl, rfl⟩ _)
    | failed fault =>
      have hd := hs.andThen (tells_record (e := .failureDropped fault l.key) ⟨rfl, rfl, rfl⟩ _)
      have hr := (hd.congr (c := (c'.record _).clearInFlight l.key) rfl rfl).andThen
        (tells_count (k := .reloadsStarted) rfl _)
      cases byPoller with
      | false => exact hr
      | true => exact hr.andThen (tells_record ⟨rfl, rfl, rfl⟩ _)
    | panicked text =>
      cases byPoller with
      | false => exact hk
      | true => exact hk.congr rfl rfl

end Loads

/-! ## Offers, gets and visits -/

section Offers

variable (c : Cache)

theorem tells_offer (r : Request) (stale : Option Entry) (byPoller : Bool) :
    Tells c (c.offer r stale byPoller).2 [] := by
  rcases c.offer_cases r stale byPoller with
    ⟨-, ho⟩ | ⟨-, -, ho⟩ | ⟨-, crew, -, ho⟩ | ⟨-, why, -, ho⟩
  · rw [ho]
    exact tells_counted (e := .reloadInFlight r.key) ⟨rfl, rfl, rfl⟩ rfl rfl
  · rw [ho]
    exact (tells_enter (c.markInFlight r.key) r stale (.lent byPoller)).congr_left rfl rfl
  · rw [ho]
    exact (tells_count rfl { c.markInFlight r.key with crew }).congr_left rfl rfl
  · rw [ho]
    exact tells_counted (e := .reloadRefused r.key why) ⟨rfl, rfl, rfl⟩ rfl rfl

theorem tells_looked (r : Request) : Tells c (c.looked r) [] := by
  refine (c.tells_lookup r.key).andThen (tells_count ?_ _)
  generalize Freshness.of _ _ = freshness
  cases freshness <;> rfl

theorem tells_startPoller : Tells c c.startPoller [] := by
  unfold startPoller
  split
  · exact tells_plain ⟨rfl, rfl, rfl⟩ rfl rfl
  · exact .refl c

theorem tells_enroll (r : Request) : Tells c (c.enroll r) [] :=
  (tells_startPoller { c with
    poller := { c.poller with registry := c.poller.registry.insert r } }).congr_left rfl rfl

theorem tells_registerIfAbsent (r : Request) : Tells c (c.registerIfAbsent r).2 [] := by
  unfold registerIfAbsent
  split
  · exact tells_record ⟨rfl, rfl, rfl⟩ c
  · split
    · exact .refl c
    · exact c.tells_enroll r

theorem tells_get (r : Request) : Tells c (c.get r).2 [] := by
  have hl := c.tells_looked r
  rw [get_snd]
  cases c.nextAction r with
  | serve => exact hl
  | loadForCaller => exact hl.andThen (tells_enter ..)
  | serveAndReload => exact hl.andThen (tells_offer ..)
  | serveAndRegister => exact hl.andThen (tells_registerIfAbsent ..)

theorem tells_visit (r : Request) : Tells c (c.visit r).2 [] := by
  cases hp : c.poller.phase with
  | scanning due =>
    have hv : Tells c (c.visited due r) [] := (tells_lookup
      { c with poller := { c.poller with phase := .scanning (due.erase r) } } r.key).congr_left
        rfl rfl
    have ho := hv.andThen (tells_offer (c.visited due r) r (c.visitFinds due r) true)
    rcases visit_snd hp r with hv | ⟨o, hv⟩
    · rw [hv]
      exact ho
    · rw [hv]
      exact ho.andThen (tells_record ⟨rfl, rfl, rfl⟩ _)
  | _ =>
    have hv : (c.visit r).2 = c := by simp [visit, hp]
    rw [hv]
    exact .refl c

end Offers

/-! ## The other operations -/

section Others

variable (c : Cache)

theorem tells_setEntry (k : Key) (e : Entry) : Tells c (c.setEntry k e).2 [] := by
  unfold setEntry
  split
  · exact .refl c
  · exact c.tells_write k e

theorem tells_set (k : Key) (v : Value) (ttl : Nat) : Tells c (c.set k v ttl).2 [] := by
  unfold set
  split
  · exact .refl c
  · exact .refl c
  · exact c.tells_write k _

theorem tells_remove (k : Key) : Tells c (c.remove k).2 [] := by
  have hr : Tells c (c.resetRegistered k) [] := by
    unfold resetRegistered
    split <;> exact tells_nothing rfl rfl
  exact hr.andThen (tells_drop _ k)

theorem tells_resetAll : Tells c c.resetAll [] := by
  unfold resetAll
  generalize c.poller.registry.requests.values = regs
  induction regs generalizing c with
  | nil => exact .refl c
  | cons reg regs ih => exact (ih (c.resetMark reg.request.family)).congr_left rfl rfl

theorem tells_schedule (r : Request) : Tells c (c.schedule r).2 [] := by
  unfold schedule register
  split
  · exact tells_record ⟨rfl, rfl, rfl⟩ c
  · split
    · exact c.tells_enroll r
    · split
      · exact tells_record ⟨rfl, rfl, rfl⟩ c
      · exact (tells_enroll (c.resetMark r.family) r).congr_left rfl rfl

theorem tells_beginScan : Tells c (c.beginScan?.getD c) [] := by
  unfold beginScan?
  split
  · split
    · exact tells_plain ⟨rfl, rfl, rfl⟩ rfl rfl
    · exact .refl c
  · exact .refl c

theorem tells_endScan : Tells c c.endScan [] := by
  unfold endScan
  split
  · have hc := tells_count (k := .schedulerTicks) rfl c
    dsimp only
    split
    · exact (hc.andThen (tells_record (e := .pollerStopped) ⟨rfl, rfl, rfl⟩ _)).congr rfl rfl
    · exact hc.congr rfl rfl
  · exact .refl c

theorem tells_close : Tells c c.close [] := by
  unfold close
  split
  · exact .refl c
  · dsimp only
    split
    · exact tells_plain ⟨rfl, rfl, rfl⟩ rfl rfl
    · exact tells_plain ⟨rfl, rfl, rfl⟩ rfl rfl
    · exact tells_nothing rfl rfl

theorem tells_dispose : Tells c c.dispose [] := by
  unfold dispose
  split
  · exact c.tells_close
  · exact tells_nothing rfl rfl

theorem tells_purged : Tells c c.purged [] := by
  unfold purged
  split <;> exact tells_nothing rfl rfl

end Others

/-! ## Moves and runs -/

/-- The keys that a move reads without a report, though the read fails. -/
def unreadBy (c : Cache) : Move → List Key
  | .finish id o => (c.load? id).elim [] fun l => c.unreadByEnd l o
  | _ => []

/-- **What a move tells,** unless it takes the journal away. -/
theorem tells_after (c : Cache) {m : Move} (hm : m ≠ .forget) :
    Tells c (c.after m) (c.unreadBy m) := by
  cases m with
  | tick now => exact tells_nothing rfl rfl
  | get r => exact c.tells_get r
  | peek k => exact c.tells_lookup k
  | set k v ttl => exact c.tells_set k v ttl
  | setEntry k e => exact c.tells_setEntry k e
  | remove k => exact c.tells_remove k
  | removeAll => exact c.tells_dropAll.andThen (tells_resetAll _)
  | schedule r => exact c.tells_schedule r
  | unschedule k => exact tells_nothing rfl rfl
  | close => exact c.tells_close
  | dispose => exact c.tells_dispose
  | start place =>
    rcases c.after_start place with h | ⟨task, -, h⟩
    · rw [h]
      exact .refl c
    · rw [h]
      exact (tells_enter
        { c with crew := { c.crew with waiting := c.crew.waiting.eraseIdx place } }
        task.request task.stale .worker).congr_left rfl rfl
  | discard place =>
    rcases c.after_discard place with h | ⟨task, -, h⟩
    · rw [h]
      exact .refl c
    · rw [h]
      exact tells_nothing rfl rfl
  | finish id o =>
    simp only [after, unreadBy]
    cases c.load? id with
    | none => exact .refl c
    | some l => exact c.tells_finish l o
  | beginScan => exact c.tells_beginScan
  | visit r =>
    simp only [after]
    split
    · exact c.tells_visit r
    · exact .refl c
  | endScan =>
    simp only [after]
    split
    · exact .refl c
    · exact c.tells_endScan
  | shut => exact tells_nothing rfl rfl
  | purge => exact c.tells_purged
  | forecast f => exact tells_nothing rfl rfl
  | forget => exact absurd rfl hm

/-- The events that a move adds to the journal, the latest first. -/
def noted (c : Cache) (m : Move) : List Event :=
  (c.after m).journal.take ((c.after m).journal.length - c.journal.length)

theorem told_noted (c : Cache) (m : Move) : Told c (c.after m) (c.noted m) (c.unreadBy m) := by
  by_cases hm : m = .forget
  · subst hm
    -- whoever takes the journal adds nothing to it
    have hn : c.noted .forget = [] := by simp [noted, after]
    rw [hn]
    exact told_of_counters rfl
  · obtain ⟨es, hj, ht⟩ := c.tells_after hm
    have hn : c.noted m = es := by simp [noted, hj]
    rw [hn]
    exact ht

/-- All events of a run, the latest first, also those that somebody took on the way. -/
def history (c : Cache) : List Move → List Event
  | [] => []
  | m :: ms => (c.after m).history ms ++ c.noted m

/-- The keys that a run reads without a report, though the read fails. -/
def unreadIn (c : Cache) : List Move → List Key
  | [] => []
  | m :: ms => (c.after m).unreadIn ms ++ c.unreadBy m

/-- **What a run tells.** -/
theorem told_history (c : Cache) (ms : List Move) :
    Told c (c.run ms) (c.history ms) (c.unreadIn ms) := by
  induction ms generalizing c with
  | nil => exact told_of_counters rfl
  | cons m ms ih => exact (c.told_noted m).trans (ih (c.after m))

end Cache

end Evergreen
