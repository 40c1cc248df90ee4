import Evergreen.Proofs.Counts
import Evergreen.Proofs.StoreReports

/-!
# The counters balance

Counters are bumped in many places, before or after what they count. Still they add up: each of
them is the number of moves of some kind, or of events of some kind, and what the executor has
accepted was begun, waits or was dropped.

A reload that runs on the thread that offered it is counted as accepted only when that thread
comes back from it. So two of the equations hold between the steps of the cache, when no thread is
lent (`lentCount`), and the loads on lent threads make up the difference otherwise.

- `Balances`, `balances_after`: what a move does to the two sides of these equations;
- `run_tally`: an equation that every move keeps up, a run keeps up;
- `counters_balance`: all of it, for every run of a cache that was just built.
-/

namespace Evergreen

/-! ## What is counted against what -/

/-- The modes that reload in the background what was found so. -/
def Mode.reloads : Mode → Freshness → Bool
  | .returning, .stale | .async, .stale | .async, .miss => true
  | _, _ => false

theorem Mode.reloads_iff {mode : Mode} {freshness : Freshness} :
    mode.reloads freshness = true ↔ mode.action freshness = .serveAndReload := by
  cases mode <;> cases freshness <;> decide

def Move.isGet : Move → Bool
  | .get _ => true
  | _ => false

/-- A loader was called for a load of a kind. -/
def Event.callsLoader (invocation : Invocation) : Event → Bool
  | .loaderCalled _ _ i .. => i == invocation
  | _ => false

/-- The store has accepted an entry. -/
def Event.acceptsEntry : Event → Bool
  | .storeCalled .set _ (.accepted true _) => true
  | _ => false

def Outcome.isFailure : Outcome → Bool
  | .failure _ => true
  | _ => false

/-- Whether a counter counts what comes of offers, or background loads. -/
def Counter.countsReloads : Counter → Bool
  | reloadsStarted | reloadsDeduplicated | reloadsRejected | backgroundLoads => true
  | _ => false

namespace Cache

/-- A get finds its request stale in return mode, or stale or missing in async mode. -/
def getsReload (c : Cache) : Move → Bool
  | .get r => r.mode.reloads (Freshness.of (c.yields r.key) c.now)
  | _ => false

/-- The poller comes to a request that its scan has left. -/
def visitsDue (c : Cache) : Move → Bool
  | .visit r => c.canVisit r
  | _ => false

/-- A loader that was called returns a failure. -/
def failsLoad (c : Cache) : Move → Bool
  | .finish id o => (c.load? id).isSome && o.isFailure
  | _ => false

/-- A task that waits is dropped. -/
def dropsTask (c : Cache) : Move → Bool
  | .discard place => (c.discard? place).isSome
  | _ => false

/-- How many moves of a run satisfy a condition, each in the cache that it meets. -/
def tally (p : Cache → Move → Bool) (c : Cache) : List Move → Nat
  | [] => 0
  | m :: ms => (p c m).toNat + tally p (c.after m) ms

/-- A loader panics on a thread that was lent to its load, so that the panic goes on through the
offer. -/
def Escapes (c : Cache) (m : Move) : Prop :=
  ∃ l text, c.load? l.id = some l ∧ m = .finish l.id (.panic text) ∧ l.seat.isLent = true

/-- How many loads are under way on the threads that offered them. -/
def lentCount (c : Cache) : Nat := c.crew.held.countP (·.seat.isLent)

/-! ## Runs -/

section Runs

variable {c : Cache} {ms : List Move}

/-- An equation between two sides and a tally, if every move keeps it up, is kept up by a run. -/
theorem run_tally {I : Cache → Prop} {P : Cache → Move → Prop} {p : Cache → Move → Bool}
    {f g : Cache → Nat} (hI : ∀ c m, I c → P c m → I (c.after m))
    (hstep : ∀ c m, I c → P c m → f (c.after m) + g c = f c + g (c.after m) + (p c m).toNat)
    (hc : I c) (hms : Along P c ms) :
    f (c.run ms) + g c = f c + g (c.run ms) + tally p c ms := by
  induction ms generalizing c with
  | nil => rfl
  | cons m ms ih =>
    have hfirst := hstep c m hc hms.1
    have hrest := ih (hI c m hc hms.1) hms.2
    simp only [run_cons, tally]
    omega

/-- A number that some moves make one greater is greater by the tally of these moves. -/
theorem run_tally_of_step {p : Cache → Move → Bool} {f : Cache → Nat}
    (hstep : ∀ c m, f (c.after m) = f c + (p c m).toNat) :
    f (c.run ms) = f c + tally p c ms := by
  induction ms generalizing c with
  | nil => rfl
  | cons m ms ih =>
    have hfirst := hstep c m
    rw [run_cons, ih, hfirst, tally, Nat.add_assoc]

/-- Where two conditions exclude one another, their tallies add up. -/
theorem tally_add {p q r : Cache → Move → Bool}
    (h : ∀ c m, (p c m).toNat = (q c m).toNat + (r c m).toNat) :
    tally p c ms = tally q c ms + tally r c ms := by
  induction ms generalizing c with
  | nil => rfl
  | cons m ms ih =>
    have hfirst := h c m
    simp only [tally, ih]
    omega

/-- Where only the moves matter, their number is what they are in the run. -/
theorem tally_eq_countP {p : Move → Bool} : tally (fun _ m => p m) c ms = ms.countP p := by
  induction ms generalizing c with
  | nil => rfl
  | cons m ms ih =>
    rw [tally, ih, List.countP_cons]
    cases p m <;> simp [Nat.add_comm]

end Runs

/-! ## Gets, failures and scans -/

/-- A move counts one find if it is a get, one failure if it is the end of a load that failed, and
one tick if it is the end of a scan. -/
structure Tallies (c : Cache) (m : Move) : Prop where
  finds : (c.counted m).count .freshHits + (c.counted m).count .staleHits +
    (c.counted m).count .misses = m.isGet.toNat
  failures : (c.counted m).count .loadFailures = (c.failsLoad m).toNat
  ticks : (c.counted m).count .schedulerTicks = (c.completesScan m).toNat

section Single

variable (c : Cache) (m : Move)

theorem offerCount_eq_or : c.offerCount m = [] ∨ ∃ o : Offer, c.offerCount m = [o.count] := by
  unfold offerCount
  cases c.offered? m with
  | none => exact .inl rfl
  | some p => exact .inr ⟨p.2, rfl⟩

theorem tallies_get (r : Request) : Tallies c (.get r) := by
  have hcounted : c.counted (.get r) = c.getCount r := rfl
  have hfound : c.foundBy r = .freshHits ∨ c.foundBy r = .staleHits ∨ c.foundBy r = .misses := by
    unfold foundBy
    cases Freshness.of (c.yields r.key) c.now <;> simp [Freshness.counter]
  -- a load or an offer is counted besides, and neither is a find, a failure or a tick
  have hrest : ∃ ks : List Counter, c.getCount r = c.foundBy r :: ks ∧
      (ks = [] ∨ ks = [.syncLoads] ∨ ∃ o : Offer, ks = [o.count]) := by
    refine ⟨_, rfl, ?_⟩
    split
    · exact .inr (.inl rfl)
    · exact (c.offerCount_eq_or (.get r)).imp_right .inr
  obtain ⟨ks, hks, hrest⟩ := hrest
  constructor <;> rw [hcounted, hks] <;>
    rcases hfound with h | h | h <;> rw [h] <;>
    rcases hrest with rfl | rfl | ⟨(_ | _ | _) | _, rfl⟩ <;> rfl

theorem tallies_visit (r : Request) : Tallies c (.visit r) := by
  have hcounted : c.counted (.visit r) = c.offerCount (.visit r) := rfl
  constructor <;> rw [hcounted] <;>
    rcases c.offerCount_eq_or (.visit r) with h | ⟨(_ | _ | _) | _, h⟩ <;> rw [h] <;> rfl

theorem tallies_finish (id : Nat) (o : Outcome) : Tallies c (.finish id o) := by
  cases h : c.load? id with
  | none =>
    have hcounted : c.counted (.finish id o) = [] := by simp [counted, h]
    have hfails : c.failsLoad (.finish id o) = false := by simp [failsLoad, h]
    constructor
    · rw [hcounted]
      rfl
    · rw [hcounted, hfails]
      rfl
    · rw [hcounted]
      rfl
  | some l =>
    have hcounted : c.counted (.finish id o) = endCount l o := by simp [counted, h]
    have hfails : c.failsLoad (.finish id o) = o.isFailure := by simp [failsLoad, h]
    -- the offer that ends with the load is neither a find, a failure nor a tick
    have hend : endCount l o = failureCount o ∨
        endCount l o = failureCount o ++ [.reloadsStarted] := by
      unfold endCount
      cases o <;> cases l.seat.isLent <;> simp [failureCount]
    constructor
    · rw [hcounted]
      rcases hend with he | he <;> rw [he] <;> cases o <;> rfl
    · rw [hcounted, hfails]
      rcases hend with he | he <;> rw [he] <;> cases o <;> rfl
    · rw [hcounted]
      rcases hend with he | he <;> rw [he] <;> cases o <;> rfl

/-- **What a move counts of these.** -/
theorem tallies_after : Tallies c m := by
  cases m with
  | get r => exact c.tallies_get r
  | visit r => exact c.tallies_visit r
  | finish id o => exact c.tallies_finish id o
  | start place =>
    have hcounted : c.counted (.start place) =
      if (c.start? place).isSome then [.backgroundLoads] else [] := rfl
    constructor <;> rw [hcounted] <;> split <;> rfl
  | endScan =>
    have hcounted : c.counted .endScan =
      if c.completesScan .endScan then [.schedulerTicks] else [] := rfl
    constructor <;> rw [hcounted] <;> cases c.completesScan .endScan <;> rfl
  | _ => exact ⟨rfl, rfl, rfl⟩

theorem lookups_after : (c.after m).counters.lookups = c.counters.lookups + m.isGet.toNat := by
  have hcounts := (c.counts_after m).counters
  have hfinds := (c.tallies_after m).finds
  unfold Counters.lookups
  rw [hcounts _ rfl, hcounts _ rfl, hcounts _ rfl]
  omega

theorem loadFailures_after : (c.after m).counters .loadFailures =
    c.counters .loadFailures + (c.failsLoad m).toNat := by
  rw [(c.counts_after m).counters _ rfl, (c.tallies_after m).failures]

theorem schedulerTicks_after : (c.after m).counters .schedulerTicks =
    c.counters .schedulerTicks + (c.completesScan m).toNat := by
  rw [(c.counts_after m).counters _ rfl, (c.tallies_after m).ticks]

end Single

/-! ## Offers and tasks -/

/-- A move makes an offer and counts what comes of it, or begins a load on a thread that it lends;
and what it counts as accepted is begun, waits, or was dropped. -/
structure Balances (c : Cache) (m : Move) : Prop where
  offers : (c.counted m).count .reloadsStarted + (c.counted m).count .reloadsDeduplicated +
    (c.counted m).count .reloadsRejected + (c.after m).lentCount =
      c.lentCount + (c.offered? m).isSome.toNat
  tasks : (c.counted m).count .reloadsStarted + (c.after m).lentCount + c.crew.waiting.length =
    c.lentCount + (c.counted m).count .backgroundLoads + (c.after m).crew.waiting.length +
      (c.dropsTask m).toNat

section Offers

variable {c : Cache} {m : Move}

/-- Nothing is offered, begun or dropped. -/
theorem balances_of_idle (hcount : ∀ k, k.countsReloads = true → (c.counted m).count k = 0)
    (hoffer : c.offered? m = none) (hdrop : c.dropsTask m = false)
    (hheld : (c.after m).crew.held = c.crew.held)
    (hwaiting : (c.after m).crew.waiting = c.crew.waiting) : Balances c m := by
  constructor
  · rw [hcount _ rfl, hcount _ rfl, hcount _ rfl, hoffer, lentCount, hheld]
    simp [lentCount]
  · rw [hcount _ rfl, hcount _ rfl, hdrop, hwaiting, lentCount, hheld]
    simp [lentCount]

/-- What comes of an offer, and what is counted of it. -/
theorem balances_of_comes {r : Request} {stale : Option Entry} {byPoller : Bool} {o : Offer}
    (hcomes : Comes c r stale byPoller (c.after m) o) (hoffer : c.offered? m = some (r, o))
    (hcount : ∀ k, k.countsReloads = true → (c.counted m).count k = [o.count].count k)
    (hdrop : c.dropsTask m = false) : Balances c m := by
  have hlent : (c.nextOf r stale (.lent byPoller)).seat.isLent = true := rfl
  constructor
  · rw [hcount _ rfl, hcount _ rfl, hcount _ rfl, hoffer]
    unfold lentCount
    cases hcomes with
    | inFlight _ h | queued _ h | refused _ _ _ h =>
      rw [h.held]
      simp [Offer.count, Nat.add_comm]
    | running _ _ h =>
      rw [h.held]
      simp [Offer.count, Crew.hold, hlent]
  · rw [hcount _ rfl, hcount _ rfl, hdrop]
    unfold lentCount
    cases hcomes with
    | inFlight _ h | refused _ _ _ h =>
      rw [h.held, h.waiting]
      simp [Offer.count]
    | queued _ h =>
      rw [h.held, h.waiting]
      simp [Offer.count]
      omega
    | running _ _ h =>
      rw [h.held, h.waiting]
      simp [Offer.count, Crew.hold, hlent]

/-- What a get finds has no share in offers. -/
theorem count_foundBy_cons {r : Request} {ks : List Counter} {k : Counter}
    (hk : k.countsReloads = true) : (c.foundBy r :: ks).count k = ks.count k := by
  refine List.count_cons_of_ne ?_
  unfold foundBy
  rintro rfl
  revert hk
  cases Freshness.of (c.yields r.key) c.now <;> nofun

/-- A get that calls no loader and offers nothing leaves offers and tasks alone. -/
theorem balances_get_of_sameTasks {r : Request} (hl : c.nextAction r ≠ .loadForCaller)
    (ho : c.nextAction r ≠ .serveAndReload) (hs : SameTasks c (c.after (.get r))) :
    Balances c (.get r) := by
  have hcounted : c.counted (.get r) = c.getCount r := rfl
  have hoffer : c.offered? (.get r) = none := if_neg ho
  refine balances_of_idle (fun k hk => ?_) hoffer rfl hs.held hs.waiting
  rw [hcounted, getCount, count_foundBy_cons hk, if_neg hl, offerCount, hoffer]
  rfl

theorem balances_get (c : Cache) (r : Request) : Balances c (.get r) := by
  have hcounted : c.counted (.get r) = c.getCount r := rfl
  have hs := (c.storeOnly_looked r).sameTasks
  cases ha : c.nextAction r with
  | serveAndReload =>
    obtain ⟨o, ho, hcomes, -⟩ := (servesAndReloads ha).offered
    refine balances_of_comes hcomes ho (fun k hk => ?_) rfl
    rw [hcounted, getCount, count_foundBy_cons hk, ha, offerCount, ho]
    rfl
  | loadForCaller =>
    have he := (c.looked r).sameTasks_enter_caller r (c.usable r)
    have hafter : c.after (.get r) = ((c.looked r).enter r (c.usable r) .caller).2 := by
      show (c.get r).2 = _
      rw [get_snd, ha]
    refine balances_of_idle (fun k hk => ?_) (if_neg (by simp [ha])) rfl ?_ ?_
    · rw [hcounted, getCount, count_foundBy_cons hk, if_pos ha]
      exact List.count_eq_zero.2 (by rintro h; cases List.mem_singleton.1 h; cases hk)
    · rw [hafter, he.held]
      exact hs.held
    · rw [hafter, he.waiting]
      exact hs.waiting
  | serve =>
    have hafter : c.after (.get r) = c.looked r := by
      show (c.get r).2 = _
      rw [get_snd, ha]
    exact balances_get_of_sameTasks (by simp [ha]) (by simp [ha]) (hafter ▸ hs)
  | serveAndRegister =>
    exact balances_get_of_sameTasks (by simp [ha]) (by simp [ha]) (servesAndRegisters ha).sameTasks

theorem balances_visit (c : Cache) (r : Request) : Balances c (.visit r) := by
  have hcounted : c.counted (.visit r) = c.offerCount (.visit r) := rfl
  by_cases hv : c.canVisit r = true
  · obtain ⟨o, ho, hcomes⟩ := comes_visit hv
    have hafter : c.after (.visit r) = (c.visit r).2 := if_pos hv
    rw [← hafter] at hcomes
    refine balances_of_comes hcomes ho (fun k _ => ?_) rfl
    rw [hcounted, offerCount, ho]
    rfl
  · have hafter : c.after (.visit r) = c := if_neg hv
    have hoffer : c.offered? (.visit r) = none := if_neg hv
    refine balances_of_idle (fun k _ => ?_) hoffer rfl ?_ ?_
    · rw [hcounted, offerCount, hoffer]
      rfl
    · rw [hafter]
    · rw [hafter]

/-- A task that leaves the queue leaves one less there. -/
theorem length_eraseIdx_waiting {place : Nat} {task : Reload}
    (h : c.crew.waiting[place]? = some task) :
    (c.crew.waiting.eraseIdx place).length + 1 = c.crew.waiting.length := by
  have hlt := (List.getElem?_eq_some_iff.1 h).1
  rw [List.length_eraseIdx_of_lt hlt]
  omega

theorem balances_start (c : Cache) (place : Nat) : Balances c (.start place) := by
  cases hs : c.start? place with
  | none =>
    have hafter : c.after (.start place) = c := by simp [after, hs]
    refine balances_of_idle (fun k _ => by simp [counted, hs]) rfl rfl ?_ ?_
    · rw [hafter]
    · rw [hafter]
  | some p =>
    -- one task less waits, one load more is under way, and no thread is lent to it
    obtain ⟨l, c'⟩ := p
    obtain ⟨task, hw, hc'⟩ := start?_eq_some hs
    have hafter : c.after (.start place) = c' := by simp [after, hs]
    have hcounted : c.counted (.start place) = [.backgroundLoads] := by simp [counted, hs]
    have he := sameTasks_enter_background
      { c with crew := { c.crew with waiting := c.crew.waiting.eraseIdx place } }
      task.request task.stale .worker (by simp)
    rw [← hc'] at he
    have hlent : c'.lentCount = c.lentCount := by
      unfold lentCount
      rw [he.held]
      simp [Crew.hold, nextOf, Seat.isLent]
    have hwaiting : c'.crew.waiting.length + 1 = c.crew.waiting.length := by
      rw [he.waiting]
      exact length_eraseIdx_waiting hw
    constructor
    · rw [hcounted, hafter, hlent]
      exact Nat.zero_add _
    · rw [hcounted, hafter, hlent, ← hwaiting]
      simp [dropsTask]
      omega

theorem balances_discard (c : Cache) (place : Nat) : Balances c (.discard place) := by
  cases hd : c.discard? place with
  | none =>
    have hafter : c.after (.discard place) = c := by simp [after, hd]
    refine balances_of_idle (fun k _ => rfl) rfl (by simp [dropsTask, hd]) ?_ ?_
    · rw [hafter]
    · rw [hafter]
  | some p =>
    obtain ⟨task, c'⟩ := p
    obtain ⟨hw, hc'⟩ := discard?_eq_some hd
    have hafter : c.after (.discard place) = c' := by simp [after, hd]
    have hlent : c'.lentCount = c.lentCount := by rw [hc']; rfl
    have hwaiting : c'.crew.waiting.length + 1 = c.crew.waiting.length := by
      rw [hc']
      exact length_eraseIdx_waiting hw
    constructor
    · rw [hafter, hlent]
      exact Nat.zero_add _
    · rw [hafter, hlent, ← hwaiting]
      simp [counted, dropsTask, hd]
      omega

/-- A load that ends gives its thread back, if it was lent. -/
theorem lentCount_leave (hc : c.Accounted) {l : Load} (hl : l ∈ c.loads) :
    (c.leave l).lentCount + l.seat.isLent.toNat = c.lentCount := by
  have hnumbered := hc.numbered
  rw [loads, List.map_append, List.nodup_append] at hnumbered
  show (c.crew.held.filter fun l' => !(l'.id == l.id)).countP _ + _ = c.crew.held.countP _
  by_cases hs : l.seat = .caller
  · have hmem : l ∈ c.callers := (hc.mem_callers_iff hl).2 hs
    have hid : l.id ∉ c.crew.held.map Load.id :=
      fun h => hnumbered.2.2 _ (List.mem_map_of_mem hmem) _ h rfl
    rw [filter_eq_self_of_id hid, hs]
    rfl
  · have hmem : l ∈ c.crew.held := (hc.mem_held_iff hl).2 hs
    rw [(perm_cons_filter hmem hnumbered.2.1).countP_eq, List.countP_cons]
    cases l.seat.isLent <;> rfl

/-- The offer that has lent its thread to a load is counted when the load gives it back, unless a
panic goes on through the offer. -/
theorem count_endCount {l : Load} {o : Outcome} {k : Counter} (hk : k.countsReloads = true)
    (hpanic : ∀ text, o = .panic text → l.seat.isLent = false) :
    (endCount l o).count k = if k = .reloadsStarted then l.seat.isLent.toNat else 0 := by
  have hend : endCount l o = failureCount o ++ if l.seat.isLent then [.reloadsStarted] else [] := by
    cases o with
    | panic text =>
      rw [hpanic text rfl]
      rfl
    | value v cacheable => rfl
    | failure f => rfl
  have hfailure : (failureCount o).count k = 0 := by
    refine List.count_eq_zero.2 fun hmem => ?_
    cases o with
    | failure f =>
      cases List.mem_singleton.1 hmem
      cases hk
    | _ => cases hmem
  rw [hend, List.count_append, hfailure, Nat.zero_add]
  cases l.seat.isLent with
  | false => simp
  | true =>
    by_cases hne : k = .reloadsStarted
    · simp [hne]
    · simp [hne, Ne.symm hne]

theorem balances_finish (hc : c.Accounted) {id : Nat} {o : Outcome}
    (hm : ¬ c.Escapes (.finish id o)) : Balances c (.finish id o) := by
  cases h : c.load? id with
  | none =>
    have hafter : c.after (.finish id o) = c := by simp [after, h]
    refine balances_of_idle (fun k _ => by simp [counted, h]) rfl rfl ?_ ?_
    · rw [hafter]
    · rw [hafter]
  | some l =>
    obtain ⟨rfl, hl⟩ := load?_self h
    have hcounted : c.counted (.finish l.id o) = endCount l o := by simp [counted, h]
    have hafter := after_finish hl o
    have hs := c.sameTasks_finish l o
    have hpanic : ∀ text, o = .panic text → l.seat.isLent = false := by
      rintro text rfl
      rw [Bool.eq_false_iff]
      exact fun hseat => hm ⟨l, text, hl, rfl, hseat⟩
    have hlent : (c.finish l o).2.lentCount + l.seat.isLent.toNat = c.lentCount := by
      rw [← lentCount_leave hc (List.mem_of_find?_eq_some hl), lentCount, hs.held]
      rfl
    have hcount {k : Counter} (hk : k.countsReloads = true) := count_endCount (l := l) hk hpanic
    constructor
    · rw [hcounted, hafter, hcount rfl, hcount rfl, hcount rfl]
      simp only [reduceCtorEq, if_true, if_false, offered?, Option.isSome_none, Bool.toNat_false]
      omega
    · rw [hcounted, hafter, hcount rfl, hcount rfl, hs.waiting]
      simp only [reduceCtorEq, if_true, if_false, dropsTask, Bool.toNat_false]
      show _ + c.crew.waiting.length = _ + c.crew.waiting.length + _
      omega

theorem balances_of_leavesTasks (hm : leavesTasks m = true)
    (hcount : ∀ k, k.countsReloads = true → (c.counted m).count k = 0) : Balances c m := by
  have hs := c.sameTasks_after hm
  refine balances_of_idle hcount ?_ ?_ hs.held hs.waiting
  · cases m <;> first | rfl | cases hm
  · cases m <;> first | rfl | cases hm

/-- **What a move does to offers and tasks.** -/
theorem balances_after (hc : c.Accounted) (hm : ¬ c.Escapes m) : Balances c m := by
  cases m with
  | get r => exact c.balances_get r
  | visit r => exact c.balances_visit r
  | start place => exact c.balances_start place
  | discard place => exact c.balances_discard place
  | finish id o => exact balances_finish hc hm
  | endScan =>
    refine balances_of_leavesTasks rfl fun k hk => ?_
    show (if c.completesScan .endScan then [Counter.schedulerTicks] else []).count k = 0
    split
    · exact List.count_eq_zero.2 (by rintro h; cases List.mem_singleton.1 h; cases hk)
    · rfl
  | _ => exact balances_of_leavesTasks rfl fun _ _ => rfl

/-- A get makes an offer if it finds its request stale in return mode, or stale or missing in
async mode, and the poller makes one wherever it comes to a request. -/
theorem offered?_isSome (c : Cache) (m : Move) :
    (c.offered? m).isSome.toNat = (c.getsReload m).toNat + (c.visitsDue m).toNat := by
  cases m with
  | get r =>
    show _ = (r.mode.reloads (Freshness.of (c.yields r.key) c.now)).toNat + 0
    unfold offered?
    dsimp only
    split
    · rename_i ha
      rw [nextAction_eq, ← Mode.reloads_iff] at ha
      rw [ha]
      rfl
    · rename_i ha
      rw [nextAction_eq, ← Mode.reloads_iff, Bool.not_eq_true] at ha
      rw [ha]
      rfl
  | visit r =>
    show _ = 0 + (c.canVisit r).toNat
    unfold offered?
    dsimp only
    cases c.canVisit r <;> rfl
  | _ => rfl

end Offers

/-! ## The balance -/

section Balance

variable {c : Cache} {ms : List Move}

/-- Each offer of a run has come to something, or its load is under way on the thread that made
it. -/
theorem offers_run (hc : c.Accounted) (hms : Along (fun c m => ¬ c.Escapes m) c ms) :
    (c.run ms).counters .reloadsStarted + (c.run ms).counters .reloadsDeduplicated +
        (c.run ms).counters .reloadsRejected + (c.run ms).lentCount =
      c.counters .reloadsStarted + c.counters .reloadsDeduplicated +
        c.counters .reloadsRejected + c.lentCount +
        (tally getsReload c ms + tally visitsDue c ms) := by
  rw [← tally_add offered?_isSome]
  refine run_tally (I := Accounted) (f := fun c => c.counters .reloadsStarted +
    c.counters .reloadsDeduplicated + c.counters .reloadsRejected + c.lentCount)
    (g := fun _ => 0) (fun c m h _ => h.after m) (fun c m h hm => ?_) hc hms
  have hoffers := (balances_after h hm).offers
  have hcounts := (c.counts_after m).counters
  have hstarted := hcounts .reloadsStarted rfl
  have hdeduplicated := hcounts .reloadsDeduplicated rfl
  have hrejected := hcounts .reloadsRejected rfl
  omega

/-- What the executor has accepted in a run was begun, waits, or was dropped; what runs on the
thread that offered it is begun before it counts as accepted. -/
theorem tasks_run (hc : c.Accounted) (hms : Along (fun c m => ¬ c.Escapes m) c ms) :
    (c.run ms).counters .reloadsStarted + (c.run ms).lentCount +
        (c.counters .backgroundLoads + c.crew.waiting.length) =
      c.counters .reloadsStarted + c.lentCount +
        ((c.run ms).counters .backgroundLoads + (c.run ms).crew.waiting.length) +
        tally dropsTask c ms := by
  refine run_tally (I := Accounted) (f := fun c => c.counters .reloadsStarted + c.lentCount)
    (g := fun c => c.counters .backgroundLoads + c.crew.waiting.length)
    (fun c m h _ => h.after m) (fun c m h hm => ?_) hc hms
  have htasks := (balances_after h hm).tasks
  have hcounts := (c.counts_after m).counters
  have hstarted := hcounts .reloadsStarted rfl
  have hbackground := hcounts .backgroundLoads rfl
  omega

/-- A counter that stands for events of a kind is as great as there were such events. -/
theorem counters_run_of_events {k : Counter} {p : Event → Bool} (hk : k.countsEvents = true)
    (hp : ∀ e : Event, e.counter? = some k ↔ p e = true) :
    (c.run ms).counters k = c.counters k + (c.history ms).countP p := by
  rw [(c.told_history ms).counters k hk]
  congr 1
  refine List.countP_congr fun e _ => ?_
  rw [decide_eq_true_iff, hp]

/-- The events that three of the counters stand for. -/
theorem counter?_eq_some_iff (e : Event) :
    (e.counter? = some .syncLoads ↔ e.callsLoader .sync = true) ∧
    (e.counter? = some .backgroundLoads ↔ e.callsLoader .background = true) ∧
    (e.counter? = some .writes ↔ e.acceptsEntry = true) := by
  cases e with
  | loaderCalled key call invocation mode stale =>
    cases invocation <;> simp [Event.counter?, Event.callsLoader, Event.acceptsEntry]
  | storeCalled op key answer =>
    cases op <;> rcases answer with _ | _ | ⟨_ | _, _⟩ | _ | _ <;>
      simp [Event.counter?, Event.callsLoader, Event.acceptsEntry]
  | _ => simp [Event.counter?, Event.callsLoader, Event.acceptsEntry]

/-- A cache that was just built has no tasks. -/
theorem idle_of_launched (hc : c.Launched) : c.crew.held = [] ∧ c.crew.waiting = [] := by
  obtain ⟨⟨b, now, hb⟩, -⟩ := hc
  obtain ⟨executor, rfl⟩ := eq_of_build hb
  cases executor <;> exact ⟨rfl, rfl⟩

/-- **The counters balance.** In every run of a cache that was just built:

1. as many lookups are counted as there were gets;
2. as many loads are counted as loaders were called, for callers and in the background;
3. as many failures are counted as loaders that were called returned one;
4. as many scans are counted as were completed;
5. as many writes are counted as there were entries that the store accepted.

And if no loader has panicked through the offer that runs it, while no thread is lent to a load:

6. the reloads that were accepted, dropped as copies, or refused are as many as there were gets
   that found their request stale in return mode, or stale or missing in async mode, and visits
   of the poller to what is due;
7. each reload that was accepted was begun, waits, or was dropped. -/
theorem counters_balance (hc : c.Launched) (ms : List Move) :
    (c.run ms).counters.lookups = ms.countP Move.isGet ∧
    (c.run ms).counters .syncLoads = (c.history ms).countP (Event.callsLoader .sync) ∧
    (c.run ms).counters .backgroundLoads =
      (c.history ms).countP (Event.callsLoader .background) ∧
    (c.run ms).counters .loadFailures = tally failsLoad c ms ∧
    (c.run ms).counters .schedulerTicks = tally completesScan c ms ∧
    (c.run ms).counters .writes = (c.history ms).countP Event.acceptsEntry ∧
    (Along (fun c m => ¬ c.Escapes m) c ms → (c.run ms).lentCount = 0 →
      (c.run ms).counters .reloadsStarted + (c.run ms).counters .reloadsDeduplicated +
          (c.run ms).counters .reloadsRejected = tally getsReload c ms + tally visitsDue c ms ∧
      (c.run ms).counters .reloadsStarted = (c.run ms).counters .backgroundLoads +
        (c.run ms).crew.waiting.length + tally dropsTask c ms) := by
  have haccounted := accounted_of_launched hc
  obtain ⟨hheld, hwaiting⟩ := idle_of_launched hc
  have hzero (k : Counter) : c.counters k = 0 := by rw [counters_of_launched hc]; rfl
  have hlent : c.lentCount = 0 := by rw [lentCount, hheld]; rfl
  refine ⟨?_, ?_, ?_, ?_, ?_, ?_, fun hms hrest => ⟨?_, ?_⟩⟩
  · have h : (c.run ms).counters.lookups = c.counters.lookups + tally (fun _ m => m.isGet) c ms :=
      run_tally_of_step (f := fun c => c.counters.lookups) lookups_after
    rw [h, tally_eq_countP, Counters.lookups, hzero, hzero, hzero]
    exact Nat.zero_add _
  · rw [counters_run_of_events rfl fun e => (counter?_eq_some_iff e).1, hzero, Nat.zero_add]
  · rw [counters_run_of_events rfl fun e => (counter?_eq_some_iff e).2.1, hzero, Nat.zero_add]
  · have h : (c.run ms).counters .loadFailures = c.counters .loadFailures + tally failsLoad c ms :=
      run_tally_of_step (f := fun c => c.counters .loadFailures) loadFailures_after
    rw [h, hzero, Nat.zero_add]
  · have h : (c.run ms).counters .schedulerTicks =
        c.counters .schedulerTicks + tally completesScan c ms :=
      run_tally_of_step (f := fun c => c.counters .schedulerTicks) schedulerTicks_after
    rw [h, hzero, Nat.zero_add]
  · rw [counters_run_of_events rfl fun e => (counter?_eq_some_iff e).2.2, hzero, Nat.zero_add]
  · have h := offers_run haccounted hms
    rw [hzero, hzero, hzero, hlent, hrest] at h
    omega
  · have h := tasks_run haccounted hms
    rw [hzero, hzero, hlent, hrest, hwaiting] at h
    simp only [List.length_nil] at h
    omega

/-- A reload that runs on the thread that asked for it, until it has its value. -/
def reloadedInPlace : List Move := [.get profile, .finish 0 (.value "v" true)]

/-- Such a reload counts as accepted and begun. -/
theorem counters_balance_reloadedInPlace :
    ((overMap .inPlace).run reloadedInPlace).counters .reloadsStarted = 1 ∧
    ((overMap .inPlace).run reloadedInPlace).counters .backgroundLoads = 1 := by
  have hms : Along (fun c m => ¬ c.Escapes m) (overMap .inPlace) reloadedInPlace := by
    refine ⟨?_, ?_, trivial⟩
    · rintro ⟨l, text, -, h, -⟩
      cases h
    · rintro ⟨l, text, -, h, -⟩
      cases (Move.finish.inj h).2
  obtain ⟨-, -, -, -, -, -, hoffered⟩ :=
    counters_balance (launched_overMap .inPlace) reloadedInPlace
  obtain ⟨hoffers, htasks⟩ := hoffered hms (by decide)
  have hfound : tally getsReload (overMap .inPlace) reloadedInPlace = 1 := by decide
  have hvisits : tally visitsDue (overMap .inPlace) reloadedInPlace = 0 := by decide
  have hdropped : tally dropsTask (overMap .inPlace) reloadedInPlace = 0 := by decide
  have hwaiting : ((overMap .inPlace).run reloadedInPlace).crew.waiting.length = 0 := by decide
  have hdeduplicated :
      ((overMap .inPlace).run reloadedInPlace).counters .reloadsDeduplicated = 0 := by decide
  have hrejected :
      ((overMap .inPlace).run reloadedInPlace).counters .reloadsRejected = 0 := by decide
  omega

end Balance

end Cache

end Evergreen
