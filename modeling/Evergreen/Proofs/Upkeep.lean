import Evergreen.Proofs.Deadlines
import Evergreen.Proofs.MarkSteps
import Evergreen.Proofs.PollerSteps
import Evergreen.Proofs.Singleflight
import Evergreen.Proofs.Times

/-!
# One request in the poller's care

What a run must satisfy for the poller to keep a request fresh, and what a move of such a run
does for it.

- `Prompt`: the clock waits for the poller and for the loads of the request, which succeed, and
  nobody else touches its key;
- `Obliges`: the executor takes the reloads it is offered, and no panic ends the poller;
- `Tended`, `Tended.after`: what holds along a run of such moves, before and after the request is
  registered;
- `upkeep_after`: a move ends a load of the request, whose value is kept and whose mark is set,
  or leaves mark and tasks alone;
- `Outstanding.after`: a request that a scan has left to visit, or whose reload is in flight,
  stays so until its load ends.
-/

namespace Evergreen

/-- A request is a copy of `r`, or has another key and another loader. -/
def Request.CopyOrOther (r q : Request) : Prop :=
  q = r ∨ q.key ≠ r.key ∧ q.family ≠ r.family

theorem Request.CopyOrOther.eq_of_key {r q : Request} (h : r.CopyOrOther q)
    (hk : q.key = r.key) : q = r :=
  h.elim id fun h => absurd hk h.1

theorem Request.CopyOrOther.eq_of_family {r q : Request} (h : r.CopyOrOther q)
    (hf : q.family = r.family) : q = r :=
  h.elim id fun h => absurd hf h.2

/-- The clock may show a reading without the poller missing anything: no scan is going on, and
the next one is not due before. -/
def Poller.Permits (p : Poller) (now : Nat) : Prop :=
  match p.phase with
  | .waiting deadline => now ≤ deadline
  | .scanning _ => False
  | .unstarted | .crashed | .finished => True

namespace Cache

/-! ## Runs that let the poller do its work -/

/-- No task of a key waits, and no load of it is under way. -/
def AtRest (c : Cache) (k : Key) : Prop := k ∉ c.taskKeys ∧ ∀ l ∈ c.loads, l.key ≠ k

/-- A move of a run in which the poller wakes up when it should and is not closed, tasks and
loads of a request take no time, its loader has a value to be stored, the store does not fail,
and the key is touched by the poller and by copies of the request alone. -/
def Prompt (r : Request) (c : Cache) : Move → Prop
  | .tick now => now < Clock.lap ∧ c.AtRest r.key ∧ c.poller.Permits now
  | .get q | .schedule q => q.WellFormed ∧ r.CopyOrOther q
  | .set k _ _ | .remove k | .unschedule k => k ≠ r.key
  | .setEntry k e => k ≠ r.key ∧ e.Built c.now
  | .removeAll | .close | .dispose => False
  | .discard place => ∀ task, c.crew.waiting[place]? = some task → task.key ≠ r.key
  | .finish id o => ∀ l, c.load? id = some l → l.key = r.key → ∃ v, o = .value v true
  | .forecast f => f.Fair
  | .peek _ | .start _ | .beginScan | .visit _ | .endScan | .shut | .purge | .forget => True

/-- The executor refuses no reload of a key that it is offered, and no panic of a loader ends the
poller. -/
structure Obliges (k : Key) (c : Cache) (m : Move) : Prop where
  accepts : ∀ q why, c.offered? m = some (q, .done (.refused why)) → q.key ≠ k
  contains : ∀ l text, m = .finish l.id (.panic text) → c.load? l.id = some l →
    l.seat ≠ .lent true

section Obliging

variable {k : Key} {c : Cache} {m : Move}

/-- Where nothing is offered and no loader panics, nothing can go wrong. -/
theorem obliges_of_unoffered (h : c.offered? m = none)
    (hp : ∀ id text, m ≠ .finish id (.panic text)) : Obliges k c m where
  accepts q why ho := by
    rw [h] at ho
    cases ho
  contains l text hm := absurd hm (hp l.id text)

theorem obliges_of_taken {q : Request} {o : Offer} (h : c.offered? m = some (q, o))
    (ho : o.taken = true) (hp : ∀ id text, m ≠ .finish id (.panic text)) : Obliges k c m where
  accepts q' why ho' := by
    rw [h] at ho'
    cases ho'
    cases ho
  contains l text hm := absurd hm (hp l.id text)

end Obliging

theorem Prompt.allows {r : Request} {c : Cache} {m : Move} (h : Prompt r c m) : c.Allows m := by
  cases m with
  | get q => exact h.1
  | schedule q => exact h.1
  | setEntry k e => exact h.2
  | _ => trivial

/-! ## What holds along such a run -/

/-- A request is the only one of its key, and of its loader. -/
structure Sole (r : Request) (c : Cache) : Prop where
  inHand : ∀ q, c.InHand q → r.CopyOrOther q
  registered : ∀ k q, c.poller.registry.request? k = some q → q.key = k ∧ r.CopyOrOther q
  left : ∀ q ∈ c.scanLeft, r.CopyOrOther q

/-- The poller has started if it has anything to do, and it will wake up within its interval. If
it has crashed, there was no timer for a deadline that far away. -/
def OnTime (p : Poller) (now : Nat) : Prop :=
  match p.phase with
  | .unstarted => ∀ k, p.registry.request? k = none
  | .waiting deadline => now ≤ deadline ∧ deadline ≤ now + p.interval
  | .scanning _ => True
  | .crashed => Clock.lap ≤ p.interval
  | .finished => False

/-- What a run keeps up that lets the poller do its work on a request. -/
structure Tended (r : Request) (c : Cache) : Prop where
  reachable : c.Reachable
  fair : c.backing.forecast.Fair
  inTime : c.now < Clock.lap
  isOpen : c.poller.closed = false
  sole : Sole r c
  onTime : OnTime c.poller c.now
  instant : ∀ l ∈ c.loads, l.key = r.key → l.started = c.now

section Steps

variable {r : Request} {c : Cache} {m : Move}

/-- No timer can be set to a deadline within a lap from now only if the way there is longer. -/
theorem lap_le_of_unreachable {now d : Nat} (h : now < Clock.lap)
    (hd : Clock.reachable (now + d) = false) : Clock.lap ≤ d := by
  have hfar : wordSize / 2 ≤ (now + d) / Clock.second := by simpa [Clock.reachable] using hd
  unfold Clock.lap at h ⊢
  unfold wordSize at *
  unfold Clock.second at hfar
  omega

/-- A poller that waits from now on is on time. -/
theorem onTime_await (p : Poller) {now : Nat} (h : now < Clock.lap) :
    OnTime (p.await now) now := by
  cases hd : Clock.reachable (now + p.interval) with
  | true =>
    have hp : p.await now = { p with phase := .waiting (now + p.interval) } := by
      simp [Poller.await, hd]
    rw [hp]
    exact ⟨Nat.le_add_right .., Nat.le_refl _⟩
  | false =>
    have hp : p.await now = { p with phase := .crashed } := by simp [Poller.await, hd]
    rw [hp]
    exact lap_le_of_unreachable h hd

/-- A registration leaves the poller on time: the first of them sets the first deadline. -/
theorem OnTime.enrolled {p : Poller} {now : Nat} (h : OnTime p now) (hn : now < Clock.lap)
    (q : Request) : OnTime (p.enrolled q now) now := by
  unfold Poller.enrolled
  cases hp : p.phase with
  | unstarted => exact onTime_await _ hn
  | _ =>
    -- the poller was started before, and only its registry is another
    unfold OnTime at h
    rw [hp] at h
    exact h

/-- A poller that has a request has been started. -/
theorem OnTime.started {p : Poller} {now : Nat} (h : OnTime p now) {k : Key} {q : Request}
    (hq : p.registry.request? k = some q) : p.phase ≠ .unstarted := by
  intro hp
  unfold OnTime at h
  rw [hp] at h
  rw [h k] at hq
  cases hq

theorem OnTime.erase {p : Poller} {now : Nat} (h : OnTime p now) (k : Key) :
    OnTime { p with registry := p.registry.erase k } now := by
  unfold OnTime at h ⊢
  dsimp only
  cases hp : p.phase with
  | unstarted =>
    rw [hp] at h
    intro k'
    rw [Registry.request?_erase, h k']
    split <;> rfl
  | _ =>
    rw [hp] at h
    exact h

/-- Time that stops at the deadline leaves the poller on time. -/
theorem OnTime.tick {p : Poller} {now now' : Nat} (h : OnTime p now) (hp : p.Permits now') :
    OnTime p (max now now') := by
  unfold OnTime at h ⊢
  unfold Poller.Permits at hp
  cases hphase : p.phase with
  | waiting deadline =>
    rw [hphase] at h hp
    dsimp only at h hp ⊢
    omega
  | _ =>
    rw [hphase] at h
    exact h

/-- Nothing else of the key or the family comes in by such a move. -/
theorem Sole.after (h : Sole r c) (hm : Prompt r c m) : Sole r (c.after m) where
  inHand q hq := by
    rcases inHand_after hq with hq | rfl | ⟨rfl, can⟩
    · exact h.inHand q hq
    · exact hm.2
    · exact h.left q (mem_scanLeft_of_canVisit can)
  registered k q hq := by
    rcases (c.pollerStep_after m).request?_eq_some hq with hq | ⟨hk, rfl | rfl⟩
    · exact h.registered k q hq
    · exact ⟨hk, hm.2⟩
    · exact ⟨hk, hm.2⟩
  left q hq := by
    rw [scanLeft_eq] at hq
    rcases (c.pollerStep_after m).mem_left hq with hq | ⟨k, hq⟩
    · exact h.left q hq
    · exact (h.registered k q hq).2

/-- A cache that is tended scans on time. -/
theorem onTime_after (h : Tended r c) (hm : Prompt r c m) (ho : Obliges r.key c m) :
    OnTime (c.after m).poller (c.after m).now := by
  rcases c.now_after_eq_or m with hn | ⟨now, rfl⟩
  · rw [hn]
    have hs := c.pollerStep_after m
    generalize (c.after m).poller = p at hs
    have hot := h.onTime
    cases hs with
    | same => exact hot
    | enrolled q => exact hot.enrolled h.inTime q
    | unregistered k => exact hot.erase k
    | scanBegan => trivial
    | visited => trivial
    | scanEnded =>
      unfold Poller.rested
      rw [if_neg (by simp [h.isOpen])]
      exact onTime_await _ h.inTime
    | closed hmc =>
      rcases hmc with rfl | rfl
      · exact hm.elim
      · exact hm.elim
    | crashed l text hl hml hs => exact absurd hs (ho.contains l text hml hl)
  · exact h.onTime.tick hm.2.2

/-- A cache that was just built is tended. -/
theorem tended_of_launched (hc : c.Launched) (hn : c.now < Clock.lap) : Tended r c := by
  have hr : c.Reachable := .launched hc
  obtain ⟨⟨b, now, hb⟩, -⟩ := hc
  obtain ⟨executor, rfl⟩ := eq_of_build hb
  -- nothing waits, nothing is under way, and nothing is registered
  have hw : executor.crew.waiting = [] := by cases executor <;> rfl
  have hh : executor.crew.held = [] := by cases executor <;> rfl
  refine ⟨hr, Forecast.fair_fair, hn, rfl, ⟨?_, ?_, ?_⟩, fun _ => rfl, ?_⟩
  · rintro q (⟨task, ht, -⟩ | ⟨l, hl, -⟩)
    · simp [hw] at ht
    · simp [loads, hh] at hl
  · intro k q hq
    cases hq
  · intro q hq
    cases hq
  · intro l hl
    simp [loads, hh] at hl

/-- The clock stands still while a load of the request is under way. -/
theorem instant_after (h : Tended r c) (hm : Prompt r c m) {l : Load}
    (hl : l ∈ (c.after m).loads) (hk : l.key = r.key) : l.started = (c.after m).now := by
  rcases c.now_after_eq_or m with hn | ⟨now, rfl⟩
  · rw [hn]
    rcases mem_loads_after hl with hl | ⟨hs, -⟩
    · exact h.instant l hl hk
    · exact hs
  · -- the clock waits until no load of the key is under way
    exact absurd hk (hm.2.1.2 l hl)

/-- **A prompt move** leaves a cache tended, if what it calls does its part. -/
theorem Tended.after (h : Tended r c) (hm : Prompt r c m) (ho : Obliges r.key c m) :
    Tended r (c.after m) where
  reachable := h.reachable.after hm.allows
  fair := by
    rw [forecast_after]
    cases m with
    | forecast f => exact hm
    | _ => exact h.fair
  inTime := by
    rw [now_after]
    cases m with
    | tick now => exact Nat.max_lt.2 ⟨h.inTime, hm.1⟩
    | _ => exact h.inTime
  isOpen := by
    rw [(c.pollerStep_after m).closed_eq, h.isOpen]
    · rintro rfl
      exact hm
    · rintro rfl
      exact hm
  sole := h.sole.after hm
  onTime := onTime_after h hm ho
  instant _ := instant_after h hm

/-! ## The rounds of the poller -/

/-- How the poller goes on while a request is registered. -/
inductive Round (c : Cache) : Phase → Prop
  | same : Round c c.poller.phase
  | began (d : Nat) (waits : c.poller.phase = .waiting d) : Round c (.scanning c.dueRequests)
  | visited (q : Request) (scans : c.poller.phase = .scanning c.scanLeft) :
    Round c (.scanning (c.scanLeft.erase q))
  | ended (scans : c.poller.phase = .scanning []) :
    Round c (c.poller.await c.now).phase

/-- A poller that has a request has been started, so a registration does not start it. -/
theorem round_after (h : Tended r c) (hm : Prompt r c m) (ho : Obliges r.key c m) {k : Key}
    {q : Request} (hreg : c.poller.registry.request? k = some q) :
    Round c (c.after m).poller.phase := by
  have hs := c.pollerStep_after m
  generalize (c.after m).poller = p at hs
  cases hs with
  | same => exact .same
  | enrolled q' =>
    rw [Poller.enrolled_phase _ _ (h.onTime.started hreg)]
    exact .same
  | unregistered => exact .same
  | scanBegan d _ waits => exact .began d waits
  | visited q' _ can => exact .visited q' (scanning_of_canVisit can)
  | scanEnded _ scans =>
    unfold Poller.rested
    rw [if_neg (by simp [h.isOpen])]
    exact .ended scans
  | closed hmc =>
    rcases hmc with rfl | rfl
    · exact hm.elim
    · exact hm.elim
  | crashed l text hl hml hs => exact absurd hs (ho.contains l text hml hl)

/-! ## What a move does for the request -/

/-- A scan has a request left to visit, or a reload of its key is in flight. -/
def Outstanding (c : Cache) (r : Request) : Prop := r ∈ c.scanLeft ∨ r.key ∈ c.taskKeys

/-- What a move does for a request: it ends a load of it, or it leaves its mark and tasks alone,
and what is kept for it unless that is past its time. -/
inductive Upkeep (r : Request) (c c' : Cache) : Prop
  | loaded (v : Value) (now : c'.now = c.now) (poller : c'.poller = c.poller)
      (mark : c'.marks r.family = some (max 1 c.now))
      (kept : c'.backing.kept? r.key = some (Entry.stamped c.now v r.hard r.soft))
      (lasts : c'.backing.Lasts r.key)
  | idle (mark : c'.marks r.family = c.marks r.family)
      (kept : c'.backing.kept? r.key = c.backing.kept? r.key ∨
        ¬ c.Live r.key ∧ c'.backing.kept? r.key = none)
      (tasks : r.key ∈ c.taskKeys → r.key ∈ c'.taskKeys)

/-- A move ends a load of a key. -/
def EndsLoad (c : Cache) (m : Move) (k : Key) : Prop :=
  ∃ l o, c.load? l.id = some l ∧ m = .finish l.id o ∧ l.key = k

/-- A load of a request is a load of nothing else. -/
theorem Sole.eq_of_key (h : Sole r c) {l : Load} (hl : c.load? l.id = some l)
    (hk : l.key = r.key) : l.request = r :=
  (h.inHand l.request (.inr ⟨l, List.mem_of_find?_eq_some hl, rfl⟩)).eq_of_key hk

/-- A load of the family is a load of the request itself. -/
theorem Sole.eq_of_family (h : Sole r c) {l : Load} (hl : c.load? l.id = some l)
    (hf : l.request.family = r.family) : l.request = r :=
  (h.inHand l.request (.inr ⟨l, List.mem_of_find?_eq_some hl, rfl⟩)).eq_of_family hf

/-- No call of a fair store fails. -/
theorem Tended.verdict (h : Tended r c) (op : StoreOp) : c.backing.verdict op = .pass :=
  h.fair op _

/-- The guard lets every load of the request pass: nothing that is kept is younger. -/
theorem Tended.newer_eq_false (h : Tended r c) {l : Load} (hl : c.load? l.id = some l)
    (hk : l.key = r.key) : (c.newer l.key l.started).1 = false := by
  have hf : c.backing.forecast.Reliable := fun op n => .inl (h.fair op n)
  rw [Bool.eq_false_iff, Ne, newer_eq_true_iff c hf]
  rintro ⟨e, he, hlt, -⟩
  have hsince := (punctual_of_reachable h.reachable).kept l.key e (Store.kept?_of_find? he)
  rw [h.instant l (List.mem_of_find?_eq_some hl) hk] at hlt
  omega

/-- The end of a load of the request. -/
theorem upkeep_finish (h : Tended r c) {l : Load} (hl : c.load? l.id = some l)
    (hk : l.key = r.key) (v : Value) : Upkeep r c (c.finish l (.value v true)).2 := by
  have hr := h.sole.eq_of_key hl hk
  have hg := h.newer_eq_false hl hk
  have he : result? l c.now (.value v true) = some (Entry.stamped c.now v r.hard r.soft) := by
    simp [result?, hr]
  refine .loaded v ?_ ?_ ?_ ?_ ?_
  · exact c.now_finish l _
  · rw [poller_finish]
    rfl
  · rw [marks_finish_eq, if_pos ⟨rfl, by rw [hr]⟩]
    unfold markNow
    rw [Clock.wrap_of_lt h.inTime]
  · rw [kept?_finish he, if_pos ⟨hg, h.verdict .set, hk.symm⟩]
  · rw [backing_finish, he]
    dsimp only
    rw [backing_writeLoaded, hg, hk]
    -- the write comes after the read of the guard
    have hv : (c.backing.get c.now r.key).2.verdict .set = .pass :=
      (c.verdict_fetch r.key).trans (h.verdict .set)
    exact Backing.lasts_set hv (Nat.le_refl _) h.inTime

/-- The mark of the request is left alone by whatever ends no load of it. -/
theorem marks_after_eq (h : Tended r c) (hm : Prompt r c m) (hx : ¬ c.EndsLoad m r.key) :
    (c.after m).marks r.family = c.marks r.family := by
  have hs := c.markStep_after m r.family
  generalize (c.after m).marks r.family = mark at hs
  cases hs with
  | same => rfl
  | refreshed l o hl hml ho hf =>
    -- a load of the family is a load of the request
    have hr := h.sole.eq_of_family hl hf.symm
    exact absurd ⟨l, o, hl, hml, congrArg Request.key hr⟩ hx
  | reset q hq hf =>
    cases hq with
    | removed k hk =>
      obtain ⟨rfl, hc⟩ := h.sole.registered k q hk
      exact absurd (congrArg Request.key (hc.eq_of_family hf.symm)) hm
    | removedAll k hk => exact hm.elim
    | replaces old isOpen hold changes =>
      -- what is registered under the key of the request is the request
      have hq : q = r := hm.2.eq_of_family hf.symm
      subst hq
      have hreg : c.poller.registry.request? q.key = some old.request := by
        rw [Registry.request?, hold]
        rfl
      obtain ⟨hk, hc⟩ := h.sole.registered _ _ hreg
      rw [Registry.keeps, hc.eq_of_key hk] at changes
      simp [Request.sameAs] at changes

/-- What is kept for the request is left alone by whatever ends no load of it, or let go of. -/
theorem kept?_after_eq_or (hm : Prompt r c m) (hx : ¬ c.EndsLoad m r.key) :
    (c.after m).backing.kept? r.key = c.backing.kept? r.key ∨
      ¬ c.Live r.key ∧ (c.after m).backing.kept? r.key = none := by
  have hs := c.keptStep_after m r.key
  generalize (c.after m).backing.kept? r.key = found at hs
  cases hs with
  | same => exact .inl rfl
  | gone why =>
    rcases why with rfl | rfl | hlive
    · exact absurd rfl hm
    · exact hm.elim
    · exact .inr ⟨hlive, rfl⟩
  | set v ttl hset =>
    subst hset
    exact absurd rfl hm
  | setEntry e hset =>
    subst hset
    exact absurd rfl hm.1
  | ended l o e hl hml hk hr hg => exact absurd ⟨l, o, hl, hml, hk⟩ hx

/-- A reload of the request stays in flight until its load ends. -/
theorem mem_taskKeys_stays (h : Tended r c) (hm : Prompt r c m) (hx : ¬ c.EndsLoad m r.key)
    (hk : r.key ∈ c.taskKeys) : r.key ∈ (c.after m).taskKeys := by
  refine (mem_taskKeys_after (accounted_of_reachable h.reachable) m r.key).2 (.inr ⟨hk, ?_⟩)
  intro hends
  -- a task is brought to its end by the end of its load or by being dropped
  cases m with
  | finish id o =>
    simp only [ended?, Option.bind_eq_some_iff] at hends
    obtain ⟨l, hl, hends⟩ := hends
    split at hends
    · cases hends
    · obtain ⟨rfl, hl⟩ := load?_self hl
      exact hx ⟨l, o, hl, rfl, Option.some.inj hends⟩
  | discard place =>
    simp only [ended?, Option.map_eq_some_iff] at hends
    obtain ⟨⟨task, c'⟩, hd, hkey⟩ := hends
    exact hm task (discard?_eq_some hd).1 hkey
  | _ => cases hends

/-- **What a move does for the request.** -/
theorem upkeep_after (h : Tended r c) (hm : Prompt r c m) : Upkeep r c (c.after m) := by
  by_cases hx : c.EndsLoad m r.key
  · obtain ⟨l, o, hl, rfl, hk⟩ := hx
    obtain ⟨v, rfl⟩ := hm l hl hk
    rw [after_finish hl]
    exact upkeep_finish h hl hk v
  · exact .idle (marks_after_eq h hm hx) (kept?_after_eq_or hm hx) (mem_taskKeys_stays h hm hx)

/-- **A reload to come stays to come,** until a load of the request ends. -/
theorem Outstanding.after (hr : c.Outstanding r) (h : Tended r c) (hm : Prompt r c m)
    (ho : Obliges r.key c m) (tasks : r.key ∈ c.taskKeys → r.key ∈ (c.after m).taskKeys) :
    (c.after m).Outstanding r := by
  rcases hr with hr | hr
  · rcases (c.pollerStep_after m).left_stays hr with
      hr | ⟨rfl, can⟩ | ⟨l, text, hl, rfl, hs⟩
    · exact .inl (scanLeft_eq _ ▸ hr)
    · -- the scan has come to it, and the executor takes what it is offered
      have hoff : c.offered? (.visit r) = some (r, _) := if_pos can
      refine .inr (mem_taskKeys_of_offered (accounted_of_reachable h.reachable) hoff ?_)
      intro why hw
      exact ho.accepts r why (hw ▸ hoff) rfl
    · exact absurd hs (ho.contains l text rfl hl)
  · exact .inr (tasks hr)

end Steps

end Cache

end Evergreen
