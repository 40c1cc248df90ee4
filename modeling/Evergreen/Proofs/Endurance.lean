import Evergreen.Proofs.Balance
import Evergreen.Proofs.Registrations

/-!
# How long the poller lasts

The poller runs on a thread of its own, and nothing on that thread catches a panic. There are two
ways to one (`Fells`). A loader may run on the poller's thread, where the executor runs tasks in
place, and panic there. Or the deadline that the poller would wait for is one that no timer can be
set to; the interval has a lower bound and no upper one. All that loaders and configurations can do
otherwise leaves the poller alone.

- `phaseStep_after`: what a move makes of the phase of the poller;
- `crashed_run_iff`: the poller is ended by a panic if one of these has happened, and only then;
- `standsStill_of_crashed`: nothing is scanned any more from then on, and nothing shows it;
- `sometime_fells_causes`: the executor or the interval must have been of that kind;
- `poller_endures_iff`: a poller that shows to be running goes on if and only if nothing has
  felled it.
-/

namespace Evergreen

/-- A poller waits or scans. -/
def Phase.active : Phase → Bool
  | waiting _ | scanning _ => true
  | unstarted | crashed | finished => false

namespace Poller

section Phases

variable {p : Poller} {now : Nat}

/-- Only a next scan that the clock cannot reach makes the wait crash. -/
theorem await_phase_eq_crashed_iff :
    (p.await now).phase = .crashed ↔ Clock.reachable (now + p.interval) = false := by
  unfold await
  dsimp only
  split
  · rename_i h
    simp [h]
  · rename_i h
    simp [h]

/-- The first registration starts the poller. -/
theorem enrolled_phase_of_unstarted (h : p.phase = .unstarted) (q : Request) :
    (p.enrolled q now).phase = (p.await now).phase := by
  simp only [enrolled, h]
  rfl

end Phases

end Poller

namespace Cache

/-! ## What can fell the poller -/

/-- No timer can be set to a deadline an interval from now. -/
def OutOfReach (c : Cache) : Prop := Clock.reachable (c.now + c.poller.interval) = false

/-- A move ends the thread of the poller with a panic: that of a loader that runs on it, or that of
setting a deadline which is out of reach, when the poller starts or rests after a scan. -/
inductive Fells (c : Cache) : Move → Prop
  | panicked (l : Load) (text : String) (hl : c.load? l.id = some l) (hs : l.seat = .lent true) :
    Fells c (.finish l.id (.panic text))
  | started {m : Move} (q : Request) (hq : c.Registers q m) (first : c.poller.phase = .unstarted)
    (far : c.OutOfReach) : Fells c m
  | rested (done : c.ScanDone) (isOpen : c.poller.closed = false) (far : c.OutOfReach) :
    Fells c .endScan

/-! ## Steps of the phase -/

/-- What a move makes of the phase of the poller. -/
inductive PhaseStep (c : Cache) (m : Move) : Phase → Prop
  | same : PhaseStep c m c.poller.phase
  | started (q : Request) (hq : c.Registers q m) (first : c.poller.phase = .unstarted) :
    PhaseStep c m (c.poller.await c.now).phase
  | scanBegan (h : c.BeginsScan m) : PhaseStep c m (.scanning c.dueRequests)
  | visited (q : Request) (h : c.pollerOffers? m = some q) :
    PhaseStep c m (.scanning (c.scanLeft.erase q))
  | scanEnded (hm : m = .endScan) (done : c.ScanDone) : PhaseStep c m (c.poller.rested c.now).phase
  | stopped (hm : m = .close ∨ m = .dispose) (deadline : Nat)
    (waits : c.poller.phase = .waiting deadline) : PhaseStep c m .finished
  | crashed (l : Load) (text : String) (hl : c.load? l.id = some l)
    (hm : m = .finish l.id (.panic text)) (hs : l.seat = .lent true) : PhaseStep c m .crashed

section Steps

variable {c : Cache} {m : Move}

theorem PhaseStep.of_eq {p : Phase} (h : p = c.poller.phase) : PhaseStep c m p := by
  rw [h]
  exact .same

/-- **Every move is a step of the phase.** -/
theorem phaseStep_after (c : Cache) (m : Move) : PhaseStep c m (c.after m).poller.phase := by
  by_cases hr : ∃ q, c.Registers q m
  · obtain ⟨q, hq⟩ := hr
    rw [hq.poller_after]
    by_cases hp : c.poller.phase = .unstarted
    · rw [Poller.enrolled_phase_of_unstarted hp]
      exact .started q hq hp
    · rw [Poller.enrolled_phase q c.now hp]
      exact .same
  · simp only [not_exists] at hr
    have hstep := c.pollerStep_after m
    generalize hp : (c.after m).poller = p at hstep
    cases hstep with
    | enrolled q hm =>
      -- a get or a call of `schedule` that does not take effect enrolls nothing
      refine .of_eq ?_
      rw [← hp]
      rcases hm with rfl | rfl
      · exact congrArg Poller.phase (poller_get_of_not_registers (hr q))
      · show (c.schedule q).2.poller.phase = _
        rw [schedule_of_not_registers (hr q)]
        split <;> rfl
    | scanBegan deadline hm waits due => exact .scanBegan ⟨hm, deadline, waits, due⟩
    | visited q hm can => exact .visited q (pollerOffers?_eq_some_iff.2 ⟨hm, can⟩)
    | scanEnded hm scans =>
      subst hm
      by_cases hd : c.ScanDone
      · exact .scanEnded rfl hd
      · refine .of_eq ?_
        rw [← hp, after_endScan_of_not_done hd]
    | closed hm _ _ _ _ phase =>
      rcases phase with phase | ⟨phase, deadline, waits⟩
      · exact .of_eq phase
      · rw [phase]
        exact .stopped hm deadline waits
    | crashed l text hl hm hs => exact .crashed l text hl hm hs
    | same | unregistered => exact .same

/-- A panic fells the poller. -/
theorem Fells.phase_after (h : c.Fells m) : (c.after m).poller.phase = .crashed := by
  cases h with
  | panicked l text hl hs =>
    rw [after_finish hl, poller_finish]
    simp [takesDown, hs]
  | started q hq first far =>
    rw [hq.poller_after, Poller.enrolled_phase_of_unstarted first]
    exact Poller.await_phase_eq_crashed_iff.2 far
  | rested done isOpen far =>
    rw [after_endScan done, if_neg (by simp [isOpen])]
    exact Poller.await_phase_eq_crashed_iff.2 far

/-- A poller that neither waits nor scans stays as it is, unless the first registration starts it or
a panic fells it. -/
theorem phase_after_of_inactive (h : c.poller.phase.active = false) (hm : ¬ c.Fells m) :
    (c.after m).poller.phase = c.poller.phase ∨
      c.poller.phase = .unstarted ∧ ∃ q, c.Registers q m := by
  have hstep := c.phaseStep_after m
  generalize (c.after m).poller.phase = phase at hstep
  cases hstep with
  | same => exact .inl rfl
  | started q hq first => exact .inr ⟨first, q, hq⟩
  | scanBegan hb =>
    obtain ⟨-, deadline, waits, -⟩ := hb
    rw [waits] at h
    cases h
  | visited q hq =>
    rw [scanning_of_canVisit (pollerOffers?_eq_some_iff.1 hq).2] at h
    cases h
  | scanEnded _ done =>
    rw [done.nothingLeft] at h
    cases h
  | stopped _ deadline waits =>
    rw [waits] at h
    cases h
  | crashed l text hl hfinish hs =>
    subst hfinish
    exact absurd (.panicked l text hl hs) hm

/-- **When the poller is ended by a panic**: if it was before, or the move fells it. -/
theorem crashed_after_iff :
    (c.after m).poller.phase = .crashed ↔ c.poller.phase = .crashed ∨ c.Fells m := by
  constructor
  · intro h
    have hstep := c.phaseStep_after m
    generalize (c.after m).poller.phase = phase at hstep h
    cases hstep with
    | same => exact .inl h
    | started q hq first =>
      exact .inr (.started q hq first (Poller.await_phase_eq_crashed_iff.1 h))
    | scanEnded hm done =>
      subst hm
      unfold Poller.rested at h
      split at h
      · cases h
      · rename_i hopen
        exact .inr (.rested done (by simpa using hopen) (Poller.await_phase_eq_crashed_iff.1 h))
    | crashed l text hl hm hs =>
      subst hm
      exact .inr (.panicked l text hl hs)
    | scanBegan | visited | stopped => cases h
  · rintro (h | h)
    · by_cases hm : c.Fells m
      · exact hm.phase_after
      · rcases phase_after_of_inactive (by rw [h]; rfl) hm with hsame | ⟨hfirst, -⟩
        · exact hsame.trans h
        · rw [h] at hfirst
          cases hfirst
    · exact h.phase_after

/-- A cache that was just built has a poller that has not started. -/
theorem phase_of_launched (hc : c.Launched) : c.poller.phase = .unstarted := by
  obtain ⟨⟨b, now, hb⟩, -⟩ := hc
  obtain ⟨executor, rfl⟩ := eq_of_build hb
  rfl

/-- **A poller has crashed** if and only if a move has felled it. -/
theorem crashed_run_iff {ms : List Move} : (c.run ms).poller.phase = .crashed ↔
    c.poller.phase = .crashed ∨ Sometime Fells c ms :=
  run_iff_sometime (I := fun c => c.poller.phase = .crashed) fun _ _ => crashed_after_iff

/-- A move that neither ends a scan nor fells the poller leaves a scan going on. -/
theorem withinScan_of_not_fells (hm : m ≠ .endScan) (h : ¬ c.Fells m) : WithinScan c m where
  goesOn := hm
  noPanic l o hl hfinish := by
    subst hfinish
    cases o with
    | panic text =>
      rw [Bool.eq_false_iff]
      intro hdown
      exact h (.panicked l text hl (by simpa [takesDown] using hdown))
    | _ => rfl

end Steps

/-! ## After the fall -/

/-- The poller does nothing along a run: it offers nothing, and no scan is begun or counted. -/
structure Quiet (c : Cache) (ms : List Move) : Prop where
  offers : c.pollerOffers ms = []
  scans : (c.run ms).poller.registry.scans = c.poller.registry.scans
  ticks : (c.run ms).counters .schedulerTicks = c.counters .schedulerTicks

/-- The poller stands still along a run: it does nothing, while it shows to be running until it is
told to stop, and to be stopping from then on. -/
structure StandsStill (c : Cache) (ms : List Move) : Prop extends Quiet c ms where
  shows : (c.run ms).poller.state = if (c.run ms).poller.closed then .stopping else .running

section Fallen

variable {c : Cache} {m : Move} {ms : List Move}

/-- Only a poller that waits or scans does anything. -/
theorem quiet_cons (h : c.poller.phase.active = false) (hrest : (c.after m).Quiet ms) :
    c.Quiet (m :: ms) := by
  constructor
  · have ho : c.pollerOffers? m = none := by
      rw [Option.eq_none_iff_forall_ne_some]
      intro r ho
      rw [scanning_of_canVisit (pollerOffers?_eq_some_iff.1 ho).2] at h
      cases h
    show (c.pollerOffers? m).toList ++ (c.after m).pollerOffers ms = []
    rw [ho, hrest.offers]
    rfl
  · rcases c.scans_after m with ⟨⟨-, deadline, waits, -⟩, -⟩ | ⟨-, hscans⟩
    · rw [waits] at h
      cases h
    · exact hrest.scans.trans hscans
  · have hc : c.completesScan m = false := by
      rw [Bool.eq_false_iff, ne_eq, completesScan_iff]
      rintro ⟨-, done⟩
      rw [done.nothingLeft] at h
      cases h
    have hticks := c.schedulerTicks_after m
    rw [hc] at hticks
    exact hrest.ticks.trans hticks

/-- A poller that neither waits nor scans does nothing for as long as it stays so. -/
theorem quiet_run {I : Cache → Prop} {P : Cache → Move → Prop}
    (hI : ∀ c m, I c → P c m → I (c.after m)) (hidle : ∀ c, I c → c.poller.phase.active = false)
    (hc : I c) (hms : Along P c ms) : c.Quiet ms := by
  induction ms generalizing c with
  | nil => exact ⟨rfl, rfl, rfl⟩
  | cons m ms ih => exact quiet_cons (hidle c hc) (ih (hI c m hc hms.1) hms.2)

/-- **A poller that has been felled stands still**, whatever happens. -/
theorem standsStill_of_crashed (h : c.poller.phase = .crashed) (ms : List Move) :
    StandsStill c ms where
  toQuiet := by
    refine quiet_run (I := fun c => c.poller.phase = .crashed) (P := fun _ _ => True) ?_ ?_ h
      (along_of_forall (fun _ _ => trivial) c ms)
    · intro c m h _
      exact crashed_after_iff.2 (.inl h)
    · intro c h
      rw [h]
      rfl
  shows := by
    have hlater : (c.run ms).poller.phase = .crashed := crashed_run_iff.2 (.inl h)
    rw [Poller.state, hlater]

end Fallen

/-! ## What it takes to fell it -/

section Causes

variable {c : Cache} {m : Move}

/-- A cache keeps the executor that it was built with. -/
theorem executor_after (c : Cache) (m : Move) : (c.after m).executor = c.executor := by
  cases m with
  | get r =>
    have hl := (c.storeOnly_looked r).executor
    show (c.get r).2.executor = _
    rw [get_snd]
    cases c.nextAction r with
    | serve => exact hl
    | loadForCaller => exact (tasksOnly_enter ..).executor.trans hl
    | serveAndReload => exact (tasksOnly_offer ..).executor.trans hl
    | serveAndRegister => exact (pollerOnly_registerIfAbsent ..).executor.trans hl
  | peek k => exact (c.storeOnly_peek k).executor
  | set k v ttl => exact (c.storeOnly_set k v ttl).executor
  | setEntry k e => exact (c.storeOnly_setEntry k e).executor
  | remove k => exact (c.storeAndMarks_remove k).executor
  | removeAll => exact c.storeAndMarks_removeAll.executor
  | schedule r =>
    show (c.schedule r).2.executor = _
    unfold schedule register
    split
    · rfl
    · split
      · exact (pollerOnly_enroll ..).executor
      · split
        · rfl
        · exact (pollerOnly_enroll ..).executor
  | close => exact c.pollerOnly_close.executor
  | dispose => exact c.pollerOnly_dispose.executor
  | start place => exact (c.tasksOnly_start place).executor
  | discard place => exact (c.tasksOnly_discard place).executor
  | finish id o =>
    rcases c.after_finish_eq_or id o with h | ⟨l, -, -, h⟩
    · rw [h]
    · rw [h]
      exact (c.ended_finish l o).executor.trans ((c.leave l).storeAndMarks_settle l o).executor
  | beginScan => exact c.pollerOnly_beginScan.executor
  | visit r =>
    simp only [after]
    split
    · rename_i hv
      have hl : (c.visited c.scanLeft r).executor = c.executor := (storeOnly_lookup ..).executor
      exact (tasksOnly_visit (scanning_of_canVisit hv) r).executor.trans hl
    · rfl
  | endScan => exact c.pollerOnly_after_endScan.executor
  | purge => exact c.storeOnly_purged.executor
  | tick _ | unschedule _ | shut | forecast _ | forget => rfl

/-- A load that begins with a move is on a thread lent to it only if the executor runs tasks in
place. -/
theorem mem_loads_after_or_inPlace {l : Load} (h : l ∈ (c.after m).loads) :
    l ∈ c.loads ∨ (l.seat.isLent = true → c.executor = .inPlace) := by
  cases c.taskStep_after m with
  | lent r stale byPoller _ _ _ _ inPlace => exact .inr fun _ => inPlace
  | same _ _ hs | queued _ _ _ _ _ _ hs | dropped _ _ _ _ _ hs =>
    rw [hs.loads] at h
    exact .inl h
  | called _ _ r stale _ hs =>
    rw [hs.loads, loads] at h
    simp only [List.mem_append, List.mem_singleton] at h
    rcases h with (h | rfl) | h
    · exact .inl (List.mem_append_left _ h)
    · refine .inr fun hlent => ?_
      cases hlent
    · exact .inl (List.mem_append_right _ h)
  | taken place task _ _ _ hs =>
    rw [hs.loads, loads] at h
    simp only [List.mem_append, List.mem_singleton] at h
    rcases h with h | h | rfl
    · exact .inl (List.mem_append_left _ h)
    · exact .inl (List.mem_append_right _ h)
    · refine .inr fun hlent => ?_
      cases hlent
  | ended l' _ _ _ _ hs =>
    rw [hs.loads] at h
    exact .inl ((c.loads_leave_sublist l').subset h)

/-- Threads are lent to loads only where the executor runs tasks in place. -/
def LendsInPlace (c : Cache) : Prop := ∀ l ∈ c.loads, l.seat.isLent = true → c.executor = .inPlace

/-- A move lends threads only if the executor runs tasks in place. -/
theorem LendsInPlace.after (h : c.LendsInPlace) (m : Move) : (c.after m).LendsInPlace := by
  intro l hl hlent
  rw [executor_after]
  rcases mem_loads_after_or_inPlace hl with hl | hinPlace
  · exact h l hl hlent
  · exact hinPlace hlent

theorem lendsInPlace_of_launched (hc : c.Launched) : c.LendsInPlace := by
  obtain ⟨⟨b, now, hb⟩, -⟩ := hc
  obtain ⟨executor, rfl⟩ := eq_of_build hb
  intro l hl
  cases executor <;> cases hl

theorem lendsInPlace_of_reachable (hc : c.Reachable) : c.LendsInPlace := by
  induction hc with
  | launched hc => exact lendsInPlace_of_launched hc
  | after _ _ ih => exact ih.after _

/-- **Only an executor that runs tasks in place, or a deadline out of reach, can fell the
poller.** -/
theorem Fells.cause (hc : c.LendsInPlace) (h : c.Fells m) :
    c.executor = .inPlace ∨ c.OutOfReach := by
  cases h with
  | panicked l text hl hs =>
    refine .inl (hc l (List.mem_of_find?_eq_some hl) ?_)
    rw [hs]
    rfl
  | started q hq first far => exact .inr far
  | rested done isOpen far => exact .inr far

/-- What fells a poller is an executor in place, or a clock near its end. -/
theorem sometime_fells_causes (hc : c.Launched) {ms : List Move} (h : Sometime Fells c ms) :
    c.executor = .inPlace ∨ Sometime (fun c _ => c.OutOfReach) c ms := by
  by_cases he : c.executor = .inPlace
  · exact .inl he
  · refine .inr ?_
    refine h.imp (I := fun c => c.LendsInPlace ∧ c.executor ≠ .inPlace) ?_ ?_
      ⟨lendsInPlace_of_launched hc, he⟩
    · rintro c m ⟨hlends, hexecutor⟩
      exact ⟨hlends.after m, by rwa [executor_after]⟩
    · rintro c m ⟨hlends, hexecutor⟩ hfells
      exact (hfells.cause hlends).resolve_left hexecutor

/-- With another executor and a clock far from its end, nothing fells the poller. -/
theorem along_not_fells (hc : c.Launched) {ms : List Move} (he : c.executor ≠ .inPlace)
    (hms : Along (fun c _ => ¬ c.OutOfReach) c ms) : Along (fun c m => ¬ c.Fells m) c ms := by
  rw [← not_sometime_iff] at hms ⊢
  exact fun h => hms ((sometime_fells_causes hc h).resolve_left he)

end Causes

/-! ## Going on -/

/-- The poller goes on. -/
inductive GoesOn (c : Cache) : Prop
  /-- It waits, and a scan begins when an interval has passed, if not before. -/
  | waits (deadline : Nat) (hp : c.poller.phase = .waiting deadline)
    (soon : (c.after (.tick (c.now + c.poller.interval))).BeginsScan .beginScan)
  /-- It scans, and comes to all that the scan has left, whatever else happens. -/
  | scans (due : List Request) (hp : c.poller.phase = .scanning due) (rest : List Move)
    (within : Along WithinScan c rest) (done : (c.run rest).ScanDone)
    (offered : (c.pollerOffers rest).Perm due)

section Going

variable {c : Cache} {m : Move} {ms : List Move}

/-- A poller that goes on has not crashed. -/
theorem GoesOn.not_crashed (h : c.GoesOn) : c.poller.phase ≠ .crashed := by
  intro hcrashed
  cases h with
  | waits deadline hp =>
    rw [hp] at hcrashed
    cases hcrashed
  | scans due hp =>
    rw [hp] at hcrashed
    cases hcrashed

/-- Deadlines are at most an interval away. -/
def Imminent (c : Cache) : Prop :=
  ∀ deadline, c.poller.phase = .waiting deadline → deadline ≤ c.now + c.poller.interval

/-- A move leaves the next scan no further off than an interval. -/
theorem Imminent.after (h : c.Imminent) (m : Move) : (c.after m).Imminent := by
  intro deadline hp
  have hn := c.now_le_after m
  have hstep := c.phaseStep_after m
  rw [(c.pollerStep_after m).interval_eq]
  generalize (c.after m).poller.phase = phase at hstep hp
  cases hstep with
  | same =>
    have := h deadline hp
    omega
  | started =>
    have := Poller.eq_of_await_waiting hp
    omega
  | scanEnded =>
    unfold Poller.rested at hp
    split at hp
    · cases hp
    · have := Poller.eq_of_await_waiting hp
      omega
  | scanBegan | visited | stopped | crashed => cases hp

theorem imminent_of_launched (hc : c.Launched) : c.Imminent := by
  intro deadline hp
  rw [phase_of_launched hc] at hp
  cases hp

/-- A poller that shows to be running goes on, unless a panic has ended it. -/
theorem goesOn_of_running (ha : c.Accounted) (hi : c.Imminent) (hrun : c.poller.state = .running)
    (hc : c.poller.phase ≠ .crashed) : c.GoesOn := by
  cases hp : c.poller.phase with
  | waiting deadline =>
    refine .waits deadline hp ⟨rfl, deadline, hp, ?_⟩
    exact Nat.le_trans (hi deadline hp) (Nat.le_max_right ..)
  | scanning due =>
    obtain ⟨rest, within, done⟩ := exists_scanDone ha hp
    obtain ⟨left, hleft, hperm⟩ := scanning_run hp within
    rw [done.nothingLeft] at hleft
    obtain rfl := Phase.scanning.inj hleft
    rw [List.append_nil] at hperm
    exact .scans due hp rest within done hperm
  | crashed => exact absurd hp hc
  | unstarted => simp [Poller.state, hp] at hrun
  | finished => simp [Poller.state, hp] at hrun

/-- A poller that shows to be running goes on, unless it was felled. -/
theorem goesOn_iff (hc : c.Launched) (hrun : (c.run ms).poller.state = .running) :
    (c.run ms).GoesOn ↔ ¬ Sometime Fells c ms := by
  have hcrashed : (c.run ms).poller.phase = .crashed ↔ Sometime Fells c ms := by
    rw [crashed_run_iff, phase_of_launched hc]
    simp
  rw [← hcrashed]
  constructor
  · exact GoesOn.not_crashed
  · intro h
    refine goesOn_of_running ((accounted_of_launched hc).run ms) ?_ hrun h
    exact run_preserves (I := Imminent) (fun _ m h => h.after m) (imminent_of_launched hc) ms

/-- Where it is not felled, a poller that has done its scan rests for an interval. -/
theorem rests_of_not_fells (hdone : c.ScanDone) (hopen : c.poller.closed = false)
    (h : ¬ c.Fells .endScan) :
    (c.after .endScan).poller.phase = .waiting (c.now + c.poller.interval) ∧
      (c.after .endScan).counters .schedulerTicks = c.counters .schedulerTicks + 1 := by
  constructor
  · have hnear : ¬ c.OutOfReach := fun far => h (.rested hdone hopen far)
    rw [after_endScan hdone, if_neg (by simp [hopen])]
    refine (Poller.await_phase _ _).resolve_right fun hcrashed => hnear ?_
    exact Poller.await_phase_eq_crashed_iff.1 hcrashed
  · rw [schedulerTicks_after, completesScan_iff.2 ⟨rfl, hdone⟩]
    rfl

end Going

/-- **How long the poller lasts.** Take any run of a cache that was just built, after which the
poller shows to be running:

1. it goes on, so that the next scan begins within an interval or the one under way comes to all
   that it has left, if and only if nothing has felled it;
2. once felled it stands still, while it shows to be running until it is told to stop;
3. only an executor that runs tasks in place can have felled it, or an interval so long that no
   timer could be set;
4. what a scan has offered and what it has left are together what was due when it began, whatever
   loads have come to in the meantime, as long as it is not felled;
5. after the scan it waits for exactly an interval, and the scan is counted, unless it is felled
   then. -/
theorem poller_endures_iff {c : Cache} (hc : c.Launched) (ms : List Move)
    (hrun : (c.run ms).poller.state = .running) :
    ((c.run ms).GoesOn ↔ ¬ Sometime Fells c ms) ∧
    (Sometime Fells c ms → ∀ later, StandsStill (c.run ms) later) ∧
    (Sometime Fells c ms → c.executor = .inPlace ∨ Sometime (fun c _ => c.OutOfReach) c ms) ∧
    (∀ later, (c.run ms).BeginsScan .beginScan →
      Along (fun c m => m ≠ .endScan ∧ ¬ c.Fells m) ((c.run ms).after .beginScan) later →
        ((c.run ms).offeredIn later ++ (((c.run ms).after .beginScan).run later).scanLeft).Perm
          (c.run ms).dueRequests) ∧
    ((c.run ms).ScanDone → ¬ (c.run ms).Fells .endScan →
      ((c.run ms).after .endScan).poller.phase =
          .waiting ((c.run ms).now + c.poller.interval) ∧
        ((c.run ms).after .endScan).counters .schedulerTicks =
          (c.run ms).counters .schedulerTicks + 1) := by
  refine ⟨goesOn_iff hc hrun, ?_, sometime_fells_causes hc, ?_, ?_⟩
  · intro hfelled
    exact standsStill_of_crashed (crashed_run_iff.2 (.inr hfelled))
  · intro later hbegins hlater
    obtain ⟨-, deadline, waits, hd⟩ := hbegins
    refine perm_run_within ⟨⟨deadline, waits, hd⟩, hlater.mono fun c m h => ?_⟩
    exact withinScan_of_not_fells h.1 h.2
  · intro hdone hfells
    have hopen : (c.run ms).poller.closed = false := by
      simp only [Poller.state, hdone.nothingLeft] at hrun
      cases hclosed : (c.run ms).poller.closed with
      | false => rfl
      | true =>
        rw [hclosed] at hrun
        cases hrun
    rw [← c.interval_run ms]
    exact rests_of_not_fells hdone hopen hfells

/-- A reload that the poller has offered panics on a thread of the executor. -/
def panickedElsewhere : List Move :=
  [.schedule profile, .tick minPollInterval, .beginScan, .visit profile, .endScan, .start 0,
    .finish 0 (.panic "boom")]

/-- Such a panic leaves the poller alone. -/
theorem poller_endures_iff_panickedElsewhere :
    ((overMap .threads).run panickedElsewhere).GoesOn := by
  obtain ⟨hgoes, -⟩ := poller_endures_iff (launched_overMap .threads) panickedElsewhere rfl
  refine hgoes.2 (not_sometime_iff.2 (along_not_fells (launched_overMap .threads) nofun ?_))
  refine ⟨?_, ?_, ?_, ?_, ?_, ?_, ?_, trivial⟩ <;> exact nofun

/-- Another request, which is due together with the first. -/
def settings : Request := { profile with key := "settings", family := 1 }

/-- Both requests are due, and the loader of the first panics on the thread of the poller. -/
def felledInScan : List Move :=
  [.schedule profile, .schedule settings, .tick minPollInterval, .beginScan, .visit profile,
    .finish 0 (.panic "boom")]

/-- A cache with the longest poll interval there is. -/
def farSighted : Cache :=
  { overMap .threads with
    poller := { (overMap .threads).poller with interval := Clock.longest } }

/-- The cache with the longest interval can be built. -/
theorem launched_farSighted : farSighted.Launched := by
  have hb : Blueprint.build { store := some (.plain Table.empty), executor := some .threads
                              pollInterval := Clock.longest } 0 = .ok farSighted := rfl
  refine launched_of_build hb ?_
  rintro s hs k
  cases hs
  rfl

/-- **A poller can be felled** by a panic of a loader that the executor runs in place: then a
request that is due is not offered by this scan or any other. Or by its interval: then no scan
ever begins. Either way it shows to be running. -/
theorem poller_can_be_felled :
    (settings ∈ ((overMap .inPlace).run (felledInScan.take 3)).dueRequests ∧
      (overMap .inPlace).pollerOffers felledInScan = [profile] ∧
      ((overMap .inPlace).run felledInScan).poller.state = .running ∧
      ∀ later, StandsStill ((overMap .inPlace).run felledInScan) later) ∧
    (farSighted.Launched ∧
      (farSighted.after (.schedule profile)).poller.state = .running ∧
      ∀ later, StandsStill (farSighted.after (.schedule profile)) later) := by
  refine ⟨⟨by decide, by decide, rfl, ?_⟩, launched_farSighted, rfl, ?_⟩
  · exact standsStill_of_crashed rfl
  · exact standsStill_of_crashed rfl

end Cache

end Evergreen
