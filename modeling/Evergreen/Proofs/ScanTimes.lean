import Evergreen.Proofs.LifeCycle

/-!
# When the poller scans

The poller waits an interval from its start on, and again from the end of every scan. So where it
wakes up at its deadlines and its scans take no time, the scans are at the multiples of the
interval, counted from the start, and there are as many as fit into the time that has passed.
Neither the readings that the clock shows in between nor anything that is asked of the cache makes
a difference, and a wake-up before the deadline has come does nothing.

- `KeepsTime`: what a move must satisfy: the clock goes on when all scans are over, up to the
  deadline and not past it, and nobody closes the cache;
- `pollerBusy_after`: only a visit puts a load on the poller's own thread, so that nothing can fell
  a poller that waits;
- `OnBeat`, `OnBeat.after`: the invariant, the poller waits for the next multiple or scans at one;
- `beats_append_readings`: from the invariant to the readings at which scans begin and end;
- `OnBeat.exists_span`: a span of any length can pass so, past any number of deadlines;
- `readings_startsScan_of_closed`: after a close no scan begins;
- `scans_keep_time`: all of it.
-/

namespace Evergreen

/-- Where a timer can be set to a reading, it can be set to any before that. -/
theorem Clock.reachable_of_le {t t' : Nat} (h : t ≤ t') (ht : reachable t' = true) :
    reachable t = true := by
  simp only [reachable, decide_eq_true_eq] at ht ⊢
  exact Nat.lt_of_le_of_lt (Nat.div_le_div_right h) ht

/-- What a poller waits for. -/
def Phase.deadline? : Phase → Option Nat
  | waiting deadline => some deadline
  | unstarted | scanning _ | crashed | finished => none

namespace Cache

/-! ## Readings along a run -/

/-- The readings of the clock at which a run makes moves of some kind. -/
def readings (c : Cache) (kind : Cache → Move → Bool) : List Move → List Nat
  | [] => []
  | m :: ms => (if kind c m then [c.now] else []) ++ (c.after m).readings kind ms

/-- Whether a move begins a scan. -/
def startsScan (c : Cache) : Move → Bool
  | .beginScan => c.beginScan?.isSome
  | _ => false

/-- The first multiples of an interval, counted from a reading. -/
def beats (start interval n : Nat) : List Nat :=
  (List.range n).map fun k => start + (k + 1) * interval

section Readings

variable {c : Cache} {m : Move} {ms : List Move}

theorem startsScan_iff : c.startsScan m = true ↔ c.BeginsScan m := by
  cases m with
  | beginScan =>
    simp only [startsScan, BeginsScan, beginScan?, true_and]
    cases c.poller.phase with
    | waiting deadline =>
      by_cases hd : deadline ≤ c.now
      · simp [hd]
      · simp [hd]
    | _ => simp
  | _ => simp [startsScan, BeginsScan]

/-- The count of scans goes up when one begins. -/
theorem scans_after_eq (c : Cache) (m : Move) : (c.after m).poller.registry.scans =
    c.poller.registry.scans + (c.startsScan m).toNat := by
  rcases c.scans_after m with ⟨hb, hscans⟩ | ⟨hb, hscans⟩
  · rw [hscans, startsScan_iff.2 hb]
    rfl
  · rw [hscans, Bool.eq_false_iff.2 (mt startsScan_iff.1 hb)]
    rfl

theorem beats_succ (start interval n : Nat) :
    beats start interval (n + 1) = beats start interval n ++ [start + (n + 1) * interval] := by
  rw [beats, List.range_succ, List.map_append]
  rfl

/-- **Readings from a count.** If the moves of a kind are counted, and each is made at the multiple
of the interval that the count says, they are made at the multiples in turn. -/
theorem beats_append_readings {I : Cache → Prop} {P : Cache → Move → Prop}
    {kind : Cache → Move → Bool} {N : Cache → Nat} {start interval : Nat}
    (hI : ∀ c m, I c → P c m → I (c.after m))
    (hcount : ∀ c m, N (c.after m) = N c + (kind c m).toNat)
    (hbeat : ∀ c m, I c → kind c m = true → c.now = start + (N c + 1) * interval)
    (hc : I c) (hms : Along P c ms) :
    beats start interval (N c) ++ c.readings kind ms =
      beats start interval (N (c.run ms)) := by
  induction ms generalizing c with
  | nil => exact List.append_nil _
  | cons m ms ih =>
    have hrest := ih (hI c m hc hms.1) hms.2
    rw [hcount c m] at hrest
    rw [run_cons, ← hrest, readings, ← List.append_assoc]
    congr 1
    cases hkind : kind c m with
    | true =>
      rw [hbeat c m hc hkind]
      exact (beats_succ ..).symm
    | false => exact List.append_nil _

end Readings

/-! ## What lets the poller keep time -/

/-- All scans that have begun are over. One that a panic has broken off never is. -/
def KeptUp (c : Cache) : Prop := c.counters .schedulerTicks = c.poller.registry.scans

/-- No scan is going on or due. -/
structure CaughtUp (c : Cache) : Prop where
  keptUp : c.KeptUp
  early : ∀ deadline ∈ c.poller.phase.deadline?, c.now < deadline

/-- A move of a run in which the poller wakes up when its deadline comes, scans take no time and
the cache is not closed. What else happens does not matter. -/
def KeepsTime (c : Cache) : Move → Prop
  | .tick now => c.KeptUp ∧ ∀ deadline ∈ c.poller.phase.deadline?, now ≤ deadline
  | .close | .dispose => False
  | .get _ | .peek _ | .set _ _ _ | .setEntry _ _ | .remove _ | .removeAll | .schedule _
  | .unschedule _ | .start _ | .discard _ | .finish _ _ | .beginScan | .visit _ | .endScan | .shut
  | .purge | .forecast _ | .forget => True

instance (c : Cache) : Decidable c.KeptUp :=
  inferInstanceAs (Decidable (c.counters .schedulerTicks = c.poller.registry.scans))

instance (c : Cache) (m : Move) : Decidable (c.KeepsTime m) :=
  match m with
  | .tick now =>
    inferInstanceAs (Decidable (c.KeptUp ∧ ∀ deadline ∈ c.poller.phase.deadline?, now ≤ deadline))
  | .close | .dispose => .isFalse id
  | .get _ | .peek _ | .set _ _ _ | .setEntry _ _ | .remove _ | .removeAll | .schedule _
  | .unschedule _ | .start _ | .discard _ | .finish _ _ | .beginScan | .visit _ | .endScan | .shut
  | .purge | .forecast _ | .forget => .isTrue trivial

instance decidableAlong {P : Cache → Move → Prop} [∀ c m, Decidable (P c m)] (c : Cache) :
    (ms : List Move) → Decidable (Along P c ms)
  | [] => .isTrue trivial
  | m :: ms =>
    have := decidableAlong (P := P) (c.after m) ms
    inferInstanceAs (Decidable (P c m ∧ Along P (c.after m) ms))

section Keeping

variable {c : Cache} {m : Move} {ms : List Move}

theorem KeepsTime.ne_close (h : c.KeepsTime m) : m ≠ .close := by
  rintro rfl
  exact h

theorem KeepsTime.ne_dispose (h : c.KeepsTime m) : m ≠ .dispose := by
  rintro rfl
  exact h

/-- What brings a scan on takes no time. -/
theorem BringsOn.keepsTime (h : BringsOn m) (c : Cache) : c.KeepsTime m := by
  cases h with
  | visit r => trivial
  | finish id v => trivial

/-- What a scan is made of takes no time. -/
theorem BringsOn.now_after (h : BringsOn m) (c : Cache) : (c.after m).now = c.now := by
  rcases c.now_after_eq_or m with hnow | ⟨now, rfl⟩
  · exact hnow
  · cases h

/-- Where a timer can be set an interval after a reading, it can be before that. -/
theorem not_outOfReach {t : Nat} (hle : c.now ≤ t)
    (ht : Clock.reachable (t + c.poller.interval) = true) : ¬ c.OutOfReach := by
  rw [OutOfReach, Clock.reachable_of_le (Nat.add_le_add_right hle _) ht]
  simp

/-- Where the last deadline of a run can be reached, so can those before it. -/
theorem along_not_outOfReach
    (h : Clock.reachable ((c.run ms).now + c.poller.interval) = true) :
    Along (fun c _ => ¬ c.OutOfReach) c ms := by
  induction ms generalizing c with
  | nil => trivial
  | cons m ms ih =>
    refine ⟨not_outOfReach (c.now_le_run (m :: ms)) h, ih ?_⟩
    rwa [(c.pollerStep_after m).interval_eq]

end Keeping

/-! ## The poller's own thread -/

section OwnThread

variable {c : Cache} {m : Move} {l : Load}

/-- What an offer of anybody but the poller puts into the executor's hands is not on the poller's
thread. -/
theorem Comes.mem_held {c' : Cache} {r : Request} {stale : Option Entry} {o : Offer}
    (h : Comes c r stale false c' o) (hl : l ∈ c'.crew.held) (hs : l.seat = .lent true) :
    l ∈ c.crew.held := by
  cases h with
  | inFlight _ h | queued _ h | refused _ _ _ h =>
    rw [h.held] at hl
    exact hl
  | running _ _ h =>
    rw [h.held] at hl
    rcases List.mem_append.1 hl with hl | hl
    · exact hl
    · rw [List.mem_singleton.1 hl] at hs
      cases hs

theorem mem_held_get {r : Request} (hl : l ∈ (c.get r).2.crew.held) (hs : l.seat = .lent true) :
    l ∈ c.crew.held := by
  have hlook := c.storeOnly_looked r
  rw [get_snd] at hl
  cases ha : c.nextAction r with
  | serve =>
    rw [ha] at hl
    rwa [← hlook.crew]
  | loadForCaller =>
    rw [ha] at hl
    rw [← hlook.crew]
    rwa [← (sameTasks_enter_caller _ r (c.usable r)).held]
  | serveAndReload =>
    rw [ha] at hl
    exact (comes_offer hlook.sameTasks hlook.now hlook.executor hlook.crew r _ false).mem_held
      hl hs
  | serveAndRegister =>
    rw [ha] at hl
    rw [← hlook.crew]
    rwa [← (pollerOnly_registerIfAbsent _ r).sameTasks.held]

theorem mem_held_of_not_handed (h : c.handed? m = none) (hl : l ∈ (c.after m).crew.held)
    (hs : l.seat = .lent true) : l ∈ c.crew.held := by
  cases c.taskStep_after m with
  | same _ _ h | called _ _ _ _ _ h | dropped _ _ _ _ _ h =>
    rw [h.held] at hl
    exact hl
  | queued _ _ hands | lent _ _ _ hands =>
    rw [h] at hands
    cases hands
  | taken _ task _ _ _ h =>
    rw [h.held] at hl
    rcases List.mem_append.1 hl with hl | hl
    · exact hl
    · rw [List.mem_singleton.1 hl] at hs
      cases hs
  | ended l' _ _ _ _ h =>
    rw [h.held] at hl
    exact List.mem_of_mem_filter hl

/-- **Only a visit puts a load on the poller's thread.** -/
theorem mem_held_after (hv : c.pollerOffers? m = none) (hl : l ∈ (c.after m).crew.held)
    (hs : l.seat = .lent true) : l ∈ c.crew.held := by
  cases m with
  | get r => exact mem_held_get hl hs
  | visit r =>
    have hcan : ¬ c.canVisit r = true := by
      intro hcan
      rw [pollerOffers?_eq_some_iff.2 ⟨rfl, hcan⟩] at hv
      cases hv
    rwa [show c.after (.visit r) = c from if_neg hcan] at hl
  | _ => exact mem_held_of_not_handed rfl hl hs

/-- The poller gets busy only with what it offers. -/
theorem pollerBusy_after (hv : c.pollerOffers? m = none) (h : c.pollerBusy = false) :
    (c.after m).pollerBusy = false := by
  rw [pollerBusy, List.any_eq_false] at h ⊢
  intro l hl hs
  exact h l (mem_held_after hv hl (by simpa using hs)) hs

/-- A load on the poller's thread keeps it busy. -/
theorem pollerBusy_of_load (ha : c.Accounted) (hl : c.load? l.id = some l)
    (hs : l.seat = .lent true) : c.pollerBusy = true := by
  rcases List.mem_append.1 (List.mem_of_find?_eq_some hl) with hcaller | hheld
  · rw [ha.awaited l hcaller] at hs
    cases hs
  · exact List.any_eq_true.2 ⟨l, hheld, by simp [hs]⟩

/-- Only in a scan does the poller offer anything. -/
theorem pollerOffers?_of_not_scanning (h : ∀ due, c.poller.phase ≠ .scanning due) :
    c.pollerOffers? m = none := by
  rw [Option.eq_none_iff_forall_ne_some]
  intro r hr
  exact h _ (scanning_of_canVisit (pollerOffers?_eq_some_iff.1 hr).2)

end OwnThread

/-! ## Before the first registration -/

/-- No scan was begun or counted, and nothing runs on the poller's thread. -/
structure Unscanned (c : Cache) : Prop where
  scans : c.poller.registry.scans = 0
  ticks : c.counters .schedulerTicks = 0
  idle : c.pollerBusy = false

/-- A poller that has not started had not started before. -/
theorem unstarted_of_after {c : Cache} {m : Move} (h : (c.after m).poller.phase = .unstarted) :
    c.poller.phase = .unstarted := by
  have hstep := c.phaseStep_after m
  generalize (c.after m).poller.phase = phase at hstep h
  cases hstep with
  | same => exact h
  | started q hq first => exact first
  | scanEnded =>
    unfold Poller.rested at h
    split at h
    · cases h
    · have hstarted := c.poller.await_started c.now
      rw [h] at hstarted
      cases hstarted
  | scanBegan | visited | stopped | crashed => cases h

/-- A poller that has not started has done nothing. -/
theorem unscanned_of_unstarted {c : Cache} (hc : c.Reachable)
    (h : c.poller.phase = .unstarted) : c.Unscanned := by
  induction hc with
  | launched hc =>
    obtain ⟨⟨b, now, hb⟩, -⟩ := hc
    obtain ⟨executor, rfl⟩ := eq_of_build hb
    cases executor <;> exact ⟨rfl, rfl, rfl⟩
  | @after c m hc hm ih =>
    have hbefore := unstarted_of_after h
    have hnot : ∀ due, c.poller.phase ≠ .scanning due := by
      intro due hp
      rw [hbefore] at hp
      cases hp
    obtain ⟨hscans, hticks, hidle⟩ := ih hbefore
    constructor
    · rcases c.scans_after m with ⟨⟨-, deadline, waits, -⟩, -⟩ | ⟨-, hsame⟩
      · rw [hbefore] at waits
        cases waits
      · exact hsame.trans hscans
    · have hdone : c.completesScan m = false := by
        rw [Bool.eq_false_iff, ne_eq, completesScan_iff]
        rintro ⟨-, done⟩
        exact hnot _ done.nothingLeft
      rw [schedulerTicks_after, hdone, hticks]
      rfl
    · exact pollerBusy_after (pollerOffers?_of_not_scanning hnot) hidle

/-- The interval of a poller is at least a second, the shortest that can be built. -/
theorem minPollInterval_le {c : Cache} (hc : c.Reachable) :
    minPollInterval ≤ c.poller.interval := by
  induction hc with
  | launched hc =>
    obtain ⟨⟨b, now, hb⟩, -⟩ := hc
    rw [poller_of_build hb]
    unfold Blueprint.build at hb
    by_cases hp : b.pollInterval < minPollInterval
    · rw [if_pos hp] at hb
      cases hb
    · exact Nat.not_lt.1 hp
  | after _ _ ih => rwa [(pollerStep_after _ _).interval_eq]

/-! ## The beat -/

/-- The poller is in the beat of its interval, counted from a reading. It waits for the multiple
after those of all scans that have begun, and these are over; or it scans, or was felled in a scan,
at the multiple of the last scan that has begun. -/
inductive Beat (start : Nat) (c : Cache) : Prop
  | waits (keptUp : c.KeptUp) (idle : c.pollerBusy = false)
      (phase : c.poller.phase =
        .waiting (start + (c.poller.registry.scans + 1) * c.poller.interval))
      (since : start + c.poller.registry.scans * c.poller.interval ≤ c.now)
      (early : c.now ≤ start + (c.poller.registry.scans + 1) * c.poller.interval)
  | scans (phase : (∃ due, c.poller.phase = .scanning due) ∨ c.poller.phase = .crashed)
      (oneMore : c.poller.registry.scans = c.counters .schedulerTicks + 1)
      (sharp : c.now = start + c.poller.registry.scans * c.poller.interval)

/-- What a run keeps up in which the poller keeps time. -/
structure OnBeat (start : Nat) (c : Cache) : Prop where
  books : c.Accounted
  isOpen : c.poller.closed = false
  beat : Beat start c

section Beats

variable {start : Nat} {c : Cache} {m : Move}

/-- No other move changes the count of scans. -/
theorem scans_after_of_not_starts (h : c.startsScan m = false) :
    (c.after m).poller.registry.scans = c.poller.registry.scans := by
  rw [scans_after_eq, h]
  rfl

theorem ticks_after_of_not_completes (h : c.completesScan m = false) :
    (c.after m).counters .schedulerTicks = c.counters .schedulerTicks := by
  rw [schedulerTicks_after, h]
  rfl

/-- A poller that waits completes no scan. -/
theorem completesScan_of_waiting {deadline : Nat} (h : c.poller.phase = .waiting deadline)
    (m : Move) : c.completesScan m = false := by
  rw [Bool.eq_false_iff, ne_eq, completesScan_iff]
  rintro ⟨-, done⟩
  rw [done.nothingLeft] at h
  cases h

/-- A poller that waits begins its scan at its deadline, and not before. -/
theorem BeginsScan.deadline_le {deadline : Nat} (h : c.BeginsScan m)
    (hp : c.poller.phase = .waiting deadline) : deadline ≤ c.now := by
  obtain ⟨-, deadline', waits, hd⟩ := h
  rw [hp] at waits
  cases waits
  exact hd

/-- The phase of a poller that waits stays, unless its scan begins or the cache is closed. -/
theorem phase_after_of_waiting (ha : c.Accounted) (hidle : c.pollerBusy = false) {deadline : Nat}
    (hp : c.poller.phase = .waiting deadline) (hm : c.KeepsTime m)
    (hstarts : c.startsScan m = false) : (c.after m).poller.phase = .waiting deadline := by
  have hstep := c.phaseStep_after m
  generalize (c.after m).poller.phase = phase at hstep
  cases hstep with
  | same => exact hp
  | started q hq first =>
    rw [hp] at first
    cases first
  | scanBegan hb =>
    rw [startsScan_iff.2 hb] at hstarts
    cases hstarts
  | visited q hq =>
    rw [scanning_of_canVisit (pollerOffers?_eq_some_iff.1 hq).2] at hp
    cases hp
  | scanEnded _ done =>
    rw [done.nothingLeft] at hp
    cases hp
  | stopped hclose => exact absurd hclose (by simp [hm.ne_close, hm.ne_dispose])
  | crashed l text hl _ hs =>
    rw [pollerBusy_of_load ha hl hs] at hidle
    cases hidle

/-- A tick of a run that keeps time does not pass the deadline. -/
theorem now_after_le {deadline : Nat} (hp : c.poller.phase = .waiting deadline)
    (hearly : c.now ≤ deadline) (hm : c.KeepsTime m) : (c.after m).now ≤ deadline := by
  rcases c.now_after_eq_or m with hnow | ⟨now, rfl⟩
  · rwa [hnow]
  · exact Nat.max_le.2 ⟨hearly, hm.2 deadline (by rw [hp]; rfl)⟩

/-- Before all scans are over the clock stands still. -/
theorem now_after_of_not_keptUp (h : ¬ c.KeptUp) (hm : c.KeepsTime m) :
    (c.after m).now = c.now := by
  rcases c.now_after_eq_or m with hnow | ⟨now, rfl⟩
  · exact hnow
  · exact absurd hm.1 h

/-- A poller that waits goes on waiting, or begins its scan at the deadline. -/
theorem Beat.after_of_waits (ha : c.Accounted) (hidle : c.pollerBusy = false)
    (hkept : c.KeptUp)
    (hp : c.poller.phase = .waiting (start + (c.poller.registry.scans + 1) * c.poller.interval))
    (hsince : start + c.poller.registry.scans * c.poller.interval ≤ c.now)
    (hearly : c.now ≤ start + (c.poller.registry.scans + 1) * c.poller.interval)
    (hm : c.KeepsTime m) : Beat start (c.after m) := by
  have hinterval := (c.pollerStep_after m).interval_eq
  have hticks := ticks_after_of_not_completes (completesScan_of_waiting hp m)
  cases hstarts : c.startsScan m with
  | true =>
    have hb := startsScan_iff.1 hstarts
    have hd := hb.deadline_le hp
    obtain ⟨rfl, -⟩ := hb
    have hscans : (c.after .beginScan).poller.registry.scans = c.poller.registry.scans + 1 := by
      rw [scans_after_eq, hstarts]
      rfl
    refine .scans (.inl ⟨_, phase_beginScan hp hd⟩) ?_ ?_
    · rw [hscans, hticks, hkept]
    · rw [hscans, hinterval, now_after]
      exact Nat.le_antisymm hearly hd
  | false =>
    have hscans := scans_after_of_not_starts hstarts
    refine .waits ?_ (pollerBusy_after (pollerOffers?_of_not_scanning ?_) hidle) ?_ ?_ ?_
    · rw [KeptUp, hticks, hscans]
      exact hkept
    · intro due hscanning
      rw [hp] at hscanning
      cases hscanning
    · rw [hscans, hinterval]
      exact phase_after_of_waiting ha hidle hp hm hstarts
    · rw [hscans, hinterval]
      exact Nat.le_trans hsince (c.now_le_after m)
    · rw [hscans, hinterval]
      exact now_after_le hp hearly hm

/-- A poller in a scan goes on with it, or is felled, until the scan is completed. -/
theorem phase_after_of_scanning
    (hp : (∃ due, c.poller.phase = .scanning due) ∨ c.poller.phase = .crashed)
    (hdone : c.completesScan m = false) :
    (∃ due, (c.after m).poller.phase = .scanning due) ∨ (c.after m).poller.phase = .crashed := by
  have hwaits : ∀ deadline, c.poller.phase ≠ .waiting deadline := by
    intro deadline h
    rw [h] at hp
    simp at hp
  have hstep := c.phaseStep_after m
  generalize (c.after m).poller.phase = phase at hstep
  cases hstep with
  | same => exact hp
  | started q hq first =>
    rw [first] at hp
    simp at hp
  | scanBegan hb =>
    obtain ⟨-, deadline, waits, -⟩ := hb
    exact absurd waits (hwaits deadline)
  | visited q hq => exact .inl ⟨_, rfl⟩
  | scanEnded hend done =>
    rw [completesScan_iff.2 ⟨hend, done⟩] at hdone
    cases hdone
  | stopped _ deadline waits => exact absurd waits (hwaits deadline)
  | crashed => exact .inr rfl

/-- A poller that completes its scan waits for the next multiple. -/
theorem Beat.after_endScan (hopen : c.poller.closed = false) (hnear : ¬ c.OutOfReach)
    (hone : c.poller.registry.scans = c.counters .schedulerTicks + 1)
    (hsharp : c.now = start + c.poller.registry.scans * c.poller.interval) (hdone : c.ScanDone) :
    Beat start (c.after .endScan) := by
  have hfells : ¬ c.Fells .endScan := by
    intro h
    cases h with
    | started q hq => rcases hq.eq_move with h | h <;> cases h
    | rested _ _ far => exact hnear far
  obtain ⟨hphase, hticks⟩ := rests_of_not_fells hdone hopen hfells
  have hinterval := (c.pollerStep_after .endScan).interval_eq
  have hscans := scans_after_of_not_starts (c := c) (m := .endScan) rfl
  have hnow := c.now_after .endScan
  have hnext : c.now + c.poller.interval =
      start + (c.poller.registry.scans + 1) * c.poller.interval := by
    rw [hsharp, Nat.succ_mul, Nat.add_assoc]
  refine .waits ?_ (pollerBusy_after rfl hdone.idle) ?_ ?_ ?_
  · rw [KeptUp, hticks, hscans, hone]
  · rw [hphase, hscans, hinterval, hnext]
  · rw [hscans, hinterval, hnow]
    exact Nat.le_of_eq hsharp.symm
  · rw [hscans, hinterval, hnow, ← hnext]
    exact Nat.le_add_right ..

/-- A poller in a scan goes on with it, while the clock stands still, or completes it. -/
theorem Beat.after_of_scans (hopen : c.poller.closed = false) (hnear : ¬ c.OutOfReach)
    (hp : (∃ due, c.poller.phase = .scanning due) ∨ c.poller.phase = .crashed)
    (hone : c.poller.registry.scans = c.counters .schedulerTicks + 1)
    (hsharp : c.now = start + c.poller.registry.scans * c.poller.interval)
    (hm : c.KeepsTime m) : Beat start (c.after m) := by
  cases hcompletes : c.completesScan m with
  | true =>
    obtain ⟨rfl, hdone⟩ := completesScan_iff.1 hcompletes
    exact .after_endScan hopen hnear hone hsharp hdone
  | false =>
    have hstarts : c.startsScan m = false := by
      rw [Bool.eq_false_iff, ne_eq, startsScan_iff]
      rintro ⟨-, deadline, waits, -⟩
      rw [waits] at hp
      simp at hp
    have hscans := scans_after_of_not_starts hstarts
    have hkept : ¬ c.KeptUp := by
      rw [KeptUp]
      omega
    refine .scans (phase_after_of_scanning hp hcompletes) ?_ ?_
    · rw [hscans, ticks_after_of_not_completes hcompletes, hone]
    · rw [hscans, (c.pollerStep_after m).interval_eq, now_after_of_not_keptUp hkept hm, hsharp]

/-- **A move that keeps time keeps the beat.** -/
theorem OnBeat.after (h : OnBeat start c) (hm : c.KeepsTime m) (hnear : ¬ c.OutOfReach) :
    OnBeat start (c.after m) where
  books := h.books.after m
  isOpen := ((c.pollerStep_after m).closed_eq hm.ne_close hm.ne_dispose).trans h.isOpen
  beat := by
    cases h.beat with
    | waits keptUp idle phase since early =>
      exact .after_of_waits h.books idle keptUp phase since early hm
    | scans phase oneMore sharp => exact .after_of_scans h.isOpen hnear phase oneMore sharp hm

/-- **A poller that is kept up** stays on its beat. -/
theorem OnBeat.run {ms : List Move} (h : OnBeat start c)
    (hms : Along (fun c m => c.KeepsTime m ∧ ¬ c.OutOfReach) c ms) : OnBeat start (c.run ms) :=
  hms.preserves (fun _ _ h hm => h.after hm.1 hm.2) h

/-- A registration takes no time, begins and completes no scan, and offers nothing. -/
theorem RegistersSome.frame (h : c.RegistersSome m) : (c.after m).now = c.now ∧
    (c.after m).poller.registry.scans = c.poller.registry.scans ∧
    (c.after m).counters .schedulerTicks = c.counters .schedulerTicks ∧
    c.pollerOffers? m = none := by
  obtain ⟨q, hq⟩ := h
  rcases hq.eq_move with rfl | rfl
  · exact ⟨c.now_after _, scans_after_of_not_starts rfl, ticks_after_of_not_completes rfl, rfl⟩
  · exact ⟨c.now_after _, scans_after_of_not_starts rfl, ticks_after_of_not_completes rfl, rfl⟩

/-- A poller that is started is in the beat that is counted from its start. -/
theorem onBeat_started (hc : c.Reachable) (hfirst : c.poller.phase = .unstarted)
    (hm : c.RegistersSome m) (hnear : ¬ c.OutOfReach) : OnBeat c.now (c.after m) := by
  obtain ⟨hscans, hticks, hidle⟩ := unscanned_of_unstarted hc hfirst
  obtain ⟨hnow, hscans', hticks', hoffers⟩ := hm.frame
  rw [hscans] at hscans'
  rw [hticks] at hticks'
  obtain ⟨q, hq⟩ := hm
  have hinterval := (c.pollerStep_after m).interval_eq
  have hopen : (c.after m).poller.closed = false := by
    rw [hq.poller_after, Poller.enrolled_closed]
    exact hq.isOpen
  have hphase : (c.after m).poller.phase = .waiting (c.now + c.poller.interval) := by
    rw [hq.poller_after, Poller.enrolled_phase_of_unstarted hfirst]
    exact (Poller.await_phase _ _).resolve_right fun hcrashed =>
      hnear (Poller.await_phase_eq_crashed_iff.1 hcrashed)
  refine ⟨(accounted_of_reachable hc).after m, hopen,
    .waits (hticks'.trans hscans'.symm) (pollerBusy_after hoffers hidle) ?_ ?_ ?_⟩
  · rw [hscans', hinterval, hphase, Nat.zero_add, Nat.one_mul]
  · rw [hscans', hnow, Nat.zero_mul]
    exact Nat.le_refl _
  · rw [hscans', hnow]
    exact Nat.le_add_right ..

/-! ## What the beat says -/

/-- A scan that begins, begins at the next multiple. -/
theorem OnBeat.now_of_starts (h : OnBeat start c) (hm : c.startsScan m = true) :
    c.now = start + (c.poller.registry.scans + 1) * c.poller.interval := by
  have hb := startsScan_iff.1 hm
  cases h.beat with
  | waits _ _ phase _ early => exact Nat.le_antisymm early (hb.deadline_le phase)
  | scans phase =>
    obtain ⟨-, deadline, waits, -⟩ := hb
    rw [waits] at phase
    simp at phase

/-- A scan that is completed, is so at the multiple at which it has begun. -/
theorem OnBeat.now_of_completes (h : OnBeat start c) (hm : c.completesScan m = true) :
    c.now = start + (c.counters .schedulerTicks + 1) * c.poller.interval := by
  cases h.beat with
  | waits _ _ phase =>
    rw [completesScan_of_waiting phase m] at hm
    cases hm
  | scans _ oneMore sharp => rwa [← oneMore]

/-- With all scans over, the poller waits for the next multiple. -/
theorem OnBeat.phase_of_keptUp (h : OnBeat start c) (hkept : c.KeptUp) :
    c.poller.phase =
      .waiting (start + (c.counters .schedulerTicks + 1) * c.poller.interval) := by
  cases h.beat with
  | waits _ _ phase =>
    rw [hkept]
    exact phase
  | scans _ oneMore =>
    rw [KeptUp] at hkept
    omega

/-- The clock does not go past the beat of the next scan. -/
theorem OnBeat.now_le (h : OnBeat start c) (hkept : c.KeptUp) :
    c.now ≤ start + (c.counters .schedulerTicks + 1) * c.poller.interval := by
  cases h.beat with
  | waits _ _ _ _ early =>
    rw [hkept]
    exact early
  | scans _ oneMore =>
    rw [KeptUp] at hkept
    omega

/-- **As many scans are completed as intervals have passed.** -/
theorem OnBeat.ticks_eq (h : OnBeat start c) (hcaught : c.CaughtUp) :
    c.counters .schedulerTicks = (c.now - start) / c.poller.interval := by
  have hkept := hcaught.keptUp
  have hlt := hcaught.early (start + (c.counters .schedulerTicks + 1) * c.poller.interval) (by
    rw [h.phase_of_keptUp hkept]
    rfl)
  cases h.beat with
  | waits _ _ _ since =>
    rw [← hkept] at since
    refine (Nat.div_eq_of_lt_le ?_ ?_).symm
    · exact Nat.le_sub_of_add_le' since
    · exact Nat.sub_lt_left_of_lt_add (Nat.le_trans (Nat.le_add_right ..) since) hlt
  | scans _ oneMore =>
    rw [KeptUp] at hkept
    omega

section Turns

variable {ms : List Move}

/-- In its interval the poller is, and stays. -/
theorem OnBeat.after_interval {interval : Nat}
    (h : OnBeat start c ∧ c.poller.interval = interval)
    (hm : c.KeepsTime m ∧ ¬ c.OutOfReach) :
    OnBeat start (c.after m) ∧ (c.after m).poller.interval = interval :=
  ⟨h.1.after hm.1 hm.2, (c.pollerStep_after m).interval_eq.trans h.2⟩

/-- **Scans begin at the multiples in turn.** -/
theorem OnBeat.beats_append_starts (h : OnBeat start c)
    (hms : Along (fun c m => c.KeepsTime m ∧ ¬ c.OutOfReach) c ms) :
    beats start c.poller.interval c.poller.registry.scans ++ c.readings startsScan ms =
      beats start c.poller.interval (c.run ms).poller.registry.scans := by
  refine beats_append_readings (N := fun c => c.poller.registry.scans)
    (fun _ _ => OnBeat.after_interval) scans_after_eq ?_ ⟨h, rfl⟩ hms
  rintro c' m ⟨hbeat, hinterval⟩ hstarts
  rw [← hinterval]
  exact hbeat.now_of_starts hstarts

/-- They are completed there as well. -/
theorem OnBeat.beats_append_completes (h : OnBeat start c)
    (hms : Along (fun c m => c.KeepsTime m ∧ ¬ c.OutOfReach) c ms) :
    beats start c.poller.interval (c.counters .schedulerTicks) ++ c.readings completesScan ms =
      beats start c.poller.interval ((c.run ms).counters .schedulerTicks) := by
  refine beats_append_readings (N := fun c => c.counters .schedulerTicks)
    (fun _ _ => OnBeat.after_interval) schedulerTicks_after ?_ ⟨h, rfl⟩ hms
  rintro c' m ⟨hbeat, hinterval⟩ hcompletes
  rw [← hinterval]
  exact hbeat.now_of_completes hcompletes

end Turns

/-- A wake-up before the deadline does nothing. -/
theorem CaughtUp.after_beginScan (h : c.CaughtUp) : c.after .beginScan = c := by
  show c.beginScan?.getD c = c
  unfold beginScan?
  cases hp : c.poller.phase with
  | waiting deadline =>
    dsimp only
    rw [if_neg (Nat.not_le.2 (h.early deadline (by rw [hp]; rfl)))]
    rfl
  | _ => rfl

end Beats

/-! ## Spans of any length -/

section Spans

variable {start : Nat} {c : Cache}

/-- With all scans over, the clock can go on to any reading up to the deadline. -/
theorem OnBeat.keepsTime_tick (h : OnBeat start c) (hkept : c.KeptUp) {target : Nat}
    (htarget : target ≤ start + (c.counters .schedulerTicks + 1) * c.poller.interval) :
    c.KeepsTime (.tick target) := by
  refine ⟨hkept, fun deadline hdeadline => ?_⟩
  rw [h.phase_of_keptUp hkept] at hdeadline
  cases hdeadline
  exact htarget

/-- A span that ends before the next multiple passes in one step. -/
theorem OnBeat.exists_short (h : OnBeat start c) (hkept : c.KeptUp) {target : Nat}
    (hle : c.now ≤ target)
    (hlt : target < start + (c.counters .schedulerTicks + 1) * c.poller.interval) :
    ∃ rest, Along KeepsTime c rest ∧ (c.run rest).now = target ∧ (c.run rest).CaughtUp := by
  have hnow : (c.after (.tick target)).now = target := Nat.max_eq_right hle
  refine ⟨[.tick target], ⟨h.keepsTime_tick hkept (Nat.le_of_lt hlt), trivial⟩, hnow, hkept, ?_⟩
  intro deadline hdeadline
  rw [run_cons, run_nil, show (c.after (.tick target)).poller.phase = c.poller.phase from rfl,
    h.phase_of_keptUp hkept] at hdeadline
  cases hdeadline
  rw [run_cons, run_nil, hnow]
  exact hlt

/-- What brings a scan on begins none, and takes no time. -/
theorem run_bringsOn {rest : List Move} (h : Along (fun _ => BringsOn) c rest) :
    (c.run rest).now = c.now ∧ (c.run rest).poller.registry.scans = c.poller.registry.scans := by
  refine h.preserves (I := fun c' => c'.now = c.now ∧
    c'.poller.registry.scans = c.poller.registry.scans) ?_ ⟨rfl, rfl⟩
  rintro c' m ⟨hnow, hscans⟩ hm
  refine ⟨(hm.now_after c').trans hnow, (scans_after_of_not_starts ?_).trans hscans⟩
  cases hm <;> rfl

/-- A scan that has begun can be completed at once. -/
theorem OnBeat.exists_completed (h : OnBeat start c) (hnear : ¬ c.OutOfReach)
    {due : List Request} (hp : c.poller.phase = .scanning due) :
    ∃ rest, Along KeepsTime c rest ∧ (c.run rest).now = c.now ∧
      (c.run rest).poller.registry.scans = c.poller.registry.scans ∧ (c.run rest).KeptUp := by
  obtain ⟨rest, hrest, hdone⟩ := exists_bringsOn h.books hp
  obtain ⟨hnow, hscans⟩ := run_bringsOn hrest
  have hkeeps : Along KeepsTime c rest := hrest.mono fun c _ hm => hm.keepsTime c
  have hreach : Along (fun c _ => ¬ c.OutOfReach) c rest := by
    refine along_not_outOfReach ?_
    rw [hnow]
    simpa [OutOfReach] using hnear
  have hone : (c.run rest).poller.registry.scans =
      (c.run rest).counters .schedulerTicks + 1 := by
    cases (h.run (hkeeps.and hreach)).beat with
    | waits _ _ phase =>
      rw [hdone.nothingLeft] at phase
      cases phase
    | scans _ oneMore => exact oneMore
  refine ⟨rest ++ [.endScan], ?_, ?_, ?_, ?_⟩
  · rw [along_append]
    exact ⟨hkeeps, trivial, trivial⟩
  · rw [run_append]
    exact (now_after _ .endScan).trans hnow
  · rw [run_append]
    exact (scans_after_of_not_starts rfl).trans hscans
  · rw [run_append]
    show ((c.run rest).after .endScan).KeptUp
    rw [KeptUp, scans_after_of_not_starts rfl, schedulerTicks_after,
      completesScan_iff.2 ⟨rfl, hdone⟩, hone]
    rfl

/-- The poller can be brought to its deadline and through the scan that is due then. -/
theorem OnBeat.exists_next (h : OnBeat start c) (hkept : c.KeptUp) {deadline : Nat}
    (hdeadline : deadline = start + (c.counters .schedulerTicks + 1) * c.poller.interval)
    (hnear : Clock.reachable (deadline + c.poller.interval) = true) :
    ∃ rest, Along KeepsTime c rest ∧ (c.run rest).now = deadline ∧ (c.run rest).KeptUp ∧
      (c.run rest).counters .schedulerTicks = c.counters .schedulerTicks + 1 := by
  have hle : c.now ≤ deadline := by
    rw [hdeadline]
    exact h.now_le hkept
  have hnow : (c.after (.tick deadline)).now = deadline := Nat.max_eq_right hle
  have hwaits : (c.after (.tick deadline)).poller.phase = .waiting deadline := by
    rw [hdeadline]
    exact h.phase_of_keptUp hkept
  have hdue : deadline ≤ (c.after (.tick deadline)).now := Nat.le_of_eq hnow.symm
  have htick : c.KeepsTime (.tick deadline) :=
    h.keepsTime_tick hkept (Nat.le_of_eq hdeadline)
  have hbeat : OnBeat start (c.after (.tick deadline)) := h.after htick (not_outOfReach hle hnear)
  -- the scan begins, and is completed at once
  have hnow' : ((c.after (.tick deadline)).after .beginScan).now = deadline :=
    (now_after _ .beginScan).trans hnow
  have hscans : ((c.after (.tick deadline)).after .beginScan).poller.registry.scans =
      c.poller.registry.scans + 1 := by
    rw [scans_after_eq, startsScan_iff.2 ⟨rfl, deadline, hwaits, hdue⟩]
    rfl
  have hbeat' := hbeat.after (m := .beginScan) trivial
    (not_outOfReach (Nat.le_of_eq hnow) hnear)
  obtain ⟨rest, hrest, hrestNow, hrestScans, hrestKept⟩ := hbeat'.exists_completed
    (not_outOfReach (Nat.le_of_eq hnow') (by rwa [(pollerStep_after _ _).interval_eq]))
    (phase_beginScan hwaits hdue)
  refine ⟨.tick deadline :: .beginScan :: rest, ⟨htick, trivial, hrest⟩,
    hrestNow.trans hnow', hrestKept, ?_⟩
  rw [hkept, ← hscans, ← hrestScans]
  exact hrestKept

/-- **A span of any length can pass,** past any number of deadlines. -/
theorem OnBeat.exists_span (h : OnBeat start c) (hkept : c.KeptUp) (hp : 0 < c.poller.interval)
    {target : Nat} (hle : c.now ≤ target)
    (hnear : Clock.reachable (target + c.poller.interval) = true) :
    ∃ rest, Along KeepsTime c rest ∧ (c.run rest).now = target ∧ (c.run rest).CaughtUp := by
  -- the induction is on the number of deadlines up to the target
  have hsome : ∃ n, target < start + (c.counters .schedulerTicks + 1 + n) * c.poller.interval := by
    refine ⟨target, ?_⟩
    have hmul : c.counters .schedulerTicks + 1 + target ≤
        (c.counters .schedulerTicks + 1 + target) * c.poller.interval :=
      Nat.le_mul_of_pos_right _ hp
    omega
  obtain ⟨n, hn⟩ := hsome
  induction n generalizing c with
  | zero => exact h.exists_short hkept hle hn
  | succ n ih =>
    by_cases hlt : target < start + (c.counters .schedulerTicks + 1) * c.poller.interval
    · exact h.exists_short hkept hle hlt
    · have hpass := Nat.not_lt.1 hlt
      have hreach := Clock.reachable_of_le (Nat.add_le_add_right hpass _) hnear
      obtain ⟨before, hbefore, hnow, hkept', hticks⟩ := h.exists_next hkept rfl hreach
      have hinterval := c.interval_run before
      have hbeat : OnBeat start (c.run before) := by
        refine h.run (hbefore.and (along_not_outOfReach ?_))
        rwa [hnow]
      have hfewer : target < start +
          ((c.run before).counters .schedulerTicks + 1 + n) * (c.run before).poller.interval := by
        rw [hticks, hinterval, Nat.add_assoc _ 1 n, Nat.add_comm 1 n]
        exact hn
      obtain ⟨rest, hrest, hend, hcaught⟩ := ih hbeat hkept' (by rwa [hinterval])
        (by rwa [hnow]) (by rwa [hinterval]) hfewer
      refine ⟨before ++ rest, along_append.2 ⟨hbefore, hrest⟩, ?_, ?_⟩
      · rwa [run_append]
      · rwa [run_append]

end Spans

/-! ## The close -/

section Closing

variable {start : Nat} {c : Cache} {m : Move}

/-- A poller that was told to stop, and does not wait, never waits again. -/
theorem not_waiting_after (hclosed : c.poller.closed = true)
    (hwaits : ∀ deadline, c.poller.phase ≠ .waiting deadline) (deadline : Nat) :
    (c.after m).poller.phase ≠ .waiting deadline := by
  intro hp
  have hstep := c.phaseStep_after m
  generalize (c.after m).poller.phase = phase at hstep hp
  cases hstep with
  | same => exact hwaits deadline hp
  | started q hq => exact not_registers_of_closed hclosed q hq
  | scanEnded =>
    rw [Poller.rested, if_pos hclosed] at hp
    cases hp
  | scanBegan | visited | stopped | crashed => cases hp

/-- So no scan begins any more. -/
theorem readings_startsScan_of_closed (hclosed : c.poller.closed = true)
    (hwaits : ∀ deadline, c.poller.phase ≠ .waiting deadline) (ms : List Move) :
    c.readings startsScan ms = [] := by
  induction ms generalizing c with
  | nil => rfl
  | cons m ms ih =>
    have hstarts : c.startsScan m = false := by
      rw [Bool.eq_false_iff, ne_eq, startsScan_iff]
      rintro ⟨-, deadline, waits, -⟩
      exact hwaits deadline waits
    rw [readings, hstarts, ih (closed_after hclosed) (not_waiting_after hclosed hwaits)]
    rfl

/-- A close takes a poller out of its wait. -/
theorem not_waiting_close (hopen : c.poller.closed = false) (deadline : Nat) :
    (c.after .close).poller.phase ≠ .waiting deadline := by
  show c.close.poller.phase ≠ _
  unfold close
  rw [if_neg (by simp [hopen])]
  intro h
  cases hp : c.poller.phase with
  | _ =>
    simp only [hp] at h
    cases h

/-- A poller between two scans has stopped when the close comes back. -/
theorem OnBeat.retired_close (h : OnBeat start c) (hkept : c.KeptUp) :
    (c.after .close).Retired := by
  have hp := h.phase_of_keptUp hkept
  refine Cache.retired_close h.isOpen ?_ ?_
  · intro due hscan
    rw [hp] at hscan
    cases hscan
  · intro hcrash
    rw [hp] at hcrash
    cases hcrash

end Closing

/-- **Scans do not drift.** Let a poller be started by the first registration, and let a run of any
moves follow in which it wakes up at its deadlines, its scans take no time, nobody closes the cache,
and a timer can be set to the deadlines. Then:

1. the scans begin at the multiples of the interval, counted from the start, one at each;
2. they are completed at the same readings;
3. with all scans over, the poller waits for the next multiple;
4. when no scan is due, as many are completed as intervals have passed since the start, and a
   wake-up does nothing;
5. with all scans over, a span of any length can pass so, past any number of deadlines;
6. after a close no scan begins any more, and between two scans the poller has stopped when the
   close comes back. -/
theorem scans_keep_time {c : Cache} (hc : c.Reachable) (hfirst : c.poller.phase = .unstarted)
    {m : Move} (hm : c.RegistersSome m) {ms : List Move} (hms : Along KeepsTime (c.after m) ms)
    (hnear : Clock.reachable (((c.after m).run ms).now + c.poller.interval) = true) :
    let late := (c.after m).run ms
    (c.after m).readings startsScan ms =
      beats c.now c.poller.interval late.poller.registry.scans ∧
    (c.after m).readings completesScan ms =
      beats c.now c.poller.interval (late.counters .schedulerTicks) ∧
    (late.KeptUp → late.poller.phase =
      .waiting (c.now + (late.counters .schedulerTicks + 1) * c.poller.interval)) ∧
    (late.CaughtUp →
      late.counters .schedulerTicks = (late.now - c.now) / c.poller.interval ∧
        late.after .beginScan = late) ∧
    (late.KeptUp → ∀ d, Clock.reachable (late.now + d + c.poller.interval) = true →
      ∃ rest, Along KeepsTime late rest ∧ (late.run rest).now = late.now + d ∧
        (late.run rest).CaughtUp) ∧
    (∀ later, (late.after .close).readings startsScan later = []) ∧
    (late.KeptUp → (late.after .close).Retired) := by
  intro late
  obtain ⟨hnow, hscans, hticks, -⟩ := hm.frame
  obtain ⟨hzeroScans, hzeroTicks, -⟩ := unscanned_of_unstarted hc hfirst
  rw [hzeroScans] at hscans
  rw [hzeroTicks] at hticks
  have hinterval : (c.after m).poller.interval = c.poller.interval :=
    (c.pollerStep_after m).interval_eq
  have hinterval' : late.poller.interval = c.poller.interval :=
    (interval_run _ ms).trans hinterval
  have hstart : OnBeat c.now (c.after m) := by
    refine onBeat_started hc hfirst hm (not_outOfReach ?_ hnear)
    rw [← hnow]
    exact now_le_run _ ms
  have hkeeps : Along (fun c m => c.KeepsTime m ∧ ¬ c.OutOfReach) (c.after m) ms :=
    hms.and (along_not_outOfReach (by rwa [hinterval]))
  have hlate : OnBeat c.now late := hstart.run hkeeps
  refine ⟨?_, ?_, ?_, ?_, ?_, ?_, hlate.retired_close⟩
  · have h := hstart.beats_append_starts hkeeps
    rwa [hscans, hinterval] at h
  · have h := hstart.beats_append_completes hkeeps
    rwa [hticks, hinterval] at h
  · intro hkept
    rw [← hinterval']
    exact hlate.phase_of_keptUp hkept
  · intro hcaught
    rw [← hinterval']
    exact ⟨hlate.ticks_eq hcaught, hcaught.after_beginScan⟩
  · intro hkept d hd
    rw [← hinterval'] at hd
    have hpos : 0 < late.poller.interval := by
      rw [hinterval']
      exact Nat.lt_of_lt_of_le (by decide) (minPollInterval_le hc)
    exact hlate.exists_span hkept hpos (Nat.le_add_right ..) hd
  · exact readings_startsScan_of_closed (late.closed_run_close []) (not_waiting_close hlate.isOpen)

/-- Steps of the clock of all sizes, a wake-up before the deadline, and calls of all kinds before
the first scan, which has something to offer, and the second, which has not. -/
def unevenSteps : List Move :=
  [.tick minPollInterval, .beginScan, .set "settings" "new" Clock.second,
    .tick (minPollInterval + 5), .beginScan, .visit profile, .endScan, .get profile,
    .unschedule "profile", .remove "settings", .tick (2 * minPollInterval + 5), .beginScan,
    .endScan, .tick (2 * minPollInterval + 6)]

/-- From a start at reading five on, the scans are at five past every interval. -/
theorem scans_keep_time_unevenSteps :
    let started := ((overMap .threads).after (.tick 5)).after (.schedule profile)
    let late := started.run unevenSteps
    started.readings startsScan unevenSteps = [minPollInterval + 5, 2 * minPollInterval + 5] ∧
      late.counters .schedulerTicks = 2 ∧ late.after .beginScan = late ∧
      ∀ later, (late.after .close).readings startsScan later = [] := by
  intro started late
  have hc : ((overMap .threads).after (.tick 5)).Reachable :=
    .after (reachable_overMap .threads) trivial
  have hm : ((overMap .threads).after (.tick 5)).RegistersSome (.schedule profile) :=
    ⟨profile, .scheduled rfl⟩
  have hms : Along KeepsTime started unevenSteps := by decide +kernel
  have hcaught : late.CaughtUp := ⟨by decide +kernel, by decide +kernel⟩
  obtain ⟨hstarts, -, -, hcount, -, hclose, -⟩ :=
    scans_keep_time hc rfl hm hms (by decide +kernel)
  obtain ⟨hticks, hidle⟩ := hcount hcaught
  have hnow : late.now = 2 * minPollInterval + 6 := by decide +kernel
  have hspan : late.counters .schedulerTicks = 2 := by
    rw [hticks, hnow]
    decide
  exact ⟨hstarts.trans (by decide +kernel), hspan, hidle, hclose⟩

end Cache

end Evergreen
