import Evergreen.Proofs.TaskSteps

/-!
# The crew of an executor

A cache has the crew of the executor that it was built with: with as much room in its queue, as
many hands, and the same order. Moves change what waits and what is held, and may shut the
queue, but nothing else (`Staffed`). No hand ever has more than one load, so when a load that a
hand had has ended, there is a hand for the next task (`start?_zero`).
-/

namespace Evergreen.Cache

/-- The crew is one of the executor's, and no hand has more than one load. -/
structure Staffed (c : Cache) : Prop where
  room : c.crew.room = c.executor.crew.room
  hands : c.crew.hands = c.executor.crew.hands
  inOrder : c.crew.inOrder = c.executor.crew.inOrder
  held_le : ∀ n, c.crew.hands = some n → c.crew.held.length ≤ n

/-- A crew just hired holds and keeps nothing. -/
theorem staffed_of_launched {c : Cache} (h : c.Launched) : c.Staffed := by
  obtain ⟨⟨b, now, hb⟩, -⟩ := h
  obtain ⟨executor, rfl⟩ := eq_of_build hb
  refine ⟨rfl, rfl, rfl, fun n _ => ?_⟩
  have hheld : executor.crew.held = [] := by cases executor <;> rfl
  simp [hheld]

/-- A hand takes up the task at a place of the queue if it is free, and if the place is the
first one where the order counts. -/
theorem start?_eq (c : Cache) (place : Nat) :
    c.start? place =
      if c.crew.idle && (!c.crew.inOrder || place == 0) then
        c.crew.waiting[place]?.map fun task =>
          { c with crew := { c.crew with waiting := c.crew.waiting.eraseIdx place } }.enter
            task.request task.stale .worker
      else none := by
  unfold start? Crew.take? Crew.remove?
  split
  · cases c.crew.waiting[place]? <;> rfl
  · rfl

namespace Staffed

variable {c c' : Cache}

/-- What leaves the crew alone leaves it in order. -/
theorem congr (h : c.Staffed) (hx : c'.executor = c.executor) (hc : c'.crew = c.crew) :
    c'.Staffed where
  room := by rw [hx, hc, h.room]
  hands := by rw [hx, hc, h.hands]
  inOrder := by rw [hx, hc, h.inOrder]
  held_le := by
    rw [hc]
    exact h.held_le

theorem storeOnly (h : c.Staffed) (hs : StoreOnly c c') : c'.Staffed :=
  h.congr hs.executor hs.crew

theorem storeAndMarks (h : c.Staffed) (hs : StoreAndMarks c c') : c'.Staffed :=
  h.congr hs.executor hs.crew

theorem pollerOnly (h : c.Staffed) (hs : PollerOnly c c') : c'.Staffed :=
  h.congr hs.executor hs.crew

/-- Only the queue has changed. -/
theorem withWaiting (h : c.Staffed) (waiting : List Reload) :
    Staffed { c with crew := { c.crew with waiting } } :=
  ⟨h.room, h.hands, h.inOrder, h.held_le⟩

/-- A load that begins is held by the crew or awaited by a caller. If it is held, a hand must
have been free. -/
theorem enter (h : c.Staffed) (r : Request) (stale : Option Entry) (seat : Seat)
    (hfree : seat ≠ .caller → c.crew.idle = true) : (c.enter r stale seat).2.Staffed := by
  have hhold (l : Load) (hi : c.crew.idle = true) (n : Nat) (hn : c.crew.hands = some n) :
      (c.crew.hold l).held.length ≤ n := by
    have hlt : c.crew.held.length < n := by simpa [Crew.idle, hn] using hi
    rw [Crew.hold, List.length_append]
    exact hlt
  cases seat with
  | caller => exact h.congr rfl rfl
  | worker => exact ⟨h.room, h.hands, h.inOrder, hhold _ (hfree (by simp))⟩
  | lent byPoller => exact ⟨h.room, h.hands, h.inOrder, hhold _ (hfree (by simp))⟩

/-- An offer is taken in where there is room for it, or any number of hands. -/
theorem offer (h : c.Staffed) (r : Request) (stale : Option Entry) (byPoller : Bool) :
    (c.offer r stale byPoller).2.Staffed := by
  rcases c.offer_cases r stale byPoller with
    ⟨-, ho⟩ | ⟨-, he, ho⟩ | ⟨-, crew, hcrew, ho⟩ | ⟨-, why, -, ho⟩
  · rw [ho]
    exact h.congr rfl rfl
  · -- an executor that runs tasks in place has any number of hands
    have hi : c.crew.idle = true := by
      simp [Crew.idle, h.hands, he, Executor.crew]
    have hm : (c.markInFlight r.key).Staffed := h.congr rfl rfl
    rw [ho]
    exact hm.enter r stale (.lent byPoller) fun _ => hi
  · rw [ho]
    obtain ⟨-, -, rfl⟩ := Crew.offer_eq_ok_iff.1 hcrew
    exact (h.withWaiting _).congr rfl rfl
  · rw [ho]
    exact h.congr rfl rfl

/-- A task moves from the queue to a hand. -/
theorem start (h : c.Staffed) (place : Nat) : (c.after (.start place)).Staffed := by
  have hs := c.start?_eq place
  simp only [Cache.after]
  cases hl : c.start? place with
  | none => exact h
  | some p =>
    rw [hl] at hs
    split at hs
    · rename_i hfree
      obtain ⟨task, -, rfl⟩ := Option.map_eq_some_iff.1 hs.symm
      exact (h.withWaiting _).enter _ _ _ fun _ => (Bool.and_eq_true_iff.1 hfree).1
    · cases hs

/-- The end of a load frees its hand. -/
theorem finish (h : c.Staffed) (l : Load) (o : Outcome) : (c.finish l o).2.Staffed := by
  have he := c.ended_finish l o
  have hs := (c.leave l).storeAndMarks_settle l o
  refine Staffed.congr ?_ (he.executor.trans hs.executor) (he.crew.trans hs.crew)
  refine ⟨h.room, h.hands, h.inOrder, fun n hn => ?_⟩
  exact Nat.le_trans (List.length_filter_le ..) (h.held_le n hn)

/-- A move keeps a crew within its limits. -/
theorem after (h : c.Staffed) (m : Move) : (c.after m).Staffed := by
  cases m with
  | get r =>
    have hl := h.storeOnly (c.storeOnly_looked r)
    show (c.get r).2.Staffed
    rw [get_snd]
    cases c.nextAction r with
    | serve => exact hl
    | loadForCaller => exact hl.enter _ _ _ fun hne => absurd rfl hne
    | serveAndReload => exact hl.offer ..
    | serveAndRegister => exact hl.pollerOnly (pollerOnly_registerIfAbsent ..)
  | peek k => exact h.storeOnly (c.storeOnly_peek k)
  | set k v ttl => exact h.storeOnly (c.storeOnly_set k v ttl)
  | setEntry k e => exact h.storeOnly (c.storeOnly_setEntry k e)
  | remove k => exact h.storeAndMarks (c.storeAndMarks_remove k)
  | removeAll => exact h.storeAndMarks c.storeAndMarks_removeAll
  | schedule r =>
    show (c.schedule r).2.Staffed
    unfold schedule register
    split
    · exact h.congr rfl rfl
    · split
      · exact h.pollerOnly (pollerOnly_enroll ..)
      · split
        · exact h.congr rfl rfl
        · have hr : (c.resetMark r.family).Staffed := h.congr rfl rfl
          exact hr.pollerOnly (pollerOnly_enroll ..)
  | close => exact h.pollerOnly c.pollerOnly_close
  | dispose => exact h.pollerOnly c.pollerOnly_dispose
  | start place => exact h.start place
  | discard place =>
    rcases c.after_discard place with hd | ⟨task, -, hd⟩
    · rwa [hd]
    · rw [hd]
      exact (h.withWaiting _).congr rfl rfl
  | finish id o =>
    rcases c.after_finish_eq_or id o with hf | ⟨l, -, -, hf⟩
    · rwa [hf]
    · rw [hf]
      exact h.finish l o
  | beginScan => exact h.pollerOnly c.pollerOnly_beginScan
  | visit r =>
    simp only [Cache.after]
    split
    · rename_i hv
      have hl : (c.visited c.scanLeft r).Staffed :=
        h.congr (storeOnly_lookup ..).executor (storeOnly_lookup ..).crew
      rcases visit_snd (scanning_of_canVisit hv) r with hr | ⟨o, hr⟩
      · rw [hr]
        exact hl.offer ..
      · rw [hr]
        exact (hl.offer ..).congr rfl rfl
    · exact h
  | endScan => exact h.pollerOnly c.pollerOnly_after_endScan
  | purge => exact h.storeOnly c.storeOnly_purged
  | shut => exact ⟨h.room, h.hands, h.inOrder, h.held_le⟩
  | tick _ | unschedule _ | forecast _ | forget => exact h.congr rfl rfl

/-- A run keeps a crew within its limits. -/
theorem run (h : c.Staffed) (ms : List Move) : (c.run ms).Staffed :=
  run_preserves (fun _ m h => h.after m) h ms

end Staffed

/-- The hand that had a load is free when the load has ended. -/
theorem Staffed.idle_leave {c : Cache} (h : c.Staffed) {l : Load} (hl : l ∈ c.crew.held) :
    (c.leave l).crew.idle = true := by
  have hlt : (c.leave l).crew.held.length < c.crew.held.length := by
    refine List.length_filter_lt_length_iff_exists.2 ⟨l, hl, ?_⟩
    simp
  show c.crew.hands.all _ = true
  cases hn : c.crew.hands with
  | none => rfl
  | some n => simpa using Nat.lt_of_lt_of_le hlt (h.held_le n hn)

/-- **A free hand takes up the task that has waited longest.** -/
theorem start?_zero {c : Cache} (hi : c.crew.idle = true) {task : Reload} {rest : List Reload}
    (hw : c.crew.waiting = task :: rest) :
    c.start? 0 = some ({ c with crew := { c.crew with waiting := rest } }.enter
      task.request task.stale .worker) := by
  rw [start?_eq, hw, hi]
  simp

theorem staffed_of_reachable {c : Cache} (h : c.Reachable) : c.Staffed := by
  induction h with
  | launched h => exact staffed_of_launched h
  | after _ _ ih => exact ih.after _

end Evergreen.Cache
