import Evergreen.Proofs.Asides
import Evergreen.Proofs.Crews
import Evergreen.Proofs.Endurance
import Evergreen.Proofs.ModeTable

/-!
# Panics

A panic takes the place of all that the end of a load would have done: nothing is written,
marked or counted. What is left of the load is what its beginning has done.

- A reload that a hand has taken up (`PanicsInBackground`): its beginning is counted, its panic
  is logged by a pool of workers and by nobody else, the mark of its key is taken away, and the
  hand is free for the task that has waited longest.
- A load that a caller waits for (`PanicsForCaller`): its beginning is counted, its panic reaches
  the caller. A run with such a load shows the same as a run in which its get had looked the key
  up and left it at that (`onlyLooked`), and ends in the same cache, but for that count and for
  the note of the call of the loader (`SyncTrace`).

In both cases anything may happen between the call of the loader and its panic.
-/

namespace Evergreen.Cache

/-! ## Reloads that panic -/

/-- What there is to log of a reload that panicked: pools of workers log, other executors do
not. -/
def panicNotes : Executor → List Event
  | .pool .. => [.reloadPanicked]
  | _ => []

/-- The end of a reload whose loader panicked. -/
theorem finish_panic_worker {c : Cache} {l : Load} (hs : l.seat = .worker) (text : String) :
    c.finish l (.panic text) =
      (.panicked text, { c.leave l with
        inFlight := c.inFlight.erase l.key
        journal := panicNotes c.executor ++ c.journal }) := by
  obtain ⟨_, _, _, executor, _, _, _, _, _, _, _, _, _⟩ := c
  simp only [finish, settle, hs]
  cases executor <;> rfl

/-- What the beginning of a load by a hand changes, besides the tasks: it is counted. -/
structure BeginsInBackground (c c₁ : Cache) : Prop where
  /-- The store, the refresh marks and the poller with its registry are left alone. -/
  tasksOnly : TasksOnly c c₁
  inFlight : c₁.inFlight = c.inFlight
  counted : c₁.counters = c.counters.bump .backgroundLoads

/-- What a panic of the loader changes where a hand has its load. -/
structure PanicsInBackground (c : Cache) (l : Load) (text : String) : Prop where
  answered : c.answer (.finish l.id (.panic text)) = .ended (some (.panicked text))
  /-- Everything is left alone but the load, the mark of its key and the log. -/
  ends : c.after (.finish l.id (.panic text)) =
    { c.leave l with
      inFlight := c.inFlight.erase l.key
      journal := panicNotes c.executor ++ c.journal }
  released : c.isReloading l.key = true ∧
    (c.after (.finish l.id (.panic text))).isReloading l.key = false
  logged : ∀ workers room, c.executor = .pool workers room → ∃ record, record.level = .error ∧
    (c.after (.finish l.id (.panic text))).journal.filterMap Event.record? =
      record :: c.journal.filterMap Event.record?
  /-- The task that has waited longest is taken up. -/
  goesOn : ∀ task rest, c.crew.waiting = task :: rest → ∃ next c',
    (c.after (.finish l.id (.panic text))).start? 0 = some (next, c') ∧
      next.request = task.request ∧ next.stale = task.stale ∧ c'.crew.waiting = rest

section Background

variable {c c₁ : Cache} {l : Load} {place : Nat}

/-- A load under way stays so along a run in which it does not end. -/
theorem mem_loads_run {ms : List Move} (hl : l ∈ c.loads) (hms : ∀ o, .finish l.id o ∉ ms) :
    l ∈ (c.run ms).loads := by
  induction ms generalizing c with
  | nil => exact hl
  | cons m ms ih =>
    refine ih (mem_loads_after_of_ne hl fun o hm => hms o (hm ▸ .head _)) fun o ho => ?_
    exact hms o (.tail _ ho)

/-- What a load is that a hand takes up, and what its beginning changes. -/
theorem begun_of_start? (h : c.start? place = some (l, c₁)) :
    l.seat = .worker ∧ l ∈ c₁.loads ∧ BeginsInBackground c c₁ := by
  rw [start?_eq] at h
  split at h
  · obtain ⟨task, -, he⟩ := Option.map_eq_some_iff.1 h
    cases he
    refine ⟨rfl, ?_, ⟨rfl, rfl, rfl, rfl, rfl⟩, rfl, rfl⟩
    exact List.mem_append_right _ (List.mem_append_right _ (.head _))
  · cases h

/-- **A reload whose loader panics** leaves nothing but a record, and that if a pool of workers
ran it. -/
theorem panic_in_background (hacc : c.Accounted) (hstaffed : c.Staffed) (hl : l ∈ c.loads)
    (hseat : l.seat = .worker) (text : String) : PanicsInBackground c l text := by
  have hload := hacc.load?_of_mem hl
  have hheld : l ∈ c.crew.held := (hacc.mem_held_iff hl).2 (by rw [hseat]; nofun)
  have hend : c.after (.finish l.id (.panic text)) =
      { c.leave l with
        inFlight := c.inFlight.erase l.key
        journal := panicNotes c.executor ++ c.journal } := by
    rw [after_finish hload, finish_panic_worker hseat]
  -- the key had this one task, so its only mark goes with it
  have hkeys := taskKeys_leave_held hacc hheld
  obtain ⟨herased, -, hgone⟩ := hacc.erase hkeys
  refine ⟨?_, hend, ⟨?_, ?_⟩, ?_, ?_⟩
  · show Answer.ended ((c.load? l.id).map _) = _
    rw [hload, Option.map_some, finish_panic_worker hseat]
  · rw [isReloading, List.contains_iff_mem, hacc.mem_inFlight, hkeys.mem_iff]
    exact .head _
  · rw [hend]
    simpa [isReloading, herased.mem_iff] using hgone
  · intro workers room hexec
    rw [hend, hexec]
    exact ⟨⟨.error, "background reload panicked", []⟩, rfl, rfl⟩
  · intro task rest hwaiting
    have hidle : (c.after (.finish l.id (.panic text))).crew.idle = true := by
      rw [hend]
      exact hstaffed.idle_leave hheld
    have hwaiting' : (c.after (.finish l.id (.panic text))).crew.waiting = task :: rest := by
      rw [hend]
      exact hwaiting
    exact ⟨_, _, start?_zero hidle hwaiting', rfl, rfl, rfl⟩

end Background

/-! ## Loads of callers that panic -/

/-- The cache after a get that has looked its request up, and has left it at that. The number of
a load is used up, and the loader has been called once more: no operation goes by either, but
so the loads and calls that follow are numbered as they are where the get has loaded. -/
def onlyLooked (c : Cache) (r : Request) : Cache :=
  { c.looked r with nextLoad := c.nextLoad + 1, calls := c.oneCallMore r.family }

/-- The note of the call of a loader for a caller who gets a request. -/
def callNote (c : Cache) (r : Request) : Event :=
  .loaderCalled r.key (c.calls r.family + 1) .sync r.mode
    ((c.usable r).map fun e => (e.value, e.age c.now))

/-- What is left of a get that loaded, in comparison with a cache in which it only looked its
request up: it is counted and, until somebody takes the journal, the call of the loader is
noted, after what there was before (`old`). -/
def SyncTrace (call : Event) (old : List Event) (y x : Cache) : Prop :=
  ∃ journal, x = { y with counters := y.counters.bump .syncLoads, journal } ∧
    (journal = y.journal ∨
      ∃ recent, y.journal = recent ++ old ∧ journal = recent ++ call :: old)

/-- What a panic of its loader changes of a get that loads in `c` and leads to `c₁`, after a run
`ms`. -/
structure PanicsForCaller (c c₁ : Cache) (r : Request) (l : Load) (ms : List Move)
    (text : String) : Prop where
  unmarked : c₁.inFlight = c.inFlight
  /-- While the caller waits, everybody else sees what they would see anyway. -/
  meanwhile : c₁.shown ms = (c.onlyLooked r).shown ms
  /-- The panic reaches the caller. -/
  answered : (c₁.run ms).answer (.finish l.id (.panic text)) = .ended (some (.panicked text)) ∧
    (c.get r).1.comesTo (.panicked text) = .panicked text
  /-- Whatever happens later goes as it would have gone. -/
  later : ∀ ms', ((c₁.run ms).after (.finish l.id (.panic text))).shown ms' =
    ((c.onlyLooked r).run ms).shown ms'
  trace : ∀ ms', SyncTrace (c.callNote r) (c.looked r).journal
    ((c.onlyLooked r).run (ms ++ ms'))
    (((c₁.run ms).after (.finish l.id (.panic text))).run ms')

section Callers

variable {c c₁ : Cache} {r : Request} {l : Load}

/-- A get that loads for its caller, in parts. -/
theorem loading_of_get (h : c.get r = (.loading l, c₁)) :
    l = c.nextOf r (c.usable r) .caller ∧
      c₁ = ((c.looked r).enter r (c.usable r) .caller).2 := by
  have hl := c.storeOnly_looked r
  rw [get_eq] at h
  cases ha : c.nextAction r with
  | loadForCaller =>
    rw [ha] at h
    cases h
    exact ⟨nextOf_congr hl.now hl.nextLoad .., rfl⟩
  | serve | serveAndRegister =>
    rw [ha] at h
    cases h
  | serveAndReload =>
    rw [ha] at h
    dsimp only at h
    split at h <;> cases h

/-- What a load is that a get has begun for its caller. -/
theorem begun_of_get (h : c.get r = (.loading l, c₁)) :
    l.seat = .caller ∧ l ∈ c₁.loads ∧ l.id < c₁.nextLoad ∧ c₁.inFlight = c.inFlight := by
  obtain ⟨rfl, rfl⟩ := loading_of_get h
  have hl := c.storeOnly_looked r
  refine ⟨rfl, ?_, ?_, hl.inFlight⟩
  · rw [← nextOf_congr hl.now hl.nextLoad]
    exact List.mem_append_left _ (List.mem_append_right _ (.head _))
  · show c.nextLoad < (c.looked r).nextLoad + 1
    rw [hl.nextLoad]
    exact Nat.lt_succ_self _

/-- What one more is counted of, counted first or last. -/
theorem zero_bump_add (n : Counters) (k : Counter) :
    (fun k' => Counters.zero.bump k k' + n k') = fun k' => Counters.zero k' + n.bump k k' := by
  funext k'
  by_cases hk : k' = k
  · subst hk
    simp [Counters.zero, Nat.add_comm]
  · simp [Counters.bump_other _ hk]

theorem zero_add_counters (n : Counters) : (fun k => Counters.zero k + n k) = n :=
  funext fun _ => Nat.zero_add _

/-- Taking the load out of a cache in which a get has just begun one leaves a cache that has only
looked its request up, but for what was counted and noted. -/
theorem aside_enter_caller (hc : c.Accounted) (h : c.get r = (.loading l, c₁)) :
    c₁.aside (· == l.id) Counters.zero [] =
      { c.onlyLooked r with journal := [] }.aside (fun _ => false)
        (Counters.zero.bump .syncLoads) (c.callNote r :: (c.looked r).journal) := by
  obtain ⟨rfl, rfl⟩ := loading_of_get h
  obtain ⟨hnow, -, -, -, hcallers, -, -, hcalls, hnext, -⟩ := c.storeOnly_looked r
  -- the loads that callers waited for before have other numbers
  have hold : ∀ l ∈ (c.looked r).callers, (!(l.id == c.nextLoad)) = !false := by
    intro l hl
    rw [hcallers] at hl
    simpa using Nat.ne_of_lt (hc.older l (List.mem_append_left _ hl))
  have hstay : ((c.looked r).callers ++ [(c.looked r).nextOf r (c.usable r) .caller]).filter
      (fun l => !(l.id == c.nextLoad)) = (c.looked r).callers.filter fun _ => !false := by
    rw [List.filter_append, List.filter_congr hold]
    simp [nextOf, hnext]
  have hnote : Event.loaderCalled r.key ((c.looked r).calls r.family + 1) .sync r.mode
      ((c.usable r).map fun e => (e.value, e.age (c.looked r).now)) = c.callNote r := by
    rw [callNote, hcalls, hnow]
  have hcall : (fun f => if f = r.family then (c.looked r).calls r.family + 1
      else (c.looked r).calls f) = c.oneCallMore r.family := by
    rw [hcalls]
    rfl
  simp only [enter, onlyLooked, aside, count, record, Seat.invocation, List.append_nil,
    List.nil_append, zero_bump_add, hnext, hcall]
  rw [← hnote, ← hstay]
  simp only [nextOf, hnext]

/-- The end of a load that a caller waits for and whose loader panicked. -/
theorem after_finish_panic_caller (hc : c.Accounted) (hl : l ∈ c.loads) (hs : l.seat = .caller)
    (text : String) :
    c.after (.finish l.id (.panic text)) = c.aside (· == l.id) Counters.zero [] := by
  have hfinish : (c.finish l (.panic text)).2 = c.leave l := by
    simp only [finish, settle, hs]
  have hcrew := hc.crew_leave_caller ((hc.mem_callers_iff hl).2 hs)
  rw [after_finish (hc.load?_of_mem hl), hfinish]
  simp only [leave] at hcrew
  simp only [leave, aside, hcrew, zero_add_counters, List.append_nil]
  rfl

/-- What is put aside of a run that a get has loaded before, and of one in which it only looked
its request up. -/
theorem syncTrace_run {call : Event} {old : List Event} (y : Cache) (ms : List Move) :
    SyncTrace call old
      ((y.aside (fun _ => false) Counters.zero old).run ms)
      ((y.aside (fun _ => false) (Counters.zero.bump .syncLoads) (call :: old)).run ms) := by
  obtain ⟨hrun, -⟩ := y.aside_run Counters.zero old (y.spares_none ms)
  obtain ⟨hrun', -⟩ := y.aside_run (Counters.zero.bump .syncLoads) (call :: old) (y.spares_none ms)
  rw [hrun, hrun']
  generalize y.run ms = z
  refine ⟨z.journal ++ ms.foldl Move.leaves (call :: old), ?_, ?_⟩
  · simp only [aside, zero_bump_add, zero_add_counters]
  · rcases foldl_leaves ms with hkept | htaken
    · exact .inr ⟨z.journal, by rw [hkept]; rfl, by rw [hkept]⟩
    · exact .inl (by rw [htaken, aside, htaken])

/-- **A get whose loader panics** leaves nothing but its count and the note of the call. -/
theorem panic_for_caller (hc : c.Accounted) (h : c.get r = (.loading l, c₁))
    {ms : List Move} (hms : ∀ o, .finish l.id o ∉ ms) (text : String) :
    PanicsForCaller c c₁ r l ms text := by
  obtain ⟨hseat, hmem, hid, hinFlight⟩ := begun_of_get h
  have hacc : (c₁.run ms).Accounted := by
    have hacc := (hc.after (.get r)).run ms
    simpa [Cache.after, h] using hacc
  have hl : l ∈ (c₁.run ms).loads := mem_loads_run hmem hms
  -- `y` is what the two caches have in common
  generalize hy : ({ c.onlyLooked r with journal := [] } : Cache) = y
  have hlooked : c.onlyLooked r =
      y.aside (fun _ => false) Counters.zero (c.looked r).journal := by
    rw [← hy]
    simp only [aside, zero_add_counters, List.nil_append, Bool.not_false, List.filter_true]
    rfl
  have hbegun := aside_enter_caller hc h
  rw [hy] at hbegun
  obtain ⟨hrun, hshown⟩ := c₁.aside_run Counters.zero [] (c₁.spares_one hid hms)
  have hend : (c₁.run ms).after (.finish l.id (.panic text)) =
      (y.aside (fun _ => false) (Counters.zero.bump .syncLoads)
        (c.callNote r :: (c.looked r).journal)).run ms := by
    rw [after_finish_panic_caller hacc hl hseat, ← hbegun, hrun]
    rcases foldl_leaves ms with hkept | htaken
    · rw [hkept]
    · rw [htaken]
  refine ⟨hinFlight, ?_, ⟨?_, ?_⟩, ?_, ?_⟩
  · rw [← hshown, hbegun, hlooked, (y.aside_run _ _ (y.spares_none ms)).2,
      (y.aside_run _ _ (y.spares_none ms)).2]
  · show Answer.ended (((c₁.run ms).load? l.id).map _) = _
    rw [hacc.load?_of_mem hl, Option.map_some, finish_fst]
    rfl
  · rw [h]
    rfl
  · intro ms'
    rw [hend, hlooked, (y.aside_run _ _ (y.spares_none ms)).1,
      (y.aside_run _ _ (y.spares_none ms)).1, ((y.run ms).aside_run _ _ (spares_none _ ms')).2,
      ((y.run ms).aside_run _ _ (spares_none _ ms')).2]
  · intro ms'
    rw [hend, hlooked, ← run_append]
    exact syncTrace_run y (ms ++ ms')

end Callers

/-! ## Both -/

/-- **A loader that panics leaves nothing but counts and notes.** In a reload that a hand of the
executor has taken up, the panic leaves alone the store, the refresh marks, the registry and the
counters; the key is no longer marked as being reloaded, a pool of workers logs one record, and
takes up the next task. In a load that a caller waits for, the panic reaches the caller, and
nothing that happens meanwhile or later shows that there was more than a lookup. -/
theorem panics_leave_no_trace {c : Cache} (hc : c.Reachable) (text : String) :
    (∀ place l c₁, c.start? place = some (l, c₁) →
      BeginsInBackground c c₁ ∧
        ∀ ms, (∀ o, .finish l.id o ∉ ms) → PanicsInBackground (c₁.run ms) l text) ∧
    ∀ r l c₁, c.get r = (.loading l, c₁) → ∀ ms, (∀ o, .finish l.id o ∉ ms) →
      PanicsForCaller c c₁ r l ms text := by
  have hacc := accounted_of_reachable hc
  refine ⟨fun place l c₁ h => ?_, fun r l c₁ h ms hms => panic_for_caller hacc h hms text⟩
  obtain ⟨hseat, hmem, hbegins⟩ := begun_of_start? h
  have hafter : c₁ = c.after (.start place) := by simp [Cache.after, h]
  refine ⟨hbegins, fun ms hms => ?_⟩
  refine panic_in_background ?_ ?_ (mem_loads_run hmem hms) hseat text
  · rw [hafter]
    exact (hacc.after _).run ms
  · rw [hafter]
    exact ((staffed_of_reachable hc).after _).run ms

/-- Two reloads in a queue. -/
def twoQueued : List Move := [.get profile, .get settings]

theorem reachable_twoQueued : ((overMap (.pool 1 4)).run twoQueued).Reachable := by
  have hsettings : settings.WellFormed := ⟨by decide, by decide, by decide, rfl⟩
  exact (reachable_overMap _).run ⟨profile_wellFormed, hsettings, trivial⟩

/-- A pool with one worker goes on with the second reload when the loader of the first has
panicked; a get whose loader panics meanwhile is as good as none. -/
theorem panics_leave_no_trace_twoQueued :
    ∃ l c₁ l' c₁',
      ((overMap (.pool 1 4)).run twoQueued).start? 0 = some (l, c₁) ∧
        PanicsInBackground c₁ l "lost" ∧
        (∃ next c₂, (c₁.after (.finish l.id (.panic "lost"))).start? 0 = some (next, c₂) ∧
          next.request = settings) ∧
      ((overMap (.pool 1 4)).run twoQueued).get (clinging .block) = (.loading l', c₁') ∧
        PanicsForCaller ((overMap (.pool 1 4)).run twoQueued) c₁' (clinging .block) l'
          [.start 0] "lost" := by
  obtain ⟨hbackground, hcaller⟩ := panics_leave_no_trace reachable_twoQueued "lost"
  obtain ⟨-, hpanics⟩ := hbackground 0 _ _ rfl
  have hpanic := hpanics [] nofun
  obtain ⟨next, c₂, hstart, hnext, -⟩ := hpanic.goesOn _ _ rfl
  refine ⟨_, _, _, _, rfl, hpanic, ⟨next, c₂, hstart, hnext⟩, rfl, hcaller _ _ _ rfl _ ?_⟩
  intro o ho
  cases ho with
  | tail _ ho => cases ho

end Evergreen.Cache
