import Mathlib.Data.List.Nodup
import Mathlib.Data.List.Perm.Basic
import Evergreen.Proofs.TaskSteps

/-!
# One reload of a key at a time

A key is marked as being reloaded before the executor is asked, and its mark is taken away
wherever the task may end. `Accounted` is the invariant that makes sense of the marks: they
are the keys of the tasks that the executor took and that have not ended, and no key has two.

- `accounted_of_reachable`: every move keeps the books in order;
- `mem_taskKeys_after`: a key gets a task when the executor takes one for it and loses it when
  that task ends, and no other way;
- `offered_deduplicated_iff`: an offer is deduplicated exactly while the key has a task;
- `singleflight`: all of it for every cache that can be reached.
-/

namespace Evergreen.Cache

/-! ## The books -/

/-- The keys of the tasks that the executor took and that have not ended: those that wait and
those under way. -/
def taskKeys (c : Cache) : List Key :=
  c.crew.waiting.map Reload.key ++ c.crew.held.map Load.key

/-- The marks are the keys of the tasks, and the loads are told apart by their numbers. -/
structure Accounted (c : Cache) : Prop where
  marked : c.inFlight.Perm c.taskKeys
  nodup : c.taskKeys.Nodup
  numbered : (c.loads.map Load.id).Nodup
  older : ∀ l ∈ c.loads, l.id < c.nextLoad
  awaited : ∀ l ∈ c.callers, l.seat = .caller
  held : ∀ l ∈ c.crew.held, l.seat ≠ .caller

/-- A key is marked as being reloaded iff a task of it waits or runs. -/
theorem Accounted.mem_inFlight {c : Cache} (h : c.Accounted) {k : Key} :
    k ∈ c.inFlight ↔ k ∈ c.taskKeys := h.marked.mem_iff

/-- With the same tasks come the same keys. -/
theorem taskKeys_congr {c c' : Cache} (h : SameTasks c c') : c'.taskKeys = c.taskKeys := by
  simp only [taskKeys, h.waiting, h.held]

/-- The books are about the tasks alone. -/
theorem Accounted.congr {c c' : Cache} (h : c.Accounted) (hs : SameTasks c c') :
    c'.Accounted where
  marked := by
    rw [hs.inFlight, taskKeys_congr hs]
    exact h.marked
  nodup := by
    rw [taskKeys_congr hs]
    exact h.nodup
  numbered := by
    rw [hs.loads]
    exact h.numbered
  older := by
    rw [hs.loads, hs.nextLoad]
    exact h.older
  awaited := by
    rw [hs.callers]
    exact h.awaited
  held := by
    rw [hs.held]
    exact h.held

/-- At first there are no tasks and no marks. -/
theorem accounted_of_launched {c : Cache} (h : c.Launched) : c.Accounted := by
  obtain ⟨⟨b, now, hb⟩, -⟩ := h
  obtain ⟨e, rfl⟩ := eq_of_build hb
  have hw : e.crew.waiting = [] := by cases e <;> rfl
  have hh : e.crew.held = [] := by cases e <;> rfl
  constructor <;> simp [taskKeys, loads, hw, hh]

/-! ## Loads and their numbers -/

/-- Taking out the one item with a number leaves the others. -/
theorem perm_cons_filter {ls : List Load} {l : Load} (hl : l ∈ ls)
    (h : (ls.map Load.id).Nodup) : ls.Perm (l :: ls.filter fun l' => !(l'.id == l.id)) := by
  induction ls with
  | nil => cases hl
  | cons x ls ih =>
    simp only [List.map_cons, List.nodup_cons, List.mem_map, not_exists, not_and] at h
    obtain ⟨hx, hls⟩ := h
    rcases List.mem_cons.1 hl with rfl | hl
    · -- it stands here, and nothing else has its number
      have hrest : ls.filter (fun l' => !(l'.id == l.id)) = ls :=
        List.filter_eq_self.2 fun y hy => by simpa using hx y hy
      simp [hrest]
    · -- it stands further on, so what stands here stays
      have hne : (x.id == l.id) = false := by
        simpa using fun he => hx l hl he.symm
      rw [List.filter_cons_of_pos (by simp [hne])]
      exact ((ih hl hls).cons x).trans (List.Perm.swap ..)

/-- Nothing is taken out where the number does not occur. -/
theorem filter_eq_self_of_id {ls : List Load} {l : Load} (h : l.id ∉ ls.map Load.id) :
    (ls.filter fun l' => !(l'.id == l.id)) = ls :=
  List.filter_eq_self.2 fun y hy => by
    have hne : y.id ≠ l.id := fun he => h (he ▸ List.mem_map_of_mem hy)
    simpa using hne

section Numbers

variable {c c' : Cache} {l : Load}

/-- A load that begins gets a number of its own. -/
theorem Accounted.numbered_cons (h : c.Accounted) (hid : l.id = c.nextLoad)
    (hl : c'.loads.Perm (l :: c.loads)) : (c'.loads.map Load.id).Nodup := by
  rw [(hl.map Load.id).nodup_iff, List.map_cons, List.nodup_cons]
  refine ⟨fun hm => ?_, h.numbered⟩
  obtain ⟨l', hl', he⟩ := List.mem_map.1 hm
  have := h.older l' hl'
  omega

/-- A load that begins is the youngest. -/
theorem Accounted.older_cons (h : c.Accounted) (hid : l.id = c.nextLoad)
    (hl : c'.loads.Perm (l :: c.loads)) (hn : c'.nextLoad = c.nextLoad + 1) :
    ∀ l' ∈ c'.loads, l'.id < c'.nextLoad := by
  intro l' hl'
  rw [hn]
  rcases List.mem_cons.1 (hl.mem_iff.1 hl') with rfl | hl'
  · omega
  · have := h.older l' hl'
    omega

end Numbers

/-! ## One step of the books -/

section Steps

variable {c : Cache} {r : Request} {stale : Option Entry}

/-- A caller may begin a load, which is no task. -/
theorem accounted_called (h : c.Accounted) :
    Accounted { c with
      callers := c.callers ++ [c.nextOf r stale .caller], nextLoad := c.nextLoad + 1 } := by
  have hl : (c.callers ++ [c.nextOf r stale .caller] ++ c.crew.held).Perm
      (c.nextOf r stale .caller :: c.loads) := by
    rw [List.append_assoc, List.singleton_append]
    exact List.perm_middle
  refine ⟨h.marked, h.nodup, h.numbered_cons rfl hl, h.older_cons rfl hl rfl, ?_, h.held⟩
  intro l hm
  rcases List.mem_append.1 hm with hm | hm
  · exact h.awaited l hm
  · rw [List.mem_singleton.1 hm]
    rfl

/-- A task that is queued brings its key. -/
theorem taskKeys_queued (c : Cache) (r : Request) (stale : Option Entry) :
    (taskKeys { c with
      crew := { c.crew with waiting := c.crew.waiting ++ [⟨r, stale⟩] }
      inFlight := r.key :: c.inFlight }).Perm (r.key :: c.taskKeys) := by
  simp only [taskKeys, List.map_append, List.map_cons, List.map_nil, List.append_assoc,
    List.singleton_append]
  exact List.perm_middle

/-- The key was not marked before, so the marks stay distinct. -/
theorem accounted_queued (h : c.Accounted) (hk : r.key ∉ c.inFlight) :
    Accounted { c with
      crew := { c.crew with waiting := c.crew.waiting ++ [⟨r, stale⟩] }
      inFlight := r.key :: c.inFlight } := by
  have hp := taskKeys_queued c r stale
  refine ⟨(h.marked.cons _).trans hp.symm, ?_, h.numbered, h.older, h.awaited, h.held⟩
  rw [hp.nodup_iff, List.nodup_cons, ← h.mem_inFlight]
  exact ⟨hk, h.nodup⟩

/-- A load that runs where it was offered brings its key. -/
theorem taskKeys_lent (c : Cache) (r : Request) (stale : Option Entry) (seat : Seat) :
    (taskKeys { c with
      crew := c.crew.hold (c.nextOf r stale seat)
      inFlight := r.key :: c.inFlight
      nextLoad := c.nextLoad + 1 }).Perm (r.key :: c.taskKeys) := by
  simp only [taskKeys, Crew.hold, List.map_append, List.map_cons, List.map_nil,
    ← List.append_assoc]
  exact List.perm_append_singleton ..

/-- The loads after one more that a hand has. -/
theorem loads_held (c : Cache) (r : Request) (stale : Option Entry) (seat : Seat) :
    (c.callers ++ (c.crew.held ++ [c.nextOf r stale seat])).Perm
      (c.nextOf r stale seat :: c.loads) := by
  rw [← List.append_assoc]
  exact List.perm_append_singleton ..

/-- A load that was added is not a caller's if it has not got a caller's seat. -/
theorem held_hold (h : c.Accounted) {seat : Seat} (hs : seat ≠ .caller) :
    ∀ l ∈ c.crew.held ++ [c.nextOf r stale seat], l.seat ≠ .caller := by
  intro l hm
  rcases List.mem_append.1 hm with hm | hm
  · exact h.held l hm
  · rw [List.mem_singleton.1 hm]
    exact hs

/-- There, too, the key was not marked before. -/
theorem accounted_lent (h : c.Accounted) (hk : r.key ∉ c.inFlight) (stale : Option Entry)
    {seat : Seat} (hs : seat ≠ .caller) :
    Accounted { c with
      crew := c.crew.hold (c.nextOf r stale seat)
      inFlight := r.key :: c.inFlight
      nextLoad := c.nextLoad + 1 } := by
  have hp := taskKeys_lent c r stale seat
  have hl := loads_held c r stale seat
  refine ⟨(h.marked.cons _).trans hp.symm, ?_, h.numbered_cons rfl hl,
    h.older_cons rfl hl rfl, h.awaited, held_hold h hs⟩
  rw [hp.nodup_iff, List.nodup_cons, ← h.mem_inFlight]
  exact ⟨hk, h.nodup⟩

/-- A task that leaves the queue, out of the books. -/
theorem perm_of_waits {place : Nat} {task : Reload}
    (hw : c.crew.waiting[place]? = some task) :
    c.taskKeys.Perm (task.key ::
      ((c.crew.waiting.eraseIdx place).map Reload.key ++ c.crew.held.map Load.key)) := by
  obtain ⟨hlt, rfl⟩ := List.getElem?_eq_some_iff.1 hw
  exact (((List.getElem_cons_eraseIdx_perm hlt).symm.map Reload.key).append_right _)

/-- A task that is taken up has the key that it had in the queue. -/
theorem taskKeys_taken {place : Nat} {task : Reload}
    (hw : c.crew.waiting[place]? = some task) :
    (taskKeys { c with
      crew := { c.crew with
        waiting := c.crew.waiting.eraseIdx place
        held := c.crew.held ++ [c.nextOf task.request task.stale .worker] }
      nextLoad := c.nextLoad + 1 }).Perm c.taskKeys := by
  refine List.Perm.trans ?_ (perm_of_waits hw).symm
  simp only [taskKeys, List.map_append, List.map_cons, List.map_nil, ← List.append_assoc]
  exact List.perm_append_singleton ..

/-- So no mark changes when a hand takes up a task. -/
theorem accounted_taken (h : c.Accounted) {place : Nat} {task : Reload}
    (hw : c.crew.waiting[place]? = some task) :
    Accounted { c with
      crew := { c.crew with
        waiting := c.crew.waiting.eraseIdx place
        held := c.crew.held ++ [c.nextOf task.request task.stale .worker] }
      nextLoad := c.nextLoad + 1 } := by
  have hp := taskKeys_taken hw
  have hl := loads_held c task.request task.stale .worker
  exact ⟨h.marked.trans hp.symm, hp.nodup_iff.2 h.nodup, h.numbered_cons rfl hl,
    h.older_cons rfl hl rfl, h.awaited, held_hold h nofun⟩

/-- When a task is out of the books, so is its mark. -/
theorem Accounted.erase (h : c.Accounted) {k : Key} {ks : List Key}
    (hp : c.taskKeys.Perm (k :: ks)) : (c.inFlight.erase k).Perm ks ∧ ks.Nodup ∧ k ∉ ks := by
  have hn := hp.nodup_iff.1 h.nodup
  refine ⟨?_, (List.nodup_cons.1 hn).2, (List.nodup_cons.1 hn).1⟩
  have he := (h.marked.trans hp).erase k
  rwa [List.erase_cons_head] at he

/-- What has gone, once its only mark has. -/
theorem mem_of_erased {k k' : Key} {ks : List Key} (h : k' ∉ ks) :
    k ∈ ks ↔ none = some k ∨ k ∈ k' :: ks ∧ some k' ≠ some k := by
  constructor
  · intro hk
    exact .inr ⟨.tail _ hk, fun he => h (Option.some.inj he ▸ hk)⟩
  · rintro (hn | ⟨hk, hne⟩)
    · cases hn
    · rcases List.mem_cons.1 hk with rfl | hk
      · exact absurd rfl hne
      · exact hk

/-- A task that is dropped takes its mark with it. -/
theorem accounted_dropped (h : c.Accounted) {place : Nat} {task : Reload}
    (hw : c.crew.waiting[place]? = some task) :
    Accounted { c with
      crew := { c.crew with waiting := c.crew.waiting.eraseIdx place }
      inFlight := c.inFlight.erase task.key } := by
  obtain ⟨hm, hn, -⟩ := h.erase (perm_of_waits hw)
  exact ⟨hm, hn, h.numbered, h.older, h.awaited, h.held⟩

/-- Numbers are told apart over callers and hands together, so no hand has the number of a
caller's load. -/
theorem Accounted.not_mem_held_ids (h : c.Accounted) {l : Load} (hl : l ∈ c.callers) :
    l.id ∉ c.crew.held.map Load.id := by
  have hn := h.numbered
  rw [loads, List.map_append, List.nodup_append] at hn
  exact fun hm => hn.2.2 _ (List.mem_map_of_mem hl) _ hm rfl

/-- The end of a caller's load takes nothing out of anybody's hands. -/
theorem Accounted.crew_leave_caller (h : c.Accounted) {l : Load} (hl : l ∈ c.callers) :
    (c.leave l).crew = c.crew := by
  simp only [leave, Crew.release, filter_eq_self_of_id (h.not_mem_held_ids hl)]

/-- A caller's load that ends has no task. -/
theorem taskKeys_leave_caller (h : c.Accounted) {l : Load} (hl : l ∈ c.callers) :
    (c.leave l).taskKeys = c.taskKeys := by
  simp only [taskKeys, h.crew_leave_caller hl]

/-- The task of a background load ends with it. -/
theorem taskKeys_leave_held (h : c.Accounted) {l : Load} (hl : l ∈ c.crew.held) :
    c.taskKeys.Perm (l.key :: (c.leave l).taskKeys) := by
  have hn : (c.crew.held.map Load.id).Nodup := by
    have hn := h.numbered
    rw [loads, List.map_append, List.nodup_append] at hn
    exact hn.2.1
  have hp := ((perm_cons_filter hl hn).map Load.key).append_left
    (c.crew.waiting.map Reload.key)
  rw [List.map_cons] at hp
  exact hp.trans List.perm_middle

/-- A load under way is found under its number. -/
theorem Accounted.load?_of_mem (h : c.Accounted) {l : Load} (hl : l ∈ c.loads) :
    c.load? l.id = some l := by
  cases hf : c.load? l.id with
  | none =>
    have hne := List.find?_eq_none.1 hf l hl
    simp at hne
  | some l' =>
    have hid : l'.id = l.id := by simpa using List.find?_some hf
    exact congrArg some (List.inj_on_of_nodup_map h.numbered (List.mem_of_find?_eq_some hf) hl hid)

/-- A load under way is a caller's by its seat. -/
theorem Accounted.mem_callers_iff (h : c.Accounted) {l : Load} (hl : l ∈ c.loads) :
    l ∈ c.callers ↔ l.seat = .caller := by
  refine ⟨h.awaited l, fun hs => ?_⟩
  rcases List.mem_append.1 hl with hl | hl
  · exact hl
  · exact absurd hs (h.held l hl)

/-- The executor holds the loads that no caller waits for. -/
theorem Accounted.mem_held_iff (h : c.Accounted) {l : Load} (hl : l ∈ c.loads) :
    l ∈ c.crew.held ↔ l.seat ≠ .caller := by
  refine ⟨h.held l, fun hs => ?_⟩
  rcases List.mem_append.1 hl with hl | hl
  · exact absurd (h.awaited l hl) hs
  · exact hl

/-- A load that ends takes its mark with it, whatever it came to. -/
theorem accounted_ended (h : c.Accounted) {l : Load} (hl : l ∈ c.loads) :
    Accounted { c.leave l with
      inFlight := if l.seat = .caller then c.inFlight else c.inFlight.erase l.key } := by
  -- whosever load it is, those that stay were there before
  have hsub := c.loads_leave_sublist l
  have hnum := h.numbered.sublist (hsub.map Load.id)
  have hold := fun l' hl' => h.older l' (hsub.subset hl')
  have hawa : ∀ l' ∈ (c.leave l).callers, l'.seat = .caller :=
    fun l' hl' => h.awaited l' (List.mem_of_mem_filter hl')
  have hheld : ∀ l' ∈ (c.leave l).crew.held, l'.seat ≠ .caller :=
    fun l' hl' => h.held l' (List.mem_of_mem_filter hl')
  by_cases hs : l.seat = .caller
  · -- a caller's load: nothing is marked for it
    have hk := taskKeys_leave_caller h ((h.mem_callers_iff hl).2 hs)
    rw [if_pos hs]
    refine ⟨?_, ?_, hnum, hold, hawa, hheld⟩
    · show c.inFlight.Perm (c.leave l).taskKeys
      rw [hk]
      exact h.marked
    · show (c.leave l).taskKeys.Nodup
      rw [hk]
      exact h.nodup
  · -- a background load: its task and its mark go together
    obtain ⟨hm, hn, -⟩ := h.erase (taskKeys_leave_held h ((h.mem_held_iff hl).2 hs))
    rw [if_neg hs]
    exact ⟨hm, hn, hnum, hold, hawa, hheld⟩

end Steps

/-- **Every move keeps the books in order.** -/
theorem Accounted.after {c : Cache} (h : c.Accounted) (m : Move) : (c.after m).Accounted := by
  cases c.taskStep_after m with
  | same _ _ hs => exact h.congr hs
  | called _ _ r stale _ hs => exact (accounted_called h).congr hs
  | queued r stale _ _ _ hk hs => exact (accounted_queued h hk).congr hs
  | lent r stale byPoller _ _ _ hk _ hs =>
    have hseat : Seat.lent byPoller ≠ .caller := nofun
    exact (accounted_lent h hk stale hseat).congr hs
  | taken place task hw _ _ hs => exact (accounted_taken h hw).congr hs
  | dropped place task hw _ _ hs => exact (accounted_dropped h hw).congr hs
  | ended l hl _ _ _ hs => exact (accounted_ended h hl).congr hs

/-- **The books stay right** along every run. -/
theorem Accounted.run {c : Cache} (h : c.Accounted) (ms : List Move) : (c.run ms).Accounted :=
  run_preserves (fun _ m h => h.after m) h ms

/-- So they are right in every cache there can be. -/
theorem accounted_of_reachable {c : Cache} (h : c.Reachable) : c.Accounted := by
  induction h with
  | launched h => exact accounted_of_launched h
  | after _ _ ih => exact ih.after _

/-! ## What becomes of a key's task -/

/-- **When a key has a task.** It gets one when the executor takes one for it, and keeps it
until a move brings that task to its end. -/
theorem mem_taskKeys_after {c : Cache} (h : c.Accounted) (m : Move) (k : Key) :
    k ∈ (c.after m).taskKeys ↔
      c.handed? m = some k ∨ k ∈ c.taskKeys ∧ c.ended? m ≠ some k := by
  cases c.taskStep_after m with
  | same hands ends hs => simp [taskKeys_congr hs, hands, ends]
  | called hands ends r stale _ hs =>
    rw [taskKeys_congr hs, hands, ends]
    simp [taskKeys]
  | queued r stale hands ends _ _ hs =>
    rw [taskKeys_congr hs, (taskKeys_queued c r stale).mem_iff, hands, ends]
    simp [eq_comm]
  | lent r stale byPoller hands ends _ _ _ hs =>
    rw [taskKeys_congr hs, (taskKeys_lent c r stale _).mem_iff, hands, ends]
    simp [eq_comm]
  | taken place task hw hands ends hs =>
    rw [taskKeys_congr hs, (taskKeys_taken hw).mem_iff, hands, ends]
    simp
  | dropped place task hw hands ends hs =>
    -- the key had no other task
    obtain ⟨-, -, hk⟩ := h.erase (perm_of_waits hw)
    rw [taskKeys_congr hs, (perm_of_waits hw).mem_iff, hands, ends]
    exact mem_of_erased hk
  | ended l hl _ hands ends hs =>
    rw [taskKeys_congr hs, hands, ends]
    show k ∈ (c.leave l).taskKeys ↔ _
    by_cases hc : l.seat = .caller
    · rw [if_pos hc, taskKeys_leave_caller h ((h.mem_callers_iff hl).2 hc)]
      simp
    · rw [if_neg hc]
      have hp := taskKeys_leave_held h ((h.mem_held_iff hl).2 hc)
      obtain ⟨-, -, hk⟩ := h.erase hp
      rw [hp.mem_iff]
      exact mem_of_erased hk

/-- An offer that a move makes is made of a cache with the same tasks. -/
theorem offered?_eq_some {c : Cache} {m : Move} {r : Request} {o : Offer}
    (h : c.offered? m = some (r, o)) :
    ∃ c₁ stale byPoller, SameTasks c c₁ ∧ o = (c₁.offer r stale byPoller).1 := by
  cases m with
  | get r' =>
    simp only [offered?] at h
    split at h
    · cases h
      exact ⟨_, _, _, (c.storeOnly_looked r).sameTasks, rfl⟩
    · cases h
  | visit r' =>
    simp only [offered?] at h
    split at h
    · cases h
      exact ⟨_, _, _, c.sameTasks_visited c.scanLeft r, rfl⟩
    · cases h
  | _ => cases h

/-- An offer is deduplicated exactly while the key has a task. -/
theorem offered_deduplicated_iff {c : Cache} (h : c.Accounted) {m : Move} {r : Request}
    {o : Offer} (ho : c.offered? m = some (r, o)) :
    o.deduplicated = true ↔ r.key ∈ c.taskKeys := by
  obtain ⟨c₁, stale, byPoller, hs, rfl⟩ := offered?_eq_some ho
  rw [← h.mem_inFlight, ← hs.inFlight]
  rcases c₁.offer_cases r stale byPoller with
    ⟨hk, ho⟩ | ⟨hk, -, ho⟩ | ⟨hk, crew, -, ho⟩ | ⟨hk, why, -, ho⟩
  · simp [ho, hk, Offer.deduplicated]
  · simp [ho, hk, Offer.deduplicated]
  · simp [ho, hk, Offer.deduplicated]
  · simp [ho, hk, Offer.deduplicated]

/-- A key has a task when a reload of it was offered, unless the executor refused it. -/
theorem mem_taskKeys_of_offered {c : Cache} (h : c.Accounted) {m : Move} {r : Request}
    {o : Offer} (ho : c.offered? m = some (r, o))
    (hw : ∀ why, o ≠ .done (.refused why)) : r.key ∈ (c.after m).taskKeys := by
  have hends : c.ended? m = none := by
    cases m with
    | get r' => rfl
    | visit r' => rfl
    | _ => cases ho
  rw [mem_taskKeys_after h, hends]
  rcases o with (_ | _ | why) | l
  · exact .inl (handed?_eq_some_iff.2 ⟨r, _, ho, rfl, rfl⟩)
  · -- an offer is passed over only where the key has a task already
    exact .inr ⟨(offered_deduplicated_iff h ho).1 rfl, nofun⟩
  · exact absurd rfl (hw why)
  · exact .inl (handed?_eq_some_iff.2 ⟨r, _, ho, rfl, rfl⟩)

/-- A move is the end of a key's task: the task is refused, or dropped unrun, or its load is
finished, however that turns out. -/
def Ends (c : Cache) (m : Move) (k : Key) : Prop :=
  c.ended? m = some k ∨ ∃ r why, c.offered? m = some (r, .done (.refused why)) ∧ r.key = k

/-- A move offers a reload of a key. -/
def Offers (c : Cache) (m : Move) (k : Key) : Prop :=
  ∃ r o, c.offered? m = some (r, o) ∧ r.key = k

/-- A key has no task when its task has ended. -/
theorem not_mem_taskKeys_of_ends {c : Cache} (h : c.Accounted) {m : Move} {k : Key}
    (he : c.Ends m k) : k ∉ (c.after m).taskKeys := by
  rw [mem_taskKeys_after h]
  rcases he with he | ⟨r, why, ho, rfl⟩
  · -- a task that ends is not one that is handed over
    have hh : c.handed? m = none := by
      cases m with
      | finish id o => rfl
      | discard place => rfl
      | _ => cases he
    simp [hh, he]
  · -- an offer that is refused was not deduplicated
    have hk : r.key ∉ c.taskKeys := by
      intro hk
      have hd := (offered_deduplicated_iff h ho).2 hk
      cases hd
    simp [handed?, ho, hk, Offer.taken]

/-- A key that has no task gets none while none is offered. -/
theorem not_mem_taskKeys_run {c : Cache} (h : c.Accounted) {k : Key} {ms : List Move}
    (hms : Along (fun c m => ¬ c.Offers m k) c ms) (hk : k ∉ c.taskKeys) :
    (c.run ms).Accounted ∧ k ∉ (c.run ms).taskKeys := by
  -- the books go into the invariant: what becomes of a task is known only while they are in order
  refine hms.preserves (I := fun c => c.Accounted ∧ k ∉ c.taskKeys) ?_ ⟨h, hk⟩
  rintro c m ⟨h, hk⟩ hm
  refine ⟨h.after m, fun hk' => ?_⟩
  rcases (mem_taskKeys_after h m k).1 hk' with hh | ⟨hk', -⟩
  · obtain ⟨r, o, ho, -, hr⟩ := handed?_eq_some_iff.1 hh
    exact hm ⟨r, o, ho, hr⟩
  · exact hk hk'

/-- Two background loads of one key are one. -/
theorem eq_of_background {c : Cache} (h : c.Accounted) {l l' : Load} (hl : l ∈ c.loads)
    (hl' : l' ∈ c.loads) (hb : l.invocation = .background)
    (hb' : l'.invocation = .background) (hk : l.key = l'.key) : l = l' := by
  have hs : ∀ l : Load, l.invocation = .background → l.seat ≠ .caller := by
    rintro l hb hs
    rw [Load.invocation, hs] at hb
    cases hb
  -- a background load is with a hand, and what the hands hold is part of the tasks
  have hn : (c.crew.held.map Load.key).Nodup := (List.nodup_append.1 h.nodup).2.1
  exact List.inj_on_of_nodup_map hn ((h.mem_held_iff hl).2 (hs l hb))
    ((h.mem_held_iff hl').2 (hs l' hb')) hk

/-- **Singleflight.** In every cache that can be reached, whatever its executor, the keys
marked as being reloaded are those of the tasks that the executor took and that have not ended,
each once. So no two background loads of a key are ever under way together, an offer is
deduplicated exactly while the key has a task, and the first offer after a task has ended, in
any way, is not. -/
theorem singleflight {c : Cache} (h : c.Reachable) :
    c.inFlight.Perm c.taskKeys ∧ c.taskKeys.Nodup ∧
    (∀ k, c.isReloading k = true ↔ k ∈ c.taskKeys) ∧
    (∀ m k, k ∈ (c.after m).taskKeys ↔
      c.handed? m = some k ∨ k ∈ c.taskKeys ∧ c.ended? m ≠ some k) ∧
    (∀ l ∈ c.loads, ∀ l' ∈ c.loads, l.invocation = .background →
      l'.invocation = .background → l.key = l'.key → l = l') ∧
    (∀ m r o, c.offered? m = some (r, o) → (o.deduplicated = true ↔ r.key ∈ c.taskKeys)) ∧
    (∀ m k ms m' r o, c.Ends m k → Along (fun c m => ¬ c.Offers m k) (c.after m) ms →
      ((c.after m).run ms).offered? m' = some (r, o) → r.key = k → o.deduplicated = false) := by
  have hc := accounted_of_reachable h
  refine ⟨hc.marked, hc.nodup, ?_, mem_taskKeys_after hc, ?_, ?_, ?_⟩
  · intro k
    simp [isReloading, hc.mem_inFlight]
  · intro l hl l' hl' hb hb' hk
    exact eq_of_background hc hl hl' hb hb' hk
  · intro m r o ho
    exact offered_deduplicated_iff hc ho
  · rintro m k ms m' r o he hms ho rfl
    obtain ⟨hc', hk⟩ := not_mem_taskKeys_run (hc.after m) hms (not_mem_taskKeys_of_ends hc he)
    rw [Bool.eq_false_iff, Ne, offered_deduplicated_iff hc' ho]
    exact hk

/-- A key whose reload waits is marked; when the reload is dropped, the next one is offered. -/
theorem singleflight_of_get :
    ((overMap (.byHand none)).after (.get profile)).isReloading "profile" = true ∧
    ∀ r o, (((overMap (.byHand none)).after (.get profile)).after (.discard 0)).offered?
      (.get profile) = some (r, o) → r.key = "profile" → o.deduplicated = false := by
  have hr : ((overMap (.byHand none)).after (.get profile)).Reachable :=
    .after (reachable_overMap _) profile_wellFormed
  obtain ⟨-, -, hk, -, -, -, hn⟩ := singleflight hr
  refine ⟨(hk "profile").2 (by decide), fun r o ho hr => ?_⟩
  exact hn (.discard 0) "profile" [] (.get profile) r o (.inl rfl) trivial ho hr

end Evergreen.Cache
