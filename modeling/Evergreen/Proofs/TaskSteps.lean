import Evergreen.Proofs.Parts

/-!
# What a move does to the tasks

A load is under way from the call of its loader to its end; a task is there from its offer
until its load ends or it is dropped. `TaskStep c m c'` lists all that a single move can do to
tasks, to loads and to the keys that are marked as being reloaded, with what it takes for it.
`taskStep_after` says that the list is complete: invariants of tasks are shown by cases on it
and never by cases on moves.

A load that begins is handed what a lookup finds at that time or, if it waited as a task, what
a lookup found when it was offered.

`Cache.offered?`, `Cache.handed?` and `Cache.ended?` say what a move offers to the executor,
what the executor takes of it, and which task a move brings to its end. `Comes` lists what may
come of an offer, whoever makes it.
-/

namespace Evergreen.Cache

/-! ## Offers and ends -/

/-- Whether the executor took the task that it was offered. -/
def Offer.taken : Offer → Bool
  | .running _ | .done .started => true
  | .done _ => false

/-- Whether the executor was not even asked, because a reload of the key is in flight. -/
def Offer.deduplicated : Offer → Bool
  | .done .alreadyInFlight => true
  | _ => false

/-- The offer of a reload that a move makes, and what comes of it. -/
def offered? (c : Cache) : Move → Option (Request × Offer)
  | .get r =>
    if c.nextAction r = .serveAndReload then
      some (r, ((c.looked r).offer r (c.usable r) false).1)
    else none
  | .visit r =>
    if c.canVisit r then
      some (r, ((c.visited c.scanLeft r).offer r (c.visitFinds c.scanLeft r) true).1)
    else none
  | _ => none

/-- The key of the task that a move hands to the executor, if the executor takes it. -/
def handed? (c : Cache) (m : Move) : Option Key :=
  (c.offered? m).bind fun (r, o) => if o.taken then some r.key else none

/-- The key of the task that a move brings to its end, whatever the end is. -/
def ended? (c : Cache) : Move → Option Key
  | .finish id _ => (c.load? id).bind fun l => if l.seat = .caller then none else some l.key
  | .discard place => (c.discard? place).map (·.1.key)
  | _ => none

/-- Only a key whose offer is taken is handed over. -/
theorem handed?_eq_some_iff {c : Cache} {m : Move} {k : Key} :
    c.handed? m = some k ↔ ∃ r o, c.offered? m = some (r, o) ∧ o.taken = true ∧ r.key = k := by
  simp [handed?, Option.bind_eq_some_iff]

theorem handed?_eq_none_of_offered? {c : Cache} {m : Move} (h : c.offered? m = none) :
    c.handed? m = none := by
  simp [handed?, h]

/-! ## Reloads that are offered -/

/-- The load that begins next depends on the clock and the number of loads alone. -/
theorem nextOf_congr {c c' : Cache} (hn : c'.now = c.now) (hl : c'.nextLoad = c.nextLoad)
    (r : Request) (stale : Option Entry) (seat : Seat) :
    c'.nextOf r stale seat = c.nextOf r stale seat := by
  simp [nextOf, hn, hl]

/-- What may come of offering a reload of a request with a stale entry, from one cache to the
next. -/
inductive Comes (c : Cache) (r : Request) (stale : Option Entry) (byPoller : Bool)
    (c' : Cache) : Offer → Prop
  /-- A reload of the key is in flight, and nothing is queued. -/
  | inFlight (marked : r.key ∈ c.inFlight) (h : SameTasks c c') :
    Comes c r stale byPoller c' (.done .alreadyInFlight)
  /-- It is put in the queue. -/
  | queued (unmarked : r.key ∉ c.inFlight)
      (h : SameTasks
        { c with
          crew := { c.crew with waiting := c.crew.waiting ++ [⟨r, stale⟩] }
          inFlight := r.key :: c.inFlight } c') :
    Comes c r stale byPoller c' (.done .started)
  /-- It runs at once on the thread that offers it. -/
  | running (unmarked : r.key ∉ c.inFlight) (inPlace : c.executor = .inPlace)
      (h : SameTasks
        { c with
          crew := c.crew.hold (c.nextOf r stale (.lent byPoller))
          inFlight := r.key :: c.inFlight
          nextLoad := c.nextLoad + 1 } c') :
    Comes c r stale byPoller c' (.running (c.nextOf r stale (.lent byPoller)))
  /-- The executor refuses it, and the key is not marked. -/
  | refused (why : Refusal) (unmarked : r.key ∉ c.inFlight)
      (refusing : c.crew.offer ⟨r, stale⟩ = .error why) (h : SameTasks c c') :
    Comes c r stale byPoller c' (.done (.refused why))

section Comes

variable {c c' c'' : Cache} {r : Request} {stale : Option Entry} {byPoller : Bool} {o : Offer}

/-- What has come of an offer is left as it is by what leaves the tasks alone. -/
theorem Comes.trans_same (h : Comes c r stale byPoller c' o) (hs : SameTasks c' c'') :
    Comes c r stale byPoller c'' o := by
  cases h with
  | inFlight marked h => exact .inFlight marked (h.trans hs)
  | queued unmarked h => exact .queued unmarked (h.trans hs)
  | running unmarked inPlace h => exact .running unmarked inPlace (h.trans hs)
  | refused why unmarked refusing h => exact .refused why unmarked refusing (h.trans hs)

/-- An offer makes its own load begin, or none. -/
theorem Comes.mem_loads (h : Comes c r stale byPoller c' o) {l : Load} (hl : l ∈ c'.loads) :
    l ∈ c.loads ∨ l = c.nextOf r stale (.lent byPoller) := by
  unfold loads at hl ⊢
  cases h with
  | inFlight _ h | refused _ _ _ h | queued _ h =>
    rw [h.callers, h.held] at hl
    exact .inl hl
  | running _ _ h =>
    rw [h.callers, h.held] at hl
    simp only [Crew.hold, List.mem_append, List.mem_singleton] at hl
    rcases hl with hl | hl | hl
    · exact .inl (List.mem_append_left _ hl)
    · exact .inl (List.mem_append_right _ hl)
    · exact .inr hl

/-- An offer puts its own task in the queue, or none. -/
theorem Comes.mem_waiting (h : Comes c r stale byPoller c' o) {task : Reload}
    (ht : task ∈ c'.crew.waiting) : task ∈ c.crew.waiting ∨ task = ⟨r, stale⟩ := by
  cases h with
  | inFlight _ h | refused _ _ _ h | running _ _ h =>
    rw [h.waiting] at ht
    exact .inl ht
  | queued _ h =>
    rw [h.waiting] at ht
    simpa only [List.mem_append, List.mem_singleton] using ht

end Comes

/-- One of the four comes of a reload that is offered by a cache with the same tasks and the
same executor. -/
theorem comes_offer {c c₁ : Cache} (h : SameTasks c c₁) (hn : c₁.now = c.now)
    (hx : c₁.executor = c.executor) (hw : c₁.crew = c.crew) (r : Request)
    (stale : Option Entry) (byPoller : Bool) :
    Comes c r stale byPoller (c₁.offer r stale byPoller).2 (c₁.offer r stale byPoller).1 := by
  rcases c₁.offer_cases r stale byPoller with
    ⟨hk, ho⟩ | ⟨hk, he, ho⟩ | ⟨hk, crew, hc, ho⟩ | ⟨hk, why, hc, ho⟩
  · -- the key is being reloaded
    rw [ho]
    rw [h.inFlight] at hk
    exact .inFlight hk (h.trans (c₁.sameTasks_deduplicated _))
  · -- the task runs on the thread that offers it
    have hs := (c₁.markInFlight r.key).sameTasks_enter_background r stale
      (.lent byPoller) nofun
    have hl : (c₁.markInFlight r.key).nextOf r stale (.lent byPoller) =
        c.nextOf r stale (.lent byPoller) := nextOf_congr hn h.nextLoad r stale _
    rw [hl] at hs
    rw [ho, hl]
    rw [h.inFlight] at hk
    rw [hx] at he
    refine .running hk he (SameTasks.trans ?_ hs)
    refine ⟨h.waiting, ?_, ?_, h.callers, ?_⟩
    · show c₁.crew.held ++ _ = c.crew.held ++ _
      rw [h.held]
    · show r.key :: c₁.inFlight = r.key :: c.inFlight
      rw [h.inFlight]
    · show c₁.nextLoad + 1 = c.nextLoad + 1
      rw [h.nextLoad]
  · -- the task waits in the queue
    rw [ho]
    rw [h.inFlight] at hk
    refine .queued hk (SameTasks.trans ?_ (c₁.sameTasks_accepted r stale hc))
    refine ⟨?_, h.held, ?_, h.callers, h.nextLoad⟩
    · simp only [h.waiting]
    · simp only [h.inFlight]
  · -- the task is refused, and the mark it had is gone
    rw [ho]
    rw [h.inFlight] at hk
    rw [hw] at hc
    exact .refused why hk hc (h.trans (c₁.sameTasks_refused _ _))

/-! ## Steps -/

/-- One step of the tasks, the loads and the keys marked as being reloaded. -/
inductive TaskStep (c : Cache) (m : Move) (c' : Cache) : Prop
  | same (hands : c.handed? m = none) (ends : c.ended? m = none) (h : SameTasks c c')
  /-- A caller's load begins. -/
  | called (hands : c.handed? m = none) (ends : c.ended? m = none)
      (r : Request) (stale : Option Entry)
      (found : ∀ e, stale = some e → c.finds r.key = some e)
      (h : SameTasks
        { c with
          callers := c.callers ++ [c.nextOf r stale .caller]
          nextLoad := c.nextLoad + 1 } c')
  /-- A task is put in the queue. -/
  | queued (r : Request) (stale : Option Entry)
      (hands : c.handed? m = some r.key) (ends : c.ended? m = none)
      (found : ∀ e, stale = some e → c.finds r.key = some e)
      (unmarked : r.key ∉ c.inFlight)
      (h : SameTasks
        { c with
          crew := { c.crew with waiting := c.crew.waiting ++ [⟨r, stale⟩] }
          inFlight := r.key :: c.inFlight } c')
  /-- A task is run at once on the thread that offers it. -/
  | lent (r : Request) (stale : Option Entry) (byPoller : Bool)
      (hands : c.handed? m = some r.key) (ends : c.ended? m = none)
      (found : ∀ e, stale = some e → c.finds r.key = some e)
      (unmarked : r.key ∉ c.inFlight) (inPlace : c.executor = .inPlace)
      (h : SameTasks
        { c with
          crew := c.crew.hold (c.nextOf r stale (.lent byPoller))
          inFlight := r.key :: c.inFlight
          nextLoad := c.nextLoad + 1 } c')
  /-- A hand takes up a task. -/
  | taken (place : Nat) (task : Reload) (waits : c.crew.waiting[place]? = some task)
      (hands : c.handed? m = none) (ends : c.ended? m = none)
      (h : SameTasks
        { c with
          crew := { c.crew with
            waiting := c.crew.waiting.eraseIdx place
            held := c.crew.held ++ [c.nextOf task.request task.stale .worker] }
          nextLoad := c.nextLoad + 1 } c')
  /-- A task is dropped unrun. -/
  | dropped (place : Nat) (task : Reload) (waits : c.crew.waiting[place]? = some task)
      (hands : c.handed? m = none) (ends : c.ended? m = some task.key)
      (h : SameTasks
        { c with
          crew := { c.crew with waiting := c.crew.waiting.eraseIdx place }
          inFlight := c.inFlight.erase task.key } c')
  /-- A load ends, with a value, a failure or a panic. -/
  | ended (l : Load) (underWay : l ∈ c.loads) (finishes : ∃ o, m = .finish l.id o)
      (hands : c.handed? m = none)
      (ends : c.ended? m = if l.seat = .caller then none else some l.key)
      (h : SameTasks
        { c.leave l with
          inFlight := if l.seat = .caller then c.inFlight else c.inFlight.erase l.key } c')

theorem TaskStep.trans_same {a b c : Cache} {m : Move} (h : TaskStep a m b)
    (h' : SameTasks b c) : TaskStep a m c := by
  cases h with
  | same hands ends h => exact .same hands ends (h.trans h')
  | called hands ends r stale found h =>
    exact .called hands ends r stale found (h.trans h')
  | queued r stale hands ends found unmarked h =>
    exact .queued r stale hands ends found unmarked (h.trans h')
  | lent r stale byPoller hands ends found unmarked inPlace h =>
    exact .lent r stale byPoller hands ends found unmarked inPlace (h.trans h')
  | taken place task waits hands ends h =>
    exact .taken place task waits hands ends (h.trans h')
  | dropped place task waits hands ends h =>
    exact .dropped place task waits hands ends (h.trans h')
  | ended l underWay finishes hands ends h =>
    exact .ended l underWay finishes hands ends (h.trans h')

section Handing

variable {c c₁ : Cache} {m : Move} {r : Request} {stale : Option Entry}

/-- A caller's load begins after a lookup. -/
theorem taskStep_enter (h : SameTasks c c₁) (hn : c₁.now = c.now)
    (found : ∀ e, stale = some e → c.finds r.key = some e)
    (hands : c.handed? m = none) (ends : c.ended? m = none) :
    TaskStep c m (c₁.enter r stale .caller).2 := by
  have he := c₁.sameTasks_enter_caller r stale
  rw [nextOf_congr hn h.nextLoad] at he
  refine .called hands ends r stale found (SameTasks.trans ?_ he)
  exact ⟨h.waiting, h.held, h.inFlight, by simp only [h.callers], by simp only [h.nextLoad]⟩

/-- A reload is offered after a lookup. -/
theorem taskStep_of_comes {c' : Cache} {byPoller : Bool} {o : Offer}
    (h : Comes c r stale byPoller c' o)
    (found : ∀ e, stale = some e → c.finds r.key = some e)
    (offers : c.offered? m = some (r, o)) (ends : c.ended? m = none) : TaskStep c m c' := by
  have hands : c.handed? m = if o.taken then some r.key else none := by
    simp [handed?, offers]
  cases h with
  | inFlight _ h => exact .same hands ends h
  | queued unmarked h => exact .queued r stale hands ends found unmarked h
  | running unmarked inPlace h =>
    exact .lent r stale byPoller hands ends found unmarked inPlace h
  | refused _ _ _ h => exact .same hands ends h

end Handing

/-- A get hands over what it finds, or loads for the caller, or moves no task. -/
theorem taskStep_get (c : Cache) (r : Request) : TaskStep c (.get r) (c.get r).2 := by
  have h := c.storeOnly_looked r
  have found : ∀ e, c.usable r = some e → c.finds r.key = some e :=
    fun _ => finds_of_usable
  rw [get_snd]
  cases ha : c.nextAction r with
  | serveAndReload =>
    exact taskStep_of_comes (comes_offer h.sameTasks h.now h.executor h.crew ..) found
      (if_pos ha) rfl
  | serve =>
    have hands : c.handed? (.get r) = none :=
      handed?_eq_none_of_offered? (if_neg (by rw [ha]; nofun))
    exact .same hands rfl h.sameTasks
  | loadForCaller =>
    have hands : c.handed? (.get r) = none :=
      handed?_eq_none_of_offered? (if_neg (by rw [ha]; nofun))
    exact taskStep_enter h.sameTasks h.now found hands rfl
  | serveAndRegister =>
    have hands : c.handed? (.get r) = none :=
      handed?_eq_none_of_offered? (if_neg (by rw [ha]; nofun))
    exact .same hands rfl (h.sameTasks.trans (pollerOnly_registerIfAbsent _ r).sameTasks)

/-- The poller visits what its scan has left. -/
theorem scanning_of_canVisit {c : Cache} {r : Request} (h : c.canVisit r = true) :
    c.poller.phase = .scanning c.scanLeft := by
  simp only [canVisit, Bool.and_eq_true, scanLeft] at h ⊢
  split at h
  · assumption
  · simp at h

/-- The poller visits what its scan has left. -/
theorem mem_scanLeft_of_canVisit {c : Cache} {r : Request} (h : c.canVisit r = true) :
    r ∈ c.scanLeft := by
  simp only [canVisit, Bool.and_eq_true, List.contains_iff_mem] at h
  exact h.1

/-- What comes of a visit of the poller is what comes of the offer it makes. -/
theorem comes_visit {c : Cache} {r : Request} (hv : c.canVisit r = true) :
    ∃ o, c.offered? (.visit r) = some (r, o) ∧
      Comes c r (c.visitFinds c.scanLeft r) true (c.visit r).2 o := by
  have hl := storeOnly_lookup { c with
    poller := { c.poller with phase := .scanning (c.scanLeft.erase r) } } r.key
  have hcomes := comes_offer (c := c) (c.sameTasks_visited c.scanLeft r) hl.now hl.executor
    hl.crew r (c.visitFinds c.scanLeft r) true
  refine ⟨_, if_pos hv, ?_⟩
  rcases visit_snd (scanning_of_canVisit hv) r with hv | ⟨o, hv⟩
  · rw [hv]
    exact hcomes
  · rw [hv]
    exact hcomes.trans_same (pollerOnly_record _ _).sameTasks

/-- A visit of the poller hands over what a lookup finds. -/
theorem taskStep_visit {c : Cache} {r : Request} (hv : c.canVisit r = true) :
    TaskStep c (.visit r) (c.visit r).2 := by
  have found : ∀ e, c.visitFinds c.scanLeft r = some e → c.finds r.key = some e :=
    fun _ h => finds_of_lookup (c := { c with
      poller := { c.poller with phase := .scanning (c.scanLeft.erase r) } }) h
  obtain ⟨o, ho, hcomes⟩ := comes_visit hv
  exact taskStep_of_comes hcomes found ho rfl

/-- The end of a load moves no other task. -/
theorem taskStep_finish {c : Cache} {l : Load} {id : Nat} (h : c.load? id = some l)
    (o : Outcome) : TaskStep c (.finish id o) (c.finish l o).2 := by
  have ends : c.ended? (.finish id o) = if l.seat = .caller then none else some l.key := by
    simp [ended?, h]
  exact .ended l (List.mem_of_find?_eq_some h) ⟨o, by rw [(load?_self h).1]⟩ rfl ends
    (c.sameTasks_finish l o)

/-- A move begins and ends no load, and hands over and drops no task. -/
def leavesTasks : Move → Bool
  | .get _ | .start _ | .discard _ | .finish .. | .visit _ => false
  | _ => true

/-- Most moves leave tasks and loads alone. -/
theorem sameTasks_after (c : Cache) {m : Move} (h : leavesTasks m = true) :
    SameTasks c (c.after m) := by
  cases m with
  | tick now => exact c.sameTasks_tick now
  | peek k => exact (c.storeOnly_peek k).sameTasks
  | set k v ttl => exact (c.storeOnly_set k v ttl).sameTasks
  | setEntry k e => exact (c.storeOnly_setEntry k e).sameTasks
  | remove k => exact (c.storeAndMarks_remove k).sameTasks
  | removeAll => exact c.storeAndMarks_removeAll.sameTasks
  | schedule r => exact c.sameTasks_schedule r
  | unschedule k => exact (c.pollerOnly_poller _).sameTasks
  | close => exact c.pollerOnly_close.sameTasks
  | dispose => exact c.pollerOnly_dispose.sameTasks
  | beginScan => exact c.pollerOnly_beginScan.sameTasks
  | endScan => exact c.pollerOnly_after_endScan.sameTasks
  | purge => exact c.storeOnly_purged.sameTasks
  | shut | forecast _ | forget => exact ⟨rfl, rfl, rfl, rfl, rfl⟩
  | get _ | start _ | discard _ | finish _ _ | visit _ => cases h

/-- **Every move is a step of the tasks.** -/
theorem taskStep_after (c : Cache) (m : Move) : TaskStep c m (c.after m) := by
  cases m with
  | get r => exact c.taskStep_get r
  | start place =>
    simp only [after]
    cases h : c.start? place with
    | none => exact .same rfl rfl (.refl c)
    | some p =>
      obtain ⟨l, c'⟩ := p
      obtain ⟨task, hw, rfl⟩ := start?_eq_some h
      refine .taken place task hw rfl rfl ?_
      exact sameTasks_enter_background
        { c with crew := { c.crew with waiting := c.crew.waiting.eraseIdx place } }
        task.request task.stale .worker (by decide)
  | discard place =>
    simp only [after]
    cases h : c.discard? place with
    | none => exact .same rfl (by simp [ended?, h]) (.refl c)
    | some p =>
      obtain ⟨task, c'⟩ := p
      obtain ⟨hw, rfl⟩ := discard?_eq_some h
      exact .dropped place task hw rfl (by simp [ended?, h]) (.refl _)
  | finish id o =>
    simp only [after]
    cases h : c.load? id with
    | none => exact .same rfl (by simp [ended?, h]) (.refl c)
    | some l => exact taskStep_finish h o
  | visit r =>
    simp only [after]
    split
    · exact taskStep_visit ‹_›
    · rename_i hv
      exact .same (handed?_eq_none_of_offered? (if_neg hv)) rfl (.refl c)
  | _ => exact .same rfl rfl (c.sameTasks_after rfl)

/-! ## Where loads come from -/

/-- What a load was handed comes from a lookup at its beginning or, if it waited as a task,
from that task. -/
inductive Handed (c : Cache) (l : Load) : Prop
  | looked (hs : l.seat ≠ .worker) (found : ∀ e, l.stale = some e → c.finds l.key = some e)
  | waited (hs : l.seat = .worker) (task : Reload) (ht : task ∈ c.crew.waiting)
      (hr : task.request = l.request) (he : task.stale = l.stale)

/-- A load is under way after a move if it was before, or begins with the move. -/
theorem mem_loads_after {c : Cache} {m : Move} {l : Load} (h : l ∈ (c.after m).loads) :
    l ∈ c.loads ∨ l.started = c.now ∧ l.id = c.nextLoad ∧ Handed c l := by
  cases c.taskStep_after m with
  | same _ _ hs =>
    rw [hs.loads] at h
    exact .inl h
  | called _ _ r stale found hs =>
    rw [hs.loads, loads] at h
    simp only [List.mem_append, List.mem_singleton] at h
    rcases h with (h | rfl) | h
    · exact .inl (List.mem_append_left _ h)
    · exact .inr ⟨rfl, rfl, .looked nofun found⟩
    · exact .inl (List.mem_append_right _ h)
  | queued r stale _ _ _ _ hs =>
    rw [hs.loads] at h
    exact .inl h
  | lent r stale byPoller _ _ found _ _ hs =>
    rw [hs.loads, loads] at h
    simp only [Crew.hold, List.mem_append, List.mem_singleton] at h
    rcases h with h | h | rfl
    · exact .inl (List.mem_append_left _ h)
    · exact .inl (List.mem_append_right _ h)
    · exact .inr ⟨rfl, rfl, .looked nofun found⟩
  | taken place task hw _ _ hs =>
    rw [hs.loads, loads] at h
    simp only [List.mem_append, List.mem_singleton] at h
    rcases h with h | h | rfl
    · exact .inl (List.mem_append_left _ h)
    · exact .inl (List.mem_append_right _ h)
    · exact .inr ⟨rfl, rfl, .waited rfl task (List.mem_of_getElem? hw) rfl rfl⟩
  | dropped place task _ _ _ hs =>
    rw [hs.loads] at h
    exact .inl h
  | ended l' _ _ _ _ hs =>
    rw [hs.loads] at h
    exact .inl ((c.loads_leave_sublist l').subset h)

/-- A load stays under way until it ends. -/
theorem mem_loads_after_of_ne {c : Cache} {m : Move} {l : Load} (h : l ∈ c.loads)
    (hm : ∀ o, m ≠ .finish l.id o) : l ∈ (c.after m).loads := by
  cases c.taskStep_after m with
  | same _ _ hs | queued r stale _ _ _ _ hs | dropped place task _ _ _ hs =>
    rw [hs.loads]
    exact h
  | called _ _ r stale _ hs =>
    rw [hs.loads]
    exact (List.sublist_append_left ..).append_right _ |>.subset h
  | lent r stale byPoller _ _ _ _ _ hs | taken place task _ _ _ hs =>
    rw [hs.loads]
    exact (List.sublist_append_left ..).append_left _ |>.subset h
  | ended l' _ finishes _ _ hs =>
    obtain ⟨o, rfl⟩ := finishes
    have hne : l.id ≠ l'.id := fun he => hm o (he ▸ rfl)
    rw [hs.loads]
    simp only [loads, List.mem_append] at h ⊢
    refine h.imp (fun h => ?_) fun h => ?_
    · exact List.mem_filter.2 ⟨h, by simpa using hne⟩
    · exact List.mem_filter.2 ⟨h, by simpa using hne⟩

/-- The numbers of loads go up. -/
theorem nextLoad_le_after (c : Cache) (m : Move) : c.nextLoad ≤ (c.after m).nextLoad := by
  cases c.taskStep_after m with
  | same _ _ hs => exact Nat.le_of_eq hs.nextLoad.symm
  | called _ _ r stale _ hs => exact hs.nextLoad ▸ Nat.le_succ _
  | queued r stale _ _ _ _ hs => exact Nat.le_of_eq hs.nextLoad.symm
  | lent r stale byPoller _ _ _ _ _ hs => exact hs.nextLoad ▸ Nat.le_succ _
  | taken place task _ _ _ hs => exact hs.nextLoad ▸ Nat.le_succ _
  | dropped place task _ _ _ hs => exact Nat.le_of_eq hs.nextLoad.symm
  | ended l _ _ _ _ hs => exact Nat.le_of_eq hs.nextLoad.symm

/-- A task waits after a move if it waited before, or is handed what a lookup finds. -/
theorem mem_waiting_after {c : Cache} {m : Move} {task : Reload}
    (h : task ∈ (c.after m).crew.waiting) :
    task ∈ c.crew.waiting ∨ ∀ e, task.stale = some e → c.finds task.key = some e := by
  cases c.taskStep_after m with
  | same _ _ hs =>
    rw [hs.waiting] at h
    exact .inl h
  | called _ _ r stale _ hs =>
    rw [hs.waiting] at h
    exact .inl h
  | queued r stale _ _ found _ hs =>
    rw [hs.waiting] at h
    simp only [List.mem_append, List.mem_singleton] at h
    rcases h with h | rfl
    · exact .inl h
    · exact .inr found
  | lent r stale byPoller _ _ _ _ _ hs =>
    rw [hs.waiting] at h
    exact .inl h
  | taken place task' _ _ _ hs =>
    rw [hs.waiting] at h
    exact .inl (List.mem_of_mem_eraseIdx h)
  | dropped place task' _ _ _ hs =>
    rw [hs.waiting] at h
    exact .inl (List.mem_of_mem_eraseIdx h)
  | ended l _ _ _ _ hs =>
    rw [hs.waiting] at h
    exact .inl h

/-! ## Whose loads they are -/

/-- A task waits for a request, or a load of it is under way. -/
def InHand (c : Cache) (q : Request) : Prop :=
  (∃ task ∈ c.crew.waiting, task.request = q) ∨ ∃ l ∈ c.loads, l.request = q

section InHand

variable {c c' : Cache} {q : Request}

theorem inHand_congr (h : SameTasks c c') : c'.InHand q ↔ c.InHand q := by
  simp only [InHand, loads, h.waiting, h.held, h.callers]

theorem InHand.mono (h : c'.InHand q) (hw : c'.crew.waiting ⊆ c.crew.waiting)
    (hl : c'.loads ⊆ c.loads) : c.InHand q :=
  h.imp (fun ⟨task, ht, hr⟩ => ⟨task, hw ht, hr⟩) fun ⟨l, hm, hr⟩ => ⟨l, hl hm, hr⟩

/-- What is there of tasks and loads was there before, but for those of one request. -/
theorem InHand.eq_or {r : Request} (h : c'.InHand q)
    (hw : ∀ task ∈ c'.crew.waiting, task ∈ c.crew.waiting ∨ task.request = r)
    (hl : ∀ l ∈ c'.loads, l ∈ c.loads ∨ l.request = r) : c.InHand q ∨ q = r := by
  rcases h with ⟨task, ht, rfl⟩ | ⟨l, hm, rfl⟩
  · exact (hw task ht).imp_left fun ht => .inl ⟨task, ht, rfl⟩
  · exact (hl l hm).imp_left fun hm => .inr ⟨l, hm, rfl⟩

/-- A load that begins brings in its own request only. -/
theorem inHand_enter (r : Request) (stale : Option Entry) (seat : Seat)
    (h : (c.enter r stale seat).2.InHand q) : c.InHand q ∨ q = r := by
  by_cases hs : seat = .caller
  · subst hs
    rw [inHand_congr (c.sameTasks_enter_caller r stale)] at h
    refine h.eq_or (fun task ht => .inl ht) fun l hl => ?_
    simp only [loads, List.mem_append, List.mem_singleton] at hl ⊢
    rcases hl with (hl | rfl) | hl
    · exact .inl (.inl hl)
    · exact .inr rfl
    · exact .inl (.inr hl)
  · rw [inHand_congr (c.sameTasks_enter_background r stale seat hs)] at h
    refine h.eq_or (fun task ht => .inl ht) fun l hl => ?_
    simp only [loads, Crew.hold, List.mem_append, List.mem_singleton] at hl ⊢
    rcases hl with hl | hl | rfl
    · exact .inl (.inl hl)
    · exact .inl (.inr hl)
    · exact .inr rfl

/-- An offer brings in its own request only. -/
theorem inHand_offer (r : Request) (stale : Option Entry) (byPoller : Bool)
    (h : (c.offer r stale byPoller).2.InHand q) : c.InHand q ∨ q = r := by
  rcases c.offer_cases r stale byPoller with
    ⟨-, ho⟩ | ⟨-, -, ho⟩ | ⟨-, crew, hc, ho⟩ | ⟨-, why, -, ho⟩
  · rw [ho] at h
    exact .inl h
  · rw [ho] at h
    exact inHand_enter (c := c.markInFlight r.key) r stale (.lent byPoller) h
  · rw [ho] at h
    obtain ⟨-, -, rfl⟩ := Crew.offer_eq_ok_iff.1 hc
    refine h.eq_or (fun task ht => ?_) fun l hl => .inl hl
    rcases List.mem_append.1 ht with ht | ht
    · exact .inl ht
    · exact .inr (by rw [List.mem_singleton.1 ht])
  · rw [ho] at h
    exact .inl h

/-- A get brings in its own request only. -/
theorem inHand_get (r : Request) (h : (c.get r).2.InHand q) : c.InHand q ∨ q = r := by
  have hl := inHand_congr (q := q) (c.storeOnly_looked r).sameTasks
  rw [get_snd] at h
  rw [← hl]
  cases ha : c.nextAction r with
  | serve =>
    rw [ha] at h
    exact .inl h
  | loadForCaller =>
    rw [ha] at h
    exact inHand_enter r _ _ h
  | serveAndReload =>
    rw [ha] at h
    exact inHand_offer r _ _ h
  | serveAndRegister =>
    rw [ha] at h
    exact .inl ((inHand_congr (pollerOnly_registerIfAbsent _ r).sameTasks).1 h)

/-- A visit brings in nothing but what is visited. -/
theorem inHand_visit {r : Request} (hv : c.canVisit r = true) (h : (c.visit r).2.InHand q) :
    c.InHand q ∨ q = r := by
  rw [← inHand_congr (q := q) (c.sameTasks_visited c.scanLeft r)]
  rcases visit_snd (scanning_of_canVisit hv) r with hs | ⟨o, hs⟩
  · rw [hs] at h
    exact inHand_offer r _ _ h
  · rw [hs, inHand_congr (pollerOnly_record _ _).sameTasks] at h
    exact inHand_offer r _ _ h

/-- The end of a load brings in nothing. -/
theorem inHand_finish {l : Load} {o : Outcome} (h : (c.finish l o).2.InHand q) :
    c.InHand q := by
  have hs := c.sameTasks_finish l o
  refine h.mono ?_ ?_
  · rw [hs.waiting]
    exact List.Subset.refl _
  · rw [hs.loads]
    exact (c.loads_leave_sublist l).subset

/-- **Whose loads they are.** A task waits and a load is under way for nobody but a request that
someone got or the poller visited. -/
theorem inHand_after {m : Move} (h : (c.after m).InHand q) :
    c.InHand q ∨ m = .get q ∨ m = .visit q ∧ c.canVisit q = true := by
  cases m with
  | get r =>
    rcases inHand_get r h with h | rfl
    · exact .inl h
    · exact .inr (.inl rfl)
  | start place =>
    rcases c.after_start place with hs | ⟨task, hw, hs⟩
    · rw [hs] at h
      exact .inl h
    · rw [hs] at h
      -- the task whose load begins was waiting before
      rcases inHand_enter task.request task.stale .worker h with h | rfl
      · exact .inl (h.mono List.eraseIdx_subset (List.Subset.refl _))
      · exact .inl (.inl ⟨task, List.mem_of_getElem? hw, rfl⟩)
  | discard place =>
    rcases c.after_discard place with hd | ⟨task, -, hd⟩
    · rw [hd] at h
      exact .inl h
    · rw [hd] at h
      exact .inl (h.mono List.eraseIdx_subset (List.Subset.refl _))
  | finish id o =>
    rcases c.after_finish_eq_or id o with hf | ⟨l, -, -, hf⟩
    · rw [hf] at h
      exact .inl h
    · rw [hf] at h
      exact .inl (inHand_finish h)
  | visit r =>
    simp only [after] at h
    split at h
    · rename_i hv
      rcases inHand_visit hv h with h | rfl
      · exact .inl h
      · exact .inr (.inr ⟨rfl, hv⟩)
    · exact .inl h
  | _ => exact .inl ((inHand_congr (c.sameTasks_after rfl)).1 h)

end InHand

end Evergreen.Cache
