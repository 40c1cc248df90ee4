import Evergreen.Proofs.Frames

/-!
# Operations in parts

The operations that hand over, begin and end loads, each said in terms of its parts:

- `get_eq`: a get is a lookup, and then what the mode table says;
- `offer_cases`: the four things that can come of offering a reload;
- `visit_snd`: a visit of the poller is a lookup and an offer;
- `after_start`, `after_discard`: a task leaves the queue to be run or dropped;
- `finish_fst`, `ended_finish`: the end of a load is `settle`, but for what it means to the
  thread it ran on;
- `sameTasks_finish`: it takes that load away, and no other.
-/

namespace Evergreen.Cache

/-! ## Lookups -/

/-- The entry under a key that can be served now: the store has not let go of it, and it is not
past its hard lifetime. -/
def finds (c : Cache) (k : Key) : Option Entry :=
  (c.backing.store.find? c.now k).filter fun e => !e.hardExpired c.now

theorem finds_eq_some_iff {c : Cache} {k : Key} {e : Entry} :
    c.finds k = some e ↔
      c.backing.store.find? c.now k = some e ∧ e.hardExpired c.now = false := by
  simp [finds, Option.filter_eq_some_iff]

theorem kept?_of_finds {c : Cache} {k : Key} {e : Entry} (h : c.finds k = some e) :
    c.backing.kept? k = some e :=
  Store.kept?_of_find? (finds_eq_some_iff.1 h).1

/-- A call that reads the store finds what there is, fails, or passes over it. -/
theorem fetch_fst (c : Cache) (k : Key) :
    (c.fetch k).1 = match c.backing.verdict .get with
      | .pass => .ok (c.backing.store.find? c.now k)
      | .fail fault => .error fault
      | .ignore => .ok none := by
  show (c.backing.get c.now k).1 = _
  unfold Backing.get
  cases c.backing.verdict .get with
  | pass => exact congrArg _ (Store.get_fst ..)
  | fail fault => rfl
  | ignore => rfl

/-- What a lookup finds can be served. -/
theorem finds_of_lookup {c : Cache} {k : Key} {e : Entry} (h : (c.lookup k).1 = some e) :
    c.finds k = some e := by
  have hf := c.fetch_fst k
  have hn := (c.storeOnly_fetch k).now
  unfold lookup at h
  split at h
  · rename_i e' c' hc
    rw [hc] at hf hn
    split at h
    · cases h
    · rename_i he
      cases h
      rw [finds_eq_some_iff, ← hn]
      refine ⟨?_, by simpa using he⟩
      rw [hn]
      split at hf
      · simpa using hf.symm
      · cases hf
      · cases hf
  · cases h
  · cases h

/-! ## Gets -/

/-- What a get of a request finds, for serving: nothing past its hard lifetime. -/
def usable (c : Cache) (r : Request) : Option Entry :=
  let (found, c) := c.lookup r.key
  if Freshness.of found c.now = .miss then none else found

/-- What the mode table makes of what a get finds. -/
def nextAction (c : Cache) (r : Request) : Action :=
  let (found, c) := c.lookup r.key
  r.mode.action (Freshness.of found c.now)

/-- The cache after the lookup of a get and its count. -/
def looked (c : Cache) (r : Request) : Cache :=
  let (found, c) := c.lookup r.key
  c.countFound (Freshness.of found c.now)

/-- What a get uses can be served. -/
theorem finds_of_usable {c : Cache} {r : Request} {e : Entry} (h : c.usable r = some e) :
    c.finds r.key = some e := by
  unfold usable at h
  dsimp only at h
  split at h
  · cases h
  · exact finds_of_lookup h

theorem storeOnly_looked (c : Cache) (r : Request) : StoreOnly c (c.looked r) :=
  (c.storeOnly_lookup r.key).trans (storeOnly_countFound _ _)

/-- A get is a lookup, and then what the mode table says. -/
theorem get_eq (c : Cache) (r : Request) :
    c.get r = match c.nextAction r with
      | .serve => (.answered ((c.usable r).map (·.value)), c.looked r)
      | .loadForCaller =>
        let (load, c') := (c.looked r).enter r (c.usable r) .caller
        (.loading load, c')
      | .serveAndReload =>
        match (c.looked r).offer r (c.usable r) false with
        | (.done _, c') => (.answered ((c.usable r).map (·.value)), c')
        | (.running l, c') => (.lent l ((c.usable r).map (·.value)), c')
      | .serveAndRegister =>
        (.answered ((c.usable r).map (·.value)), ((c.looked r).registerIfAbsent r).2) := rfl

/-- The cache after a get. -/
theorem get_snd (c : Cache) (r : Request) :
    (c.get r).2 = match c.nextAction r with
      | .serve => c.looked r
      | .loadForCaller => ((c.looked r).enter r (c.usable r) .caller).2
      | .serveAndReload => ((c.looked r).offer r (c.usable r) false).2
      | .serveAndRegister => ((c.looked r).registerIfAbsent r).2 := by
  rw [get_eq]
  cases c.nextAction r with
  | serve => rfl
  | loadForCaller => rfl
  | serveAndReload =>
    dsimp only
    split
    · rename_i ho
      rw [ho]
    · rename_i ho
      rw [ho]
  | serveAndRegister => rfl

/-! ## Loads that begin -/

/-- The load that begins when the loader of a request is called. -/
def nextOf (c : Cache) (r : Request) (stale : Option Entry) (seat : Seat) : Load :=
  { id := c.nextLoad, request := r, stale, seat, started := c.now }

/-- What a load that begins changes of the tasks. -/
theorem sameTasks_enter_caller (c : Cache) (r : Request) (stale : Option Entry) :
    SameTasks
      { c with callers := c.callers ++ [c.nextOf r stale .caller], nextLoad := c.nextLoad + 1 }
      (c.enter r stale .caller).2 := by
  constructor <;> rfl

/-- What a background load that begins changes of the tasks. -/
theorem sameTasks_enter_background (c : Cache) (r : Request) (stale : Option Entry)
    (seat : Seat) (h : seat ≠ .caller) :
    SameTasks
      { c with crew := c.crew.hold (c.nextOf r stale seat), nextLoad := c.nextLoad + 1 }
      (c.enter r stale seat).2 := by
  cases seat with
  | caller => exact absurd rfl h
  | worker => constructor <;> rfl
  | lent byPoller => constructor <;> rfl

/-! ## Reloads that are offered -/

/-- The cache after an offer of a key that is being reloaded. -/
def deduplicated (c : Cache) (k : Key) : Cache :=
  (c.record (.reloadInFlight k)).count .reloadsDeduplicated

/-- The cache after an offer that the executor refused. -/
def refused (c : Cache) (k : Key) (why : Refusal) : Cache :=
  (((c.markInFlight k).clearInFlight k).record (.reloadRefused k why)).count .reloadsRejected

/-- The cache after an offer that left the executor's queue as `crew`. -/
def accepted (c : Cache) (k : Key) (crew : Crew Reload Load) : Cache :=
  { c.markInFlight k with crew }.count .reloadsStarted

/-- An offer asks first whether the key is being reloaded, and then how the executor runs
tasks. -/
theorem offer_eq (c : Cache) (r : Request) (stale : Option Entry) (byPoller : Bool) :
    c.offer r stale byPoller =
      if c.inFlight.contains r.key then (.done .alreadyInFlight, c.deduplicated r.key)
      else if c.executor = .inPlace then
        (.running ((c.markInFlight r.key).nextOf r stale (.lent byPoller)),
          ((c.markInFlight r.key).enter r stale (.lent byPoller)).2)
      else match c.crew.offer ⟨r, stale⟩ with
        | .ok crew => (.done .started, c.accepted r.key crew)
        | .error why => (.done (.refused why), c.refused r.key why) := by
  obtain ⟨_, _, _, executor, _, _, _, _, _, _, _, _, _⟩ := c
  cases executor <;> rfl

/-- **What comes of an offer.** A reload of the key is in flight; or the executor runs it at
once on the thread that offered it; or puts it in its queue; or refuses it. -/
theorem offer_cases (c : Cache) (r : Request) (stale : Option Entry) (byPoller : Bool) :
    (r.key ∈ c.inFlight ∧
      c.offer r stale byPoller = (.done .alreadyInFlight, c.deduplicated r.key)) ∨
    (r.key ∉ c.inFlight ∧ c.executor = .inPlace ∧
      c.offer r stale byPoller =
        (.running ((c.markInFlight r.key).nextOf r stale (.lent byPoller)),
          ((c.markInFlight r.key).enter r stale (.lent byPoller)).2)) ∨
    (r.key ∉ c.inFlight ∧ ∃ crew, c.crew.offer ⟨r, stale⟩ = .ok crew ∧
      c.offer r stale byPoller = (.done .started, c.accepted r.key crew)) ∨
    (r.key ∉ c.inFlight ∧ ∃ why, c.crew.offer ⟨r, stale⟩ = .error why ∧
      c.offer r stale byPoller = (.done (.refused why), c.refused r.key why)) := by
  rw [offer_eq]
  by_cases hk : r.key ∈ c.inFlight
  · -- the executor is not asked
    exact .inl ⟨hk, if_pos (by simpa using hk)⟩
  · rw [if_neg (by simpa using hk)]
    refine .inr ?_
    by_cases he : c.executor = .inPlace
    · -- there is no queue to be asked
      exact .inl ⟨hk, he, if_pos he⟩
    · rw [if_neg he]
      cases ho : c.crew.offer ⟨r, stale⟩ with
      | ok crew => exact .inr (.inl ⟨hk, crew, rfl, rfl⟩)
      | error why => exact .inr (.inr ⟨hk, why, rfl, rfl⟩)

theorem tasksOnly_offer (c : Cache) (r : Request) (stale : Option Entry) (byPoller : Bool) :
    TasksOnly c (c.offer r stale byPoller).2 := by
  rcases c.offer_cases r stale byPoller with
    ⟨-, ho⟩ | ⟨-, -, ho⟩ | ⟨-, crew, -, ho⟩ | ⟨-, why, -, ho⟩
  · rw [ho]
    constructor <;> rfl
  · rw [ho]
    have he := (c.markInFlight r.key).tasksOnly_enter r stale (.lent byPoller)
    exact ⟨he.now, he.executor, he.backing, he.poller, he.marks⟩
  · rw [ho]
    constructor <;> rfl
  · rw [ho]
    constructor <;> rfl

/-- What an accepted offer changes of the tasks. -/
theorem sameTasks_accepted (c : Cache) (r : Request) (stale : Option Entry)
    {crew : Crew Reload Load} (h : c.crew.offer ⟨r, stale⟩ = .ok crew) :
    SameTasks
      { c with
        crew := { c.crew with waiting := c.crew.waiting ++ [⟨r, stale⟩] }
        inFlight := r.key :: c.inFlight }
      (c.accepted r.key crew) := by
  obtain ⟨-, -, rfl⟩ := Crew.offer_eq_ok_iff.1 h
  constructor <;> rfl

/-- An offer that was deduplicated changes nothing of the tasks. -/
theorem sameTasks_deduplicated (c : Cache) (k : Key) : SameTasks c (c.deduplicated k) := by
  constructor <;> rfl

/-- An offer that was refused changes nothing of the tasks: the mark it made is gone. -/
theorem sameTasks_refused (c : Cache) (k : Key) (why : Refusal) :
    SameTasks c (c.refused k why) where
  waiting := rfl
  held := rfl
  inFlight := List.erase_cons_head ..
  callers := rfl
  nextLoad := rfl

/-- Once a get has looked up its request, it leaves the store alone. -/
theorem sameStore_get (c : Cache) (r : Request) : SameStore (c.looked r) (c.get r).2 := by
  rw [get_snd]
  cases c.nextAction r with
  | serve => exact .refl _
  | loadForCaller => exact (tasksOnly_enter ..).sameStore
  | serveAndReload => exact (tasksOnly_offer ..).sameStore
  | serveAndRegister => exact (pollerOnly_registerIfAbsent ..).sameStore

/-! ## Visits of the poller -/

/-- The cache when a scan has come to a request and looked it up. -/
def visited (c : Cache) (due : List Request) (r : Request) : Cache :=
  ({ c with poller := { c.poller with phase := .scanning (due.erase r) } }.lookup r.key).2

/-- What a lookup finds when a scan has come to a request. -/
def visitFinds (c : Cache) (due : List Request) (r : Request) : Option Entry :=
  ({ c with poller := { c.poller with phase := .scanning (due.erase r) } }.lookup r.key).1

theorem sameTasks_visited (c : Cache) (due : List Request) (r : Request) :
    SameTasks c (c.visited due r) :=
  (c.pollerOnly_poller _).sameTasks.trans (storeOnly_lookup _ _).sameTasks

/-- A visit is a lookup and an offer, and a record of what came of it. -/
theorem visit_eq {c : Cache} {due : List Request} (h : c.poller.phase = .scanning due)
    (r : Request) :
    c.visit r = match (c.visited due r).offer r (c.visitFinds due r) true with
      | (.done o, c') => (none, c'.record (.refreshOffered r.key o))
      | (.running l, c') => (some l, c') := by
  unfold visit
  rw [h]
  rfl

/-- A visit offers a reload with what a lookup finds. -/
theorem visit_snd {c : Cache} {due : List Request} (h : c.poller.phase = .scanning due)
    (r : Request) :
    (c.visit r).2 =
        ((c.visited due r).offer r (c.visitFinds due r) true).2 ∨
      ∃ o, (c.visit r).2 =
        ((c.visited due r).offer r (c.visitFinds due r) true).2.record
          (.refreshOffered r.key o) := by
  unfold visit
  rw [h]
  dsimp only
  split
  · rename_i o c' ho
    refine .inr ⟨o, ?_⟩
    simp only [visited, visitFinds, ho]
  · rename_i l c' ho
    refine .inl ?_
    simp only [visited, visitFinds, ho]

/-- Once a visit has looked up its request, it is about tasks and loads. -/
theorem tasksOnly_visit {c : Cache} {due : List Request} (h : c.poller.phase = .scanning due)
    (r : Request) : TasksOnly (c.visited due r) (c.visit r).2 := by
  have ho := (c.visited due r).tasksOnly_offer r (c.visitFinds due r) true
  rcases visit_snd h r with hv | ⟨o, hv⟩
  · rwa [hv]
  · rw [hv]
    exact ⟨ho.now, ho.executor, ho.backing, ho.poller, ho.marks⟩

/-! ## Tasks that leave the queue -/

/-- A task that a hand takes up leaves the queue, and its load begins. -/
theorem start?_eq_some {c c' : Cache} {place : Nat} {l : Load}
    (h : c.start? place = some (l, c')) :
    ∃ task, c.crew.waiting[place]? = some task ∧
      c' = ({ c with crew := { c.crew with waiting := c.crew.waiting.eraseIdx place } }.enter
        task.request task.stale .worker).2 := by
  simp only [start?, Crew.take?, Crew.remove?, Option.bind_eq_bind,
    Option.bind_eq_some_iff] at h
  obtain ⟨⟨task, crew⟩, ht, hl⟩ := h
  split at ht
  · simp only [Option.map_eq_some_iff, Prod.mk.injEq] at ht
    obtain ⟨task', hw, rfl, rfl⟩ := ht
    simp only [Option.pure_def, Option.some.injEq] at hl
    exact ⟨task', hw, by rw [hl]⟩
  · cases ht

/-- A task that is dropped leaves the queue, and its mark goes with it. -/
theorem discard?_eq_some {c c' : Cache} {place : Nat} {task : Reload}
    (h : c.discard? place = some (task, c')) :
    c.crew.waiting[place]? = some task ∧
      c' = { c with crew := { c.crew with waiting := c.crew.waiting.eraseIdx place } }.clearInFlight
        task.key := by
  simp only [discard?, Crew.remove?, Option.bind_eq_bind, Option.bind_eq_some_iff] at h
  obtain ⟨⟨task', crew⟩, ht, hl⟩ := h
  simp only [Option.map_eq_some_iff, Prod.mk.injEq] at ht
  obtain ⟨task'', hw, rfl, rfl⟩ := ht
  simp only [Option.pure_def, Option.some.injEq, Prod.mk.injEq] at hl
  obtain ⟨rfl, rfl⟩ := hl
  exact ⟨hw, rfl⟩

/-- What becomes of a cache when a hand takes up a task: if it may, the task's load begins. -/
theorem after_start (c : Cache) (place : Nat) :
    c.after (.start place) = c ∨ ∃ task, c.crew.waiting[place]? = some task ∧
      c.after (.start place) =
        ({ c with crew := { c.crew with waiting := c.crew.waiting.eraseIdx place } }.enter
          task.request task.stale .worker).2 := by
  simp only [after]
  cases h : c.start? place with
  | none => exact .inl rfl
  | some p =>
    obtain ⟨l, c'⟩ := p
    obtain ⟨task, hw, rfl⟩ := start?_eq_some h
    exact .inr ⟨task, hw, rfl⟩

/-- What becomes of a cache when a task is dropped, if there is one. -/
theorem after_discard (c : Cache) (place : Nat) :
    c.after (.discard place) = c ∨ ∃ task, c.crew.waiting[place]? = some task ∧
      c.after (.discard place) =
        { c with crew := { c.crew with waiting := c.crew.waiting.eraseIdx place } }.clearInFlight
          task.key := by
  simp only [after]
  cases h : c.discard? place with
  | none => exact .inl rfl
  | some p =>
    obtain ⟨task, c'⟩ := p
    obtain ⟨hw, rfl⟩ := discard?_eq_some h
    exact .inr ⟨task, hw, rfl⟩

/-- A hand that takes up a task is about tasks and loads. -/
theorem tasksOnly_start (c : Cache) (place : Nat) : TasksOnly c (c.after (.start place)) := by
  rcases c.after_start place with h | ⟨task, -, h⟩
  · rw [h]
    constructor <;> rfl
  · rw [h]
    have he := tasksOnly_enter
      { c with crew := { c.crew with waiting := c.crew.waiting.eraseIdx place } }
      task.request task.stale .worker
    exact ⟨he.now, he.executor, he.backing, he.poller, he.marks⟩

theorem tasksOnly_discard (c : Cache) (place : Nat) :
    TasksOnly c (c.after (.discard place)) := by
  rcases c.after_discard place with h | ⟨task, -, h⟩
  · rw [h]
    constructor <;> rfl
  · rw [h]
    constructor <;> rfl

/-! ## Loads that end -/

/-- What becomes of a cache when a load ends, if it is under way. -/
theorem after_finish_eq_or (c : Cache) (id : Nat) (o : Outcome) :
    c.after (.finish id o) = c ∨ ∃ l, l.id = id ∧ c.load? l.id = some l ∧
      c.after (.finish id o) = (c.finish l o).2 := by
  cases h : c.load? id with
  | none => exact .inl (by simp only [after, h, Option.elim_none])
  | some l =>
    obtain ⟨rfl, hl⟩ := load?_self h
    exact .inr ⟨l, rfl, hl, after_finish hl o⟩

/-- What the end of a load may still change once the load as such is settled: the mark of its
key, the count of its offer, the poller it has taken down, and the journal. -/
structure Ended (c c' : Cache) : Prop where
  now : c'.now = c.now
  executor : c'.executor = c.executor
  backing : c'.backing = c.backing
  crew : c'.crew = c.crew
  callers : c'.callers = c.callers
  marks : c'.marks = c.marks
  nextLoad : c'.nextLoad = c.nextLoad
  counters : ∀ k, k ≠ .reloadsStarted → c'.counters k = c.counters k

/-- The end of a load comes to what `settle` says. -/
theorem finish_fst (c : Cache) (l : Load) (o : Outcome) :
    (c.finish l o).1 = ((c.leave l).settle l o).1 := by
  unfold finish
  obtain ⟨ending, c'⟩ := (c.leave l).settle l o
  obtain ⟨_, _, _, executor, _, _, _, _, _, _, _, _, _⟩ := c'
  cases l.seat with
  | caller => rfl
  | worker => cases ending <;> cases executor <;> rfl
  | lent byPoller => cases ending <;> cases byPoller <;> rfl

/-- The end of a load leaves the cache as `settle` does, but for what it means to the thread it
ran on. -/
theorem ended_finish (c : Cache) (l : Load) (o : Outcome) :
    Ended ((c.leave l).settle l o).2 (c.finish l o).2 := by
  -- what is settled stays closed: only the seat, the ending and the executor are told apart
  unfold finish
  obtain ⟨ending, c'⟩ := (c.leave l).settle l o
  obtain ⟨_, _, _, executor, _, _, _, _, _, _, _, _, _⟩ := c'
  cases l.seat with
  | caller => constructor <;> intros <;> rfl
  | worker => cases ending <;> cases executor <;> constructor <;> intros <;> rfl
  | lent byPoller =>
    cases ending <;> cases byPoller <;> constructor <;> intros <;>
      first | rfl | exact Counters.bump_other _ ‹_›

/-- The end of a background load takes away the mark of its key, whatever came of the load. -/
theorem inFlight_finish (c : Cache) (l : Load) (o : Outcome) :
    (c.finish l o).2.inFlight =
      if l.seat = .caller then c.inFlight else c.inFlight.erase l.key := by
  have h : ((c.leave l).settle l o).2.inFlight = c.inFlight :=
    ((c.leave l).storeAndMarks_settle l o).inFlight
  rw [← h]
  unfold finish
  obtain ⟨ending, c'⟩ := (c.leave l).settle l o
  obtain ⟨_, _, _, executor, _, _, _, _, _, _, _, _, _⟩ := c'
  cases l.seat with
  | caller => rfl
  | worker => cases ending <;> cases executor <;> rfl
  | lent byPoller => cases ending <;> cases byPoller <;> rfl

/-- The loads that stay when one ends were under way before. -/
theorem loads_leave_sublist (c : Cache) (l : Load) : (c.leave l).loads.Sublist c.loads :=
  List.filter_sublist.append List.filter_sublist

/-- The end of a load takes it from its caller or from the executor, and moves no other. -/
theorem sameTasks_finish (c : Cache) (l : Load) (o : Outcome) :
    SameTasks
      { c.leave l with
        inFlight := if l.seat = .caller then c.inFlight else c.inFlight.erase l.key }
      (c.finish l o).2 := by
  -- the mark is the one thing of the tasks that the end changes after the load is settled
  have hs := ((c.leave l).storeAndMarks_settle l o).sameTasks
  have he := c.ended_finish l o
  refine ⟨?_, ?_, c.inFlight_finish l o, ?_, ?_⟩
  · rw [he.crew, hs.waiting]
  · rw [he.crew, hs.held]
  · rw [he.callers, hs.callers]
  · rw [he.nextLoad, hs.nextLoad]

theorem now_finish (c : Cache) (l : Load) (o : Outcome) : (c.finish l o).2.now = c.now :=
  (c.ended_finish l o).now.trans ((c.leave l).storeAndMarks_settle l o).now

end Evergreen.Cache
