import Evergreen.Proofs.KeptSteps
import Evergreen.Proofs.TaskSteps

/-!
# What a move does to the poller

`PollerStep c m p` lists all that a single move can make of the poller: it takes up or lets go
of a registration, begins or ends a scan, comes to a request, is closed, or is ended by a panic
on its own thread. `pollerStep_after` says that the list is complete: invariants of the poller
are shown by cases on it and never by cases on moves.

- `poller_enroll`, `poller_finish`: what a registration and the end of a load make of it.
-/

namespace Evergreen

namespace Registry

/-- After a registration, the request is the one under its key. -/
theorem request?_insert (r : Registry) (q : Request) (k : Key) :
    (r.insert q).request? k = if k = q.key then some q else r.request? k := by
  simp only [request?, insert, Table.find?_insert]
  split <;> rfl

/-- After the end of a registration, none is under its key. -/
theorem request?_erase (r : Registry) (k k' : Key) :
    (r.erase k).request? k' = if k' = k then none else r.request? k' := by
  simp only [request?, erase, Table.find?_erase]
  split <;> rfl

end Registry

/-- What a scan has left to visit. -/
def Phase.left : Phase → List Request
  | scanning due => due
  | _ => []

namespace Poller

/-- The poller with one more registration, which starts it if it was never started. -/
def enrolled (p : Poller) (q : Request) (now : Nat) : Poller :=
  let p := { p with registry := p.registry.insert q }
  match p.phase with
  | .unstarted => p.await now
  | _ => p

/-- The poller in a scan that has just begun. -/
def scanBegun (p : Poller) (due : List Request) : Poller :=
  { p with
    registry := { p.registry with scans := p.registry.scans + 1 }
    phase := .scanning due }

/-- The poller after a scan: it waits for the next one, unless it was closed. -/
def rested (p : Poller) (now : Nat) : Poller :=
  if p.closed then { p with phase := .finished } else p.await now

section Parts

variable (p : Poller) (q : Request) (now : Nat)

@[simp] theorem enrolled_interval : (p.enrolled q now).interval = p.interval := by
  unfold enrolled await
  cases p.phase <;> rfl

@[simp] theorem enrolled_registry : (p.enrolled q now).registry = p.registry.insert q := by
  unfold enrolled await
  cases p.phase <;> rfl

@[simp] theorem enrolled_closed : (p.enrolled q now).closed = p.closed := by
  unfold enrolled await
  cases p.phase <;> rfl

variable {p} in
/-- A registration starts no poller that was started before. -/
theorem enrolled_phase (h : p.phase ≠ .unstarted) : (p.enrolled q now).phase = p.phase := by
  unfold enrolled
  cases hp : p.phase with
  | unstarted => exact absurd hp h
  | _ => rfl

/-- A deadline that no timer can be set to ends the poller. -/
theorem await_phase : (p.await now).phase = .waiting (now + p.interval) ∨
    (p.await now).phase = .crashed := by
  unfold await
  dsimp only
  split
  · exact .inl rfl
  · exact .inr rfl

variable {p now} in
/-- Where a poller waits for a deadline, that is an interval away. -/
theorem eq_of_await_waiting {d : Nat} (h : (p.await now).phase = .waiting d) :
    d = now + p.interval := by
  rcases p.await_phase now with hp | hp
  · rw [hp] at h
    exact (Phase.waiting.inj h).symm
  · rw [hp] at h
    cases h

/-- A poller that waits, or cannot, does not scan. -/
theorem await_ne_scanning (due : List Request) : (p.await now).phase ≠ .scanning due := by
  intro h
  rcases p.await_phase now with hp | hp
  · rw [hp] at h
    cases h
  · rw [hp] at h
    cases h

/-- So it has nothing left to visit. -/
@[simp] theorem await_left : (p.await now).phase.left = [] := by
  rcases p.await_phase now with h | h
  · rw [h]
    rfl
  · rw [h]
    rfl

/-- A registration does not add to the scan that is going on. -/
@[simp] theorem enrolled_left : (p.enrolled q now).phase.left = p.phase.left := by
  unfold enrolled
  cases h : p.phase with
  | unstarted => exact await_left _ now
  | _ => simp

/-- A scan that has ended has nothing left to visit. -/
@[simp] theorem rested_left : (p.rested now).phase.left = [] := by
  unfold rested
  split
  · rfl
  · exact p.await_left now

@[simp] theorem rested_interval : (p.rested now).interval = p.interval := by
  unfold rested
  split <;> rfl

@[simp] theorem rested_registry : (p.rested now).registry = p.registry := by
  unfold rested
  split <;> rfl

@[simp] theorem rested_closed : (p.rested now).closed = p.closed := by
  unfold rested
  split <;> rfl

end Parts

end Poller

namespace Cache

/-! ## Operations of the poller -/

/-- What a registration makes of the poller depends on the poller and the clock. -/
theorem poller_enroll (c : Cache) (q : Request) :
    (c.enroll q).poller = c.poller.enrolled q c.now := by
  unfold enroll startPoller Poller.enrolled
  dsimp only
  cases c.poller.phase <;> rfl

/-- Whether the end of a load takes the poller down with it: a panic on the poller's thread. -/
def takesDown (l : Load) : Outcome → Bool
  | .panic _ => l.seat == .lent true
  | _ => false

/-- What the end of a load does to the poller. -/
theorem poller_finish (c : Cache) (l : Load) (o : Outcome) :
    (c.finish l o).2.poller =
      if takesDown l o then { c.poller with phase := .crashed } else c.poller := by
  have hs : ((c.leave l).settle l o).2.poller = c.poller :=
    ((c.leave l).storeAndMarks_settle l o).poller
  rw [← hs]
  -- the seat of a load matters to the poller only if the loader panics
  cases o with
  | panic text =>
    unfold finish takesDown
    simp only [settle]
    cases l.seat with
    | caller => rfl
    | worker =>
      obtain ⟨_, _, _, executor, _, _, _, _, _, _, _, _, _⟩ := c
      cases executor <;> rfl
    | lent byPoller => cases byPoller <;> rfl
  | value v cacheable =>
    unfold finish takesDown
    simp only [settle, Bool.false_eq_true, if_false]
    cases l.seat with
    | caller => rfl
    | worker => rfl
    | lent byPoller => cases byPoller <;> rfl
  | failure f =>
    unfold finish takesDown
    simp only [settle, Bool.false_eq_true, if_false]
    obtain ⟨result, c'⟩ := (c.leave l).recover l f
    cases l.seat with
    | caller => cases result <;> rfl
    | worker => cases result <;> rfl
    | lent byPoller => cases result <;> cases byPoller <;> rfl

/-! ## Steps -/

/-- What a move makes of the poller. -/
inductive PollerStep (c : Cache) (m : Move) : Poller → Prop
  | same : PollerStep c m c.poller
  | enrolled (q : Request) (hm : m = .get q ∨ m = .schedule q) (isOpen : c.poller.closed = false)
      (changes : ∀ old, c.poller.registry.requests.find? q.key = some old →
        c.poller.registry.keeps old q = false) :
    PollerStep c m (c.poller.enrolled q c.now)
  | unregistered (k : Key) (hm : m = .unschedule k) :
    PollerStep c m { c.poller with registry := c.poller.registry.erase k }
  | scanBegan (deadline : Nat) (hm : m = .beginScan) (waits : c.poller.phase = .waiting deadline)
      (due : deadline ≤ c.now) : PollerStep c m (c.poller.scanBegun c.dueRequests)
  | visited (q : Request) (hm : m = .visit q) (can : c.canVisit q = true) :
    PollerStep c m { c.poller with phase := .scanning (c.scanLeft.erase q) }
  | scanEnded (hm : m = .endScan) (scans : c.poller.phase = .scanning []) :
    PollerStep c m (c.poller.rested c.now)
  | closed (hm : m = .close ∨ m = .dispose) (p : Poller) (interval : p.interval = c.poller.interval)
      (registry : p.registry = c.poller.registry) (isClosed : p.closed = true)
      (phase : p.phase = c.poller.phase ∨
        p.phase = .finished ∧ ∃ deadline, c.poller.phase = .waiting deadline) : PollerStep c m p
  | crashed (l : Load) (text : String) (hl : c.load? l.id = some l)
      (hm : m = .finish l.id (.panic text)) (hs : l.seat = .lent true) :
    PollerStep c m { c.poller with phase := .crashed }

section Steps

variable {c : Cache} {m : Move}

/-- The poller may stay as it is. -/
theorem PollerStep.of_eq {p : Poller} (h : p = c.poller) : PollerStep c m p := by
  rw [h]
  exact .same

/-- A get may register its request, in scheduled mode. -/
theorem pollerStep_get (c : Cache) (r : Request) :
    PollerStep c (.get r) (c.get r).2.poller := by
  have hl := c.storeOnly_looked r
  rw [get_snd]
  cases c.nextAction r with
  | serve => exact .of_eq hl.poller
  | loadForCaller => exact .of_eq ((tasksOnly_enter ..).poller.trans hl.poller)
  | serveAndReload => exact .of_eq ((tasksOnly_offer ..).poller.trans hl.poller)
  | serveAndRegister =>
    dsimp only
    unfold registerIfAbsent
    split
    · exact .of_eq hl.poller
    · rename_i hopen
      split
      · exact .of_eq hl.poller
      · rename_i hk
        rw [hl.poller] at hopen hk
        rw [poller_enroll, hl.poller, hl.now]
        refine .enrolled r (.inl rfl) (by simpa using hopen) fun old ho => ?_
        exact absurd (by simp [Table.contains, ho]) hk

/-- A call of `schedule` may register its request. -/
theorem pollerStep_schedule (c : Cache) (r : Request) :
    PollerStep c (.schedule r) (c.schedule r).2.poller := by
  unfold schedule register
  split
  · exact .same
  · rename_i hopen
    have hopen : c.poller.closed = false := by simpa using hopen
    cases hf : c.poller.registry.requests.find? r.key with
    | none =>
      dsimp only
      rw [poller_enroll]
      refine .enrolled r (.inr rfl) hopen fun old ho => ?_
      rw [hf] at ho
      cases ho
    | some old =>
      dsimp only
      split
      · exact .same
      · rename_i hkeeps
        rw [poller_enroll]
        refine .enrolled r (.inr rfl) hopen fun old' ho => ?_
        rw [hf] at ho
        cases ho
        simpa using hkeeps

/-- A visit takes the request off what the scan has left. -/
theorem poller_visit {r : Request} (hv : c.canVisit r = true) :
    (c.visit r).2.poller = { c.poller with phase := .scanning (c.scanLeft.erase r) } := by
  have hl : (c.visited c.scanLeft r).poller =
      { c.poller with phase := .scanning (c.scanLeft.erase r) } := (storeOnly_lookup ..).poller
  exact (tasksOnly_visit (scanning_of_canVisit hv) r).poller.trans hl

/-- A close may end a wait. -/
theorem pollerStep_close (c : Cache) (hm : m = .close ∨ m = .dispose) :
    PollerStep c m c.close.poller := by
  unfold close
  split
  · exact .same
  · dsimp only
    split
    · rename_i deadline hp
      exact .closed hm _ rfl rfl rfl (.inr ⟨rfl, deadline, hp⟩)
    · exact .closed hm _ rfl rfl rfl (.inl rfl)
    · exact .closed hm _ rfl rfl rfl (.inl rfl)

/-- The end of a load may take the poller down. -/
theorem pollerStep_finish {l : Load} (hl : c.load? l.id = some l) (o : Outcome) :
    PollerStep c (.finish l.id o) (c.finish l o).2.poller := by
  rw [poller_finish]
  cases o with
  | panic text =>
    split
    · rename_i hd
      exact .crashed l text hl rfl (by simpa [takesDown] using hd)
    · exact .same
  | value v cacheable => exact .same
  | failure f => exact .same

end Steps

/-- **Every move is a step of the poller.** -/
theorem pollerStep_after (c : Cache) (m : Move) : PollerStep c m (c.after m).poller := by
  cases m with
  | get r => exact c.pollerStep_get r
  | peek k => exact .of_eq (c.storeOnly_peek k).poller
  | set k v ttl => exact .of_eq (c.storeOnly_set k v ttl).poller
  | setEntry k e => exact .of_eq (c.storeOnly_setEntry k e).poller
  | remove k => exact .of_eq (c.storeAndMarks_remove k).poller
  | removeAll => exact .of_eq c.storeAndMarks_removeAll.poller
  | schedule r => exact c.pollerStep_schedule r
  | unschedule k => exact .unregistered k rfl
  | close => exact c.pollerStep_close (.inl rfl)
  | dispose =>
    show PollerStep c .dispose c.dispose.poller
    unfold dispose
    split
    · exact c.pollerStep_close (.inr rfl)
    · exact .closed (.inr rfl) _ rfl rfl rfl (.inl rfl)
  | start place => exact .of_eq (c.tasksOnly_start place).poller
  | discard place => exact .of_eq (c.tasksOnly_discard place).poller
  | finish id o =>
    rcases c.after_finish_eq_or id o with h | ⟨l, rfl, hl, h⟩
    · rw [h]
      exact .same
    · rw [h]
      exact pollerStep_finish hl o
  | beginScan =>
    show PollerStep c .beginScan (c.beginScan?.getD c).poller
    unfold beginScan?
    split
    · rename_i deadline hp
      split
      · exact .scanBegan deadline rfl hp ‹_›
      · exact .same
    · exact .same
  | visit r =>
    simp only [after]
    split
    · rename_i hv
      rw [poller_visit hv]
      exact .visited r rfl hv
    · exact .same
  | endScan =>
    simp only [after]
    split
    · exact .same
    · unfold endScan
      split
      · rename_i hp
        have hs : (if c.poller.closed then { c.poller with phase := .finished }
            else c.poller.await c.now) = c.poller.rested c.now := rfl
        have hstep : PollerStep c .endScan (c.poller.rested c.now) := .scanEnded rfl hp
        dsimp only [count]
        unfold Poller.rested at hstep
        split
        · rename_i hc
          rwa [if_pos hc] at hstep
        · rename_i hc
          rwa [if_neg hc] at hstep
      · exact .same
  | purge => exact .of_eq c.storeOnly_purged.poller
  | tick _ | shut | forecast _ | forget => exact .same

/-! ## What stays, and what is new -/

/-- What a scan has left is a matter of the phase. -/
theorem scanLeft_eq (c : Cache) : c.scanLeft = c.poller.phase.left := by
  unfold scanLeft Phase.left
  cases c.poller.phase <;> rfl

section Parts

variable {c : Cache} {m : Move} {p : Poller}

/-- The interval never changes. -/
theorem PollerStep.interval_eq (h : PollerStep c m p) : p.interval = c.poller.interval := by
  cases h with
  | enrolled => exact Poller.enrolled_interval ..
  | scanEnded => exact Poller.rested_interval ..
  | closed _ _ interval => exact interval
  | same | unregistered | scanBegan | visited | crashed => rfl

/-- The interval of a poller is the one it was built with. -/
theorem interval_run (c : Cache) (ms : List Move) :
    (c.run ms).poller.interval = c.poller.interval :=
  run_preserves (I := fun c' => c'.poller.interval = c.poller.interval)
    (fun c' m h => (c'.pollerStep_after m).interval_eq.trans h) rfl ms

/-- A poller is closed by whoever closes or lets go of its cache. -/
theorem PollerStep.closed_eq (h : PollerStep c m p) (hc : m ≠ .close) (hd : m ≠ .dispose) :
    p.closed = c.poller.closed := by
  cases h with
  | enrolled => exact Poller.enrolled_closed ..
  | scanEnded => exact Poller.rested_closed ..
  | closed hm => exact absurd hm (by simp [hc, hd])
  | same | unregistered | scanBegan | visited | crashed => rfl

/-- A request is registered because it was before, or by a move that has just brought it. -/
theorem PollerStep.request?_eq_some (h : PollerStep c m p) {k : Key} {q : Request}
    (hq : p.registry.request? k = some q) :
    c.poller.registry.request? k = some q ∨ q.key = k ∧ (m = .get q ∨ m = .schedule q) := by
  cases h with
  | enrolled q' hm =>
    rw [Poller.enrolled_registry, Registry.request?_insert] at hq
    split at hq
    · cases hq
      exact .inr ⟨Eq.symm ‹_›, hm⟩
    · exact .inl hq
  | unregistered k' =>
    rw [Registry.request?_erase] at hq
    split at hq
    · cases hq
    · exact .inl hq
  | scanEnded =>
    rw [Poller.rested_registry] at hq
    exact .inl hq
  | closed _ _ _ registry =>
    rw [registry] at hq
    exact .inl hq
  | same | scanBegan | visited | crashed => exact .inl hq

/-- A request stays registered until its key is unregistered or another takes its place. -/
theorem PollerStep.request?_stays (h : PollerStep c m p) {k : Key} {q : Request}
    (hq : c.poller.registry.request? k = some q) :
    p.registry.request? k = some q ∨ m = .unschedule k ∨
      ∃ q', q'.key = k ∧ (m = .get q' ∨ m = .schedule q') ∧ p.registry.request? k = some q' := by
  cases h with
  | enrolled q' hm =>
    rw [Poller.enrolled_registry, Registry.request?_insert]
    split
    · exact .inr (.inr ⟨q', Eq.symm ‹_›, hm, rfl⟩)
    · exact .inl hq
  | unregistered k' hm =>
    rw [Registry.request?_erase]
    split
    · rename_i hk
      exact .inr (.inl (hk ▸ hm))
    · exact .inl hq
  | scanEnded =>
    rw [Poller.rested_registry]
    exact .inl hq
  | closed _ _ _ registry =>
    rw [registry]
    exact .inl hq
  | same | scanBegan | visited | crashed => exact .inl hq

/-- A request is registered under its own key. -/
theorem key_of_registered (h : c.Reachable) {k : Key} {q : Request}
    (hq : c.poller.registry.request? k = some q) : q.key = k := by
  induction h with
  | launched h =>
    obtain ⟨⟨b, now, hb⟩, -⟩ := h
    rw [poller_of_build hb] at hq
    cases hq
  | after _ _ ih =>
    rcases (pollerStep_after _ _).request?_eq_some hq with hq | ⟨hk, -⟩
    · exact ih hq
    · exact hk

/-- A scan visits what is registered and due when it begins. -/
theorem mem_dueRequests_iff {q : Request} :
    q ∈ c.dueRequests ↔ (∃ k, c.poller.registry.request? k = some q) ∧ c.isDue q = true := by
  simp [dueRequests, Table.values, Registry.request?, Table.find?_eq_some_iff]

/-- What a scan has left to visit was left before, or was registered when the scan began. -/
theorem PollerStep.mem_left (h : PollerStep c m p) {q : Request} (hq : q ∈ p.phase.left) :
    q ∈ c.scanLeft ∨ ∃ k, c.poller.registry.request? k = some q := by
  rw [scanLeft_eq]
  cases h with
  | enrolled q' =>
    rw [Poller.enrolled_left] at hq
    exact .inl hq
  | scanBegan => exact .inr (mem_dueRequests_iff.1 hq).1
  | visited q' =>
    rw [← scanLeft_eq]
    exact .inl (List.mem_of_mem_erase hq)
  | scanEnded =>
    rw [Poller.rested_left] at hq
    cases hq
  | closed _ _ _ _ _ phase =>
    rcases phase with phase | ⟨phase, -⟩
    · rw [phase] at hq
      exact .inl hq
    · rw [phase] at hq
      cases hq
  | crashed => cases hq
  | same | unregistered => exact .inl hq

/-- A scan leaves out nothing that it has left to visit, unless a panic ends it. -/
theorem PollerStep.left_stays (h : PollerStep c m p) {q : Request} (hq : q ∈ c.scanLeft) :
    q ∈ p.phase.left ∨ m = .visit q ∧ c.canVisit q = true ∨
      ∃ l text, c.load? l.id = some l ∧ m = .finish l.id (.panic text) ∧ l.seat = .lent true := by
  rw [scanLeft_eq] at hq
  cases h with
  | enrolled q' =>
    rw [Poller.enrolled_left]
    exact .inl hq
  | scanBegan _ _ waits =>
    rw [waits] at hq
    cases hq
  | visited q' hm can =>
    by_cases hqq : q = q'
    · subst hqq
      exact .inr (.inl ⟨hm, can⟩)
    · rw [← scanLeft_eq] at hq
      exact .inl ((List.mem_erase_of_ne hqq).2 hq)
  | scanEnded _ scans =>
    rw [scans] at hq
    cases hq
  | closed _ _ _ _ _ phase =>
    rcases phase with phase | ⟨-, deadline, waits⟩
    · rw [phase]
      exact .inl hq
    · rw [waits] at hq
      cases hq
  | crashed l text hl hm hs => exact .inr (.inr ⟨l, text, hl, hm, hs⟩)
  | same | unregistered => exact .inl hq

/-- A scan is counted when it begins. -/
theorem PollerStep.scans_eq_or (h : PollerStep c m p) :
    p.registry.scans = c.poller.registry.scans ∨ p.phase = .scanning c.dueRequests := by
  cases h with
  | enrolled =>
    rw [Poller.enrolled_registry]
    exact .inl rfl
  | scanBegan => exact .inr rfl
  | scanEnded =>
    rw [Poller.rested_registry]
    exact .inl rfl
  | closed _ _ _ registry =>
    rw [registry]
    exact .inl rfl
  | same | unregistered | visited | crashed => exact .inl rfl

end Parts

end Cache

end Evergreen
