import Evergreen.Proofs.Absorption
import Evergreen.Proofs.Unnoticed

/-!
# What no operation looks at

Counters are only counted up and the journal is only added to. A load that a caller waits for is
in nobody's way until it ends. So each operation does the same in a cache that differs from
another by what was counted before (`more`), by what was noted before (`old`), and by loads of
callers that have been left out (`gone`): it commutes with `aside`. The one exception is the end of
a load that was left out.

- `unnoticed_aside`: what is done with the store comes to the same;
- `aside_enter`, `aside_offer`, `aside_get`, `aside_visit`: loads that begin;
- `aside_finish`: loads that end;
- `aside_after`, `aside_run`: one move, and any number of them, with all that they show.
-/

namespace Evergreen

/-- What was noted before, unless somebody takes it. -/
def Move.leaves (old : List Event) : Move → List Event
  | .forget => []
  | _ => old

namespace Cache

/-- The cache with more counted and noted before, and without some loads of callers. -/
def aside (gone : Nat → Bool) (more : Counters) (old : List Event) (c : Cache) : Cache :=
  { c with
    callers := c.callers.filter fun l => !gone l.id
    counters := fun k => more k + c.counters k
    journal := c.journal ++ old }

section Asides

variable (gone : Nat → Bool) (more : Counters) (old : List Event) (c : Cache)

/-! ## Calls of the store -/

theorem aside_count (n : Counter) :
    (c.aside gone more old).count n = (c.count n).aside gone more old := by
  have hbump : (c.aside gone more old).counters.bump n =
      fun k => more k + c.counters.bump n k := by
    funext k
    by_cases hk : k = n
    · subst hk
      simp [aside, Nat.add_assoc]
    · simp [aside, Counters.bump_other _ hk]
  unfold count
  rw [hbump]
  rfl

/-- **What is done with the store does not look** at what was counted or noted before, nor at loads
of callers. -/
theorem unnoticed_aside : Unnoticed (aside gone more old) where
  now _ := rfl
  backing _ := rfl
  withBacking _ _ := rfl
  record _ _ := rfl
  count c n := aside_count gone more old c n
  markRefreshed _ _ := rfl

/-! ## The poller -/

section Poller

variable (r : Request) (k : Key)

theorem aside_startPoller :
    (c.aside gone more old).startPoller = c.startPoller.aside gone more old := by
  unfold startPoller
  rw [show (c.aside gone more old).poller = c.poller from rfl]
  cases c.poller.phase <;> rfl

theorem aside_enroll :
    (c.aside gone more old).enroll r = (c.enroll r).aside gone more old :=
  aside_startPoller gone more old
    { c with poller := { c.poller with registry := c.poller.registry.insert r } }

theorem aside_registerIfAbsent : (c.aside gone more old).registerIfAbsent r =
    ((c.registerIfAbsent r).1, (c.registerIfAbsent r).2.aside gone more old) := by
  unfold registerIfAbsent
  rw [aside_enroll]
  show (if c.poller.closed then _ else if c.poller.registry.requests.contains r.key then _
    else _) = _
  split
  · rfl
  · split <;> rfl

theorem aside_register : (c.aside gone more old).register r =
    ((c.register r).1, (c.register r).2.aside gone more old) := by
  have henroll := (c.resetMark r.family).aside_enroll gone more old r
  unfold register
  rw [aside_enroll, show ((c.aside gone more old).resetMark r.family).enroll r = _ from henroll,
    show (c.aside gone more old).poller = c.poller from rfl]
  split
  · rfl
  · cases c.poller.registry.requests.find? r.key with
    | none => rfl
    | some reg =>
      dsimp only
      split <;> rfl

theorem aside_resetRegistered :
    (c.aside gone more old).resetRegistered k = (c.resetRegistered k).aside gone more old := by
  unfold resetRegistered
  rw [show (c.aside gone more old).poller = c.poller from rfl]
  cases c.poller.registry.request? k <;> rfl

theorem aside_remove : (c.aside gone more old).remove k =
    ((c.remove k).1, (c.remove k).2.aside gone more old) := by
  unfold remove
  rw [aside_resetRegistered, (unnoticed_aside gone more old).drop]

theorem aside_resetAll :
    (c.aside gone more old).resetAll = c.resetAll.aside gone more old := by
  unfold resetAll
  rw [show (c.aside gone more old).poller = c.poller from rfl]
  generalize c.poller.registry.requests.values = regs
  induction regs generalizing c with
  | nil => rfl
  | cons reg regs ih => exact ih (c.resetMark reg.request.family)

theorem aside_beginScan? : (c.aside gone more old).beginScan? =
    c.beginScan?.map (·.aside gone more old) := by
  unfold beginScan?
  rw [show (c.aside gone more old).poller = c.poller from rfl,
    show (c.aside gone more old).now = c.now from rfl]
  cases c.poller.phase with
  | waiting deadline =>
    dsimp only
    split <;> rfl
  | _ => rfl

theorem aside_endScan : (c.aside gone more old).endScan = c.endScan.aside gone more old := by
  unfold endScan
  rw [show (c.aside gone more old).poller = c.poller from rfl, aside_count]
  cases c.poller.phase with
  | scanning due =>
    cases due with
    | nil =>
      show (if c.poller.closed then _ else _) = Cache.aside _ _ _ (if c.poller.closed then _ else _)
      split <;> rfl
    | cons q due => rfl
  | _ => rfl

theorem aside_close : (c.aside gone more old).close = c.close.aside gone more old := by
  unfold close
  rw [show (c.aside gone more old).poller = c.poller from rfl]
  split
  · rfl
  · dsimp only
    cases c.poller.phase <;> rfl

theorem aside_dispose : (c.aside gone more old).dispose = c.dispose.aside gone more old := by
  unfold dispose
  rw [show (c.aside gone more old).poller = c.poller from rfl, aside_close]
  cases c.poller.phase <;> rfl

end Poller

/-! ## Loads that begin -/

section Beginnings

variable {gone} (r : Request) (stale : Option Entry)

/-- A load that begins now is none of those that were left out before. -/
theorem aside_enter (h : gone c.nextLoad = false) (seat : Seat) :
    (c.aside gone more old).enter r stale seat =
      ((c.enter r stale seat).1, (c.enter r stale seat).2.aside gone more old) := by
  unfold enter
  rw [aside_count]
  cases seat with
  | caller =>
    have hstays (ls : List Load) (l : Load) (hl : l.id = c.nextLoad) :
        (ls ++ [l]).filter (fun l => !gone l.id) = ls.filter (fun l => !gone l.id) ++ [l] := by
      simp [hl, h]
    refine Prod.ext rfl ?_
    simp only [Seat.invocation, aside, record, count, List.cons_append]
    rw [hstays _ _ rfl]
  | worker => rfl
  | lent byPoller => rfl

theorem aside_offer (h : gone c.nextLoad = false) (byPoller : Bool) :
    (c.aside gone more old).offer r stale byPoller =
      ((c.offer r stale byPoller).1, (c.offer r stale byPoller).2.aside gone more old) := by
  have hinFlight : (c.aside gone more old).inFlight = c.inFlight := rfl
  have hexecutor : (c.aside gone more old).executor = c.executor := rfl
  have hcrew : (c.aside gone more old).crew = c.crew := rfl
  rw [offer_eq, offer_eq, hinFlight, hexecutor, hcrew]
  split
  · exact congrArg (Prod.mk _) (aside_count gone more old (c.record (.reloadInFlight r.key)) _)
  split
  · exact congrArg (fun p => (_, p.2)) (aside_enter more old (c.markInFlight r.key) r stale h _)
  cases c.crew.offer ⟨r, stale⟩ with
  | ok crew =>
    exact congrArg (Prod.mk _) (aside_count gone more old { c.markInFlight r.key with crew } _)
  | error why =>
    exact congrArg (Prod.mk _) (aside_count gone more old
      (((c.markInFlight r.key).clearInFlight r.key).record (.reloadRefused r.key why)) _)

theorem aside_get (h : gone c.nextLoad = false) : (c.aside gone more old).get r =
    ((c.get r).1, (c.get r).2.aside gone more old) := by
  have hnext : gone (c.looked r).nextLoad = false := by rwa [(c.storeOnly_looked r).nextLoad]
  have hf := unnoticed_aside gone more old
  rw [get_eq, get_eq, hf.nextAction, hf.usable, hf.looked]
  cases c.nextAction r with
  | serve => rfl
  | loadForCaller =>
    dsimp only
    rw [aside_enter more old _ r _ hnext]
  | serveAndReload =>
    dsimp only
    rw [aside_offer more old _ r _ hnext]
    obtain ⟨o, c'⟩ := (c.looked r).offer r (c.usable r) false
    cases o <;> rfl
  | serveAndRegister =>
    dsimp only
    rw [aside_registerIfAbsent]

theorem aside_visited (gone : Nat → Bool) (due : List Request) :
    (c.aside gone more old).visited due r = (c.visited due r).aside gone more old ∧
      (c.aside gone more old).visitFinds due r = c.visitFinds due r := by
  have hlookup := (unnoticed_aside gone more old).lookup
    { c with poller := { c.poller with phase := .scanning (due.erase r) } } r.key
  exact ⟨(congrArg Prod.snd hlookup :), (congrArg Prod.fst hlookup :)⟩

theorem aside_visit (h : gone c.nextLoad = false) : (c.aside gone more old).visit r =
    ((c.visit r).1, (c.visit r).2.aside gone more old) := by
  cases hp : c.poller.phase with
  | scanning due =>
    have hp' : (c.aside gone more old).poller.phase = .scanning due := hp
    have hnext : gone (c.visited due r).nextLoad = false := by
      rwa [(c.sameTasks_visited due r).nextLoad]
    obtain ⟨hv, hf⟩ := aside_visited more old c r gone due
    rw [visit_eq hp, visit_eq hp', hv, hf, aside_offer more old _ r _ hnext]
    obtain ⟨o, c'⟩ := (c.visited due r).offer r (c.visitFinds due r) true
    cases o <;> rfl
  | _ =>
    unfold visit
    rw [show (c.aside gone more old).poller = c.poller from rfl, hp]

theorem aside_start? (h : gone c.nextLoad = false) (place : Nat) :
    (c.aside gone more old).start? place =
      (c.start? place).map fun p => (p.1, p.2.aside gone more old) := by
  unfold start?
  show (c.crew.take? place).bind _ = _
  cases c.crew.take? place with
  | none => rfl
  | some p =>
    exact congrArg some
      (aside_enter more old { c with crew := p.2 } p.1.request p.1.stale h .worker)

theorem aside_discard? (place : Nat) : (c.aside gone more old).discard? place =
    (c.discard? place).map fun p => (p.1, p.2.aside gone more old) := by
  unfold discard?
  show (c.crew.remove? place).bind _ = _
  cases c.crew.remove? place <;> rfl

end Beginnings

/-! ## Loads that end -/

section Ends

variable (l : Load)

theorem aside_leave : (c.aside gone more old).leave l = (c.leave l).aside gone more old := by
  have hcomm : (c.callers.filter fun l => !gone l.id).filter (fun l' => l'.id != l.id) =
      (c.callers.filter fun l' => l'.id != l.id).filter fun l => !gone l.id := by
    rw [List.filter_filter, List.filter_filter]
    exact List.filter_congr fun _ _ => Bool.and_comm ..
  exact congrArg (fun callers => { (c.leave l).aside gone more old with callers }) hcomm

theorem aside_finish (o : Outcome) : (c.aside gone more old).finish l o =
    ((c.finish l o).1, (c.finish l o).2.aside gone more old) := by
  have hs := (unnoticed_aside gone more old).settle (c.leave l) l o
  unfold finish
  rw [aside_leave, hs]
  obtain ⟨ending, c'⟩ := (c.leave l).settle l o
  dsimp only
  cases l.seat with
  | caller => rfl
  | worker =>
    cases ending with
    | panicked text =>
      have hexec : ((c'.aside gone more old).clearInFlight l.key).executor = c'.executor := rfl
      have hexec' : (c'.clearInFlight l.key).executor = c'.executor := rfl
      dsimp only
      rw [hexec, hexec']
      cases c'.executor <;> rfl
    | _ => rfl
  | lent byPoller =>
    cases ending with
    | panicked text => cases byPoller <;> rfl
    | returned v =>
      have hcount := aside_count gone more old (c'.clearInFlight l.key) .reloadsStarted
      cases byPoller with
      | false => exact congrArg (Prod.mk _) hcount
      | true =>
        exact congrArg (fun c => (Ending.returned v, c.record (.refreshOffered l.key .started)))
          hcount
    | failed fault =>
      have hcount := aside_count gone more old
        ((c'.record (.failureDropped fault l.key)).clearInFlight l.key) .reloadsStarted
      cases byPoller with
      | false => exact congrArg (Prod.mk _) hcount
      | true =>
        exact congrArg (fun c => (Ending.failed fault, c.record (.refreshOffered l.key .started)))
          hcount

variable {gone}

/-- A load that has not been left out is found. -/
theorem aside_load? {id : Nat} (h : gone id = false) :
    (c.aside gone more old).load? id = c.load? id := by
  have hcallers : (c.callers.filter fun l => !gone l.id).find? (·.id == id) =
      c.callers.find? (·.id == id) := by
    rw [List.find?_filter]
    refine congrArg (List.find? · c.callers) (funext fun l => ?_)
    by_cases hl : l.id = id
    · simp [hl, h]
    · simp [hl]
  unfold load?
  show ((c.callers.filter fun l => !gone l.id) ++ c.crew.held).find? _ =
    (c.callers ++ c.crew.held).find? _
  rw [List.find?_append, List.find?_append, hcallers]

end Ends

/-! ## Moves and runs -/

section Runs

variable {gone} {m : Move} {ms : List Move}

/-- What a move must satisfy in a cache without some loads: loads that begin are not among them,
and none of them ends. -/
def Spares (gone : Nat → Bool) (c : Cache) (m : Move) : Prop :=
  gone c.nextLoad = false ∧ ∀ id o, m = .finish id o → gone id = false

theorem aside_answer (h : Spares gone c m) :
    (c.aside gone more old).answer m = c.answer m := by
  have hf := unnoticed_aside gone more old
  obtain ⟨hnext, hid⟩ := h
  cases m with
  | get r => exact congrArg (Answer.got ·.1) (aside_get more old c r hnext)
  | peek k => exact congrArg (Answer.entry ·.1) (hf.lookup c k)
  | set k v ttl => exact congrArg (Answer.accepted ·.1) (hf.set c k v ttl)
  | setEntry k e => exact congrArg (Answer.accepted ·.1) (hf.setEntry c k e)
  | remove k => exact congrArg (Answer.flag ·.1) (aside_remove gone more old c k)
  | schedule r => exact congrArg (Answer.accepted ·.1) (aside_register gone more old c r)
  | start place =>
    show Answer.begun (((c.aside gone more old).start? place).map (·.1)) = _
    rw [aside_start? more old c hnext, Option.map_map]
    rfl
  | discard place =>
    show Answer.dropped (((c.aside gone more old).discard? place).map (·.1)) = _
    rw [aside_discard?, Option.map_map]
    rfl
  | finish id o =>
    show Answer.ended (((c.aside gone more old).load? id).map fun l =>
      ((c.aside gone more old).finish l o).1) =
        Answer.ended ((c.load? id).map fun l => (c.finish l o).1)
    rw [aside_load? more old c (hid id o rfl)]
    simp only [aside_finish]
  | visit r =>
    show Answer.begun (if c.canVisit r then _ else none) =
      Answer.begun (if c.canVisit r then _ else none)
    rw [aside_visit more old c r hnext]
  | unschedule _ | purge | tick _ | removeAll | close | dispose | beginScan | endScan | shut
  | forecast _ | forget => rfl

theorem aside_offered? (h : Spares gone c m) :
    (c.aside gone more old).offered? m = c.offered? m := by
  have hf := unnoticed_aside gone more old
  cases m with
  | get r =>
    have hnext : gone (c.looked r).nextLoad = false := by
      rw [(c.storeOnly_looked r).nextLoad]
      exact h.1
    show (if (c.aside gone more old).nextAction r = _ then _ else none) = _
    rw [hf.nextAction, hf.looked, hf.usable, aside_offer more old _ r _ hnext]
    rfl
  | visit r =>
    have hnext : gone (c.visited c.scanLeft r).nextLoad = false := by
      rw [(c.sameTasks_visited c.scanLeft r).nextLoad]
      exact h.1
    obtain ⟨hv, hfinds⟩ := aside_visited more old c r gone c.scanLeft
    show (if c.canVisit r then some (r, (((c.aside gone more old).visited c.scanLeft r).offer r
      ((c.aside gone more old).visitFinds c.scanLeft r) true).1) else none) = _
    rw [hv, hfinds, aside_offer more old _ r _ hnext]
    rfl
  | _ => rfl

/-- **A move does not look at what was counted or noted before,** nor at a load of a caller that
it does not end. -/
theorem aside_after (h : Spares gone c m) :
    (c.aside gone more old).after m = (c.after m).aside gone more (m.leaves old) := by
  have hf := unnoticed_aside gone more old
  obtain ⟨hnext, hid⟩ := h
  cases m with
  | get r => exact congrArg Prod.snd (aside_get more old c r hnext)
  | peek k => exact congrArg Prod.snd (hf.lookup c k)
  | set k v ttl => exact congrArg Prod.snd (hf.set c k v ttl)
  | setEntry k e => exact congrArg Prod.snd (hf.setEntry c k e)
  | remove k => exact congrArg Prod.snd (aside_remove gone more old c k)
  | removeAll =>
    show (c.aside gone more old).dropAll.resetAll = _
    rw [hf.dropAll, aside_resetAll]
    rfl
  | schedule r => exact congrArg Prod.snd (aside_register gone more old c r)
  | close => exact aside_close ..
  | dispose => exact aside_dispose ..
  | start place =>
    show ((c.aside gone more old).start? place).elim (c.aside gone more old) (·.2) =
      ((c.start? place).elim c (·.2)).aside gone more old
    rw [aside_start? more old c hnext]
    cases c.start? place <;> rfl
  | discard place =>
    show ((c.aside gone more old).discard? place).elim (c.aside gone more old) (·.2) =
      ((c.discard? place).elim c (·.2)).aside gone more old
    rw [aside_discard?]
    cases c.discard? place <;> rfl
  | finish id o =>
    show ((c.aside gone more old).load? id).elim (c.aside gone more old) _ =
      ((c.load? id).elim c _).aside gone more old
    rw [aside_load? more old c (hid id o rfl)]
    cases c.load? id with
    | none => rfl
    | some l => exact congrArg Prod.snd (aside_finish gone more old c l o)
  | beginScan =>
    show (c.aside gone more old).beginScan?.getD (c.aside gone more old) =
      (c.beginScan?.getD c).aside gone more old
    rw [aside_beginScan?]
    cases c.beginScan? <;> rfl
  | visit r =>
    show (if c.canVisit r then ((c.aside gone more old).visit r).2 else c.aside gone more old) =
      (if c.canVisit r then (c.visit r).2 else c).aside gone more old
    rw [aside_visit more old c r hnext]
    split <;> rfl
  | endScan =>
    show (if c.pollerBusy then c.aside gone more old else (c.aside gone more old).endScan) =
      (if c.pollerBusy then c else c.endScan).aside gone more old
    rw [aside_endScan]
    split <;> rfl
  | purge => exact hf.purged c
  | tick _ | unschedule _ | shut | forecast _ => rfl
  | forget =>
    show { c.aside gone more old with journal := [] } = _
    rfl

/-- **Nor does a run,** in anything that it shows. -/
theorem aside_run (h : Along (Spares gone) c ms) :
    (c.aside gone more old).run ms =
        (c.run ms).aside gone more (ms.foldl Move.leaves old) ∧
      (c.aside gone more old).shown ms = c.shown ms := by
  induction ms generalizing c old with
  | nil => exact ⟨rfl, rfl⟩
  | cons m ms ih =>
    obtain ⟨hm, hms⟩ := h
    obtain ⟨hrun, hshown⟩ := ih (m.leaves old) (c.after m) hms
    rw [run_cons, shown, aside_after more old c hm, aside_answer more old c hm,
      aside_offered? more old c hm]
    exact ⟨hrun, congrArg _ hshown⟩

/-- Where no load is left out, there is none to spare. -/
theorem spares_none (c : Cache) (ms : List Move) : Along (Spares fun _ => false) c ms :=
  along_of_forall (fun _ _ => ⟨rfl, fun _ _ _ => rfl⟩) c ms

/-- A run spares a load that began before it and does not end in it. -/
theorem spares_one {id : Nat} (hid : id < c.nextLoad) (hms : ∀ o, Move.finish id o ∉ ms) :
    Along (Spares (· == id)) c ms := by
  induction ms generalizing c with
  | nil => trivial
  | cons m ms ih =>
    have hnext : (c.nextLoad == id) = false := by
      simp only [beq_eq_false_iff_ne]
      omega
    refine ⟨⟨hnext, fun id' o hm => ?_⟩,
      ih (c.after m) (Nat.lt_of_lt_of_le hid (c.nextLoad_le_after m)) fun o ho =>
        hms o (.tail _ ho)⟩
    simp only [beq_eq_false_iff_ne]
    rintro rfl
    exact hms o (hm ▸ .head _)

end Runs

end Asides

/-- A run leaves all that was noted before, or somebody takes all of it. -/
theorem foldl_leaves (ms : List Move) :
    (∀ old, ms.foldl Move.leaves old = old) ∨ ∀ old, ms.foldl Move.leaves old = [] := by
  induction ms with
  | nil => exact .inl fun _ => rfl
  | cons m ms ih =>
    cases m with
    | forget => exact .inr fun _ => ih.elim (· []) (· [])
    | _ => exact ih

end Cache

end Evergreen
