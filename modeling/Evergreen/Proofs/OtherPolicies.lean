import Evergreen.Proofs.Absorption
import Evergreen.Proofs.WithPoller
import Mathlib.Logic.Equiv.Defs

/-!
# Caches under other policies

A policy is looked at in one place: where a load has failed, and then in one of its cells. Here
the policies of all requests are exchanged for others, family by family, wherever a request stands
in a cache: registered, in a scan, in the queue, or in a load under way. Each operation commutes
with the exchange (`under`), and so does the end of a load that fails, if it finds the same in the
cell that it selects.

The exchange has to be one-to-one, because a scan tells requests apart by all that is in them.

- `unnoticed_under`: what is done with the store comes to the same;
- `under_get`, `under_visit`: gets, and visits of the poller;
- `finish_governedBy`, `under_finish`: the end of a load under another policy;
- `under_after`, `under_run`: one move, and any number of them.
-/

namespace Evergreen

/-! ## Tables and crews -/

/-- The table with every value replaced. -/
def Table.map {α β : Type} (f : α → β) (t : Table α) : Table β where
  pairs := t.pairs.map fun p => (p.1, f p.2)
  distinct := by simpa [Function.comp_def] using t.distinct

namespace Table

variable {α β : Type} (f : α → β) (t : Table α) (k : Key)

theorem find?_map : (t.map f).find? k = (t.find? k).map f := by
  simp [map, find?, List.find?_map, Function.comp_def]

theorem contains_map : (t.map f).contains k = t.contains k := by
  simp [contains, find?_map]

theorem values_map : (t.map f).values = t.values.map f := by
  simp [map, values]

theorem erase_map : (t.map f).erase k = (t.erase k).map f := by
  simp [map, erase, filter, List.filter_map, Function.comp_def]

theorem insert_map (v : α) : (t.map f).insert k (f v) = (t.insert k v).map f := by
  simp only [insert, erase_map]
  rfl

end Table

/-- The crew with every task replaced, waiting or held. -/
def Crew.map {τ τ' η η' : Type} (f : τ → τ') (g : η → η') (c : Crew τ η) : Crew τ' η' where
  room := c.room
  hands := c.hands
  inOrder := c.inOrder
  refusal := c.refusal
  waiting := c.waiting.map f
  held := c.held.map g

namespace Crew

variable {τ τ' η η' : Type} (f : τ → τ') (g : η → η') (c : Crew τ η)

theorem offer_map (t : τ) : (c.map f g).offer (f t) = (c.offer t).map (·.map f g) := by
  have hfull : (c.map f g).full = c.full := by simp [full, map]
  unfold offer
  rw [hfull]
  cases hr : c.refusal with
  | some why => simp [map, hr, Except.map]
  | none => cases c.full <;> simp [map, hr, Except.map]

theorem remove?_map (i : Nat) :
    (c.map f g).remove? i = (c.remove? i).map fun p => (f p.1, p.2.map f g) := by
  unfold remove?
  simp only [map, List.getElem?_map, Option.map_map, Function.comp_def, List.eraseIdx_map]

theorem take?_map (i : Nat) :
    (c.map f g).take? i = (c.take? i).map fun p => (f p.1, p.2.map f g) := by
  have hidle : (c.map f g).idle = c.idle := by simp [idle, map]
  unfold take?
  rw [hidle, remove?_map]
  show (if c.idle && (!c.inOrder || i == 0) then _ else none) = _
  split <;> rfl

theorem hold_map (h : η) : (c.map f g).hold (g h) = (c.hold h).map f g := by
  simp [hold, map]

theorem release_map {p : η → Bool} {p' : η' → Bool} (h : ∀ x, p' (g x) = p x) :
    (c.map f g).release p' = (c.release p).map f g := by
  simp [release, map, List.filter_map, Function.comp_def, h]

end Crew

/-! ## Requests under other policies -/

/-- The load with another policy. -/
def Load.governedBy (l : Load) (p : Policy) : Load :=
  { l with request := { l.request with policy := p } }

/-- Other policies for the requests of each family. They are copies of one request, with one
policy, and changing places with another policy is one-to-one. -/
abbrev Exchange := Nat → Equiv.Perm Policy

section Under

variable (π : Exchange)

def Request.under (r : Request) : Request := { r with policy := π r.family r.policy }

def Reload.under (t : Reload) : Reload := { t with request := t.request.under π }

def Load.under (l : Load) : Load := l.governedBy (π l.request.family l.request.policy)

def Registration.under (reg : Registration) : Registration :=
  { reg with request := reg.request.under π }

def Registry.under (r : Registry) : Registry :=
  { r with requests := r.requests.map (·.under π) }

def Phase.under : Phase → Phase
  | .scanning due => .scanning (due.map (·.under π))
  | phase => phase

def Poller.under (p : Poller) : Poller :=
  { p with registry := p.registry.under π, phase := p.phase.under π }

def Move.under : Move → Move
  | .get r => .get (r.under π)
  | .schedule r => .schedule (r.under π)
  | .visit r => .visit (r.under π)
  | m => m

theorem Request.under_injective : Function.Injective (Request.under π) := by
  rintro ⟨key, hard, soft, mode, policy, family⟩ ⟨_, _, _, _, policy', _⟩ h
  simp only [under, Request.mk.injEq] at h
  obtain ⟨rfl, rfl, rfl, rfl, hp, rfl⟩ := h
  rw [(π family).injective hp]

theorem Registry.request?_under (r : Registry) (k : Key) :
    (r.under π).request? k = (r.request? k).map (·.under π) := by
  simp only [request?, under, Table.find?_map, Option.map_map]
  rfl

theorem Registry.insert_under (r : Registry) (q : Request) :
    (r.under π).insert (q.under π) = (r.insert q).under π := by
  have h := r.requests.insert_map (·.under π) q.key ⟨q, r.scans⟩
  show Registry.mk ((r.requests.map (·.under π)).insert q.key _) r.scans = _
  exact congrArg (Registry.mk · r.scans) h

theorem Registry.erase_under (r : Registry) (k : Key) :
    (r.under π).erase k = (r.erase k).under π := by
  simp only [erase, under, Table.erase_map]

namespace Cache

def under (c : Cache) : Cache :=
  { c with
    crew := c.crew.map (·.under π) (·.under π)
    callers := c.callers.map (·.under π)
    poller := c.poller.under π }

def Offer.under : Offer → Offer
  | .running l => .running (l.under π)
  | o => o

def Reply.under : Reply → Reply
  | .loading l => .loading (l.under π)
  | .lent l v => .lent (l.under π) v
  | reply => reply

def Answer.under : Answer → Answer
  | .got reply => .got (reply.under π)
  | .begun l => .begun (l.map (·.under π))
  | .dropped task => .dropped (task.map (·.under π))
  | a => a

/-- An operation that commutes with the exchange answers the same. -/
theorem fst_of_under {α : Type} {p q : α × Cache} (h : p = (q.1, q.2.under π)) : p.1 = q.1 := by
  rw [h]

theorem snd_of_under {α : Type} {p q : α × Cache} (h : p = (q.1, q.2.under π)) :
    p.2 = q.2.under π := by
  rw [h]

variable (c : Cache)

/-- What is done with the store does not look at policies. -/
theorem unnoticed_under : Unnoticed (under π) where
  now _ := rfl
  backing _ := rfl
  withBacking _ _ := rfl
  record _ _ := rfl
  count _ _ := rfl
  markRefreshed _ _ := rfl

/-! ## The poller -/

section Poller

variable (r : Request) (k : Key)

theorem under_phase : (c.under π).poller.phase = c.poller.phase.under π := rfl

theorem under_registrations : (c.under π).poller.registry.requests.values =
    c.poller.registry.requests.values.map (·.under π) := Table.values_map ..

theorem under_await (p : Poller) (now : Nat) : (p.under π).await now = (p.await now).under π := by
  have hphase : (if Clock.reachable (now + p.interval) then Phase.waiting (now + p.interval)
      else Phase.crashed) = Phase.under π (if Clock.reachable (now + p.interval) then
        .waiting (now + p.interval) else .crashed) := by
    split <;> rfl
  unfold Poller.await Poller.under
  dsimp only
  rw [← hphase]

theorem under_startPoller : (c.under π).startPoller = c.startPoller.under π := by
  have hawait : (c.under π).poller.await (c.under π).now = (c.poller.await c.now).under π :=
    under_await ..
  unfold startPoller
  rw [under_phase, hawait]
  cases c.poller.phase <;> rfl

theorem under_enroll : (c.under π).enroll (r.under π) = (c.enroll r).under π := by
  have hinsert := c.poller.registry.insert_under π r
  unfold enroll
  show startPoller { c.under π with
    poller := { c.poller.under π with
      registry := (c.poller.registry.under π).insert (r.under π) } } = _
  rw [hinsert]
  exact under_startPoller π { c with
    poller := { c.poller with registry := c.poller.registry.insert r } }

theorem under_registerIfAbsent : (c.under π).registerIfAbsent (r.under π) =
    ((c.registerIfAbsent r).1, (c.registerIfAbsent r).2.under π) := by
  have hcontains : (c.under π).poller.registry.requests.contains (r.under π).key =
      c.poller.registry.requests.contains r.key := Table.contains_map ..
  unfold registerIfAbsent
  rw [hcontains, under_enroll]
  show (if c.poller.closed then _ else _) = _
  split
  · rfl
  · split <;> rfl

theorem under_register : (c.under π).register (r.under π) =
    ((c.register r).1, (c.register r).2.under π) := by
  have hfind : (c.under π).poller.registry.requests.find? (r.under π).key =
      (c.poller.registry.requests.find? r.key).map (·.under π) := Table.find?_map ..
  have hreset := (c.resetMark r.family).under_enroll π r
  unfold register
  rw [hfind, under_enroll]
  show (if c.poller.closed then _ else _) = _
  split
  · rfl
  · cases c.poller.registry.requests.find? r.key with
    | none => rfl
    | some old =>
      show (if c.poller.registry.keeps old r then _
        else (_, ((c.resetMark r.family).under π).enroll (r.under π))) = _
      rw [hreset]
      dsimp only
      split <;> rfl

theorem under_unregister :
    (c.under π).unregister k = ((c.unregister k).1, (c.unregister k).2.under π) := by
  have hcontains : (c.under π).poller.registry.requests.contains k =
      c.poller.registry.requests.contains k := Table.contains_map ..
  have herase : (c.under π).poller.registry.erase k = (c.poller.registry.erase k).under π :=
    Registry.erase_under ..
  unfold unregister
  rw [hcontains, herase]
  rfl

theorem under_resetRegistered :
    (c.under π).resetRegistered k = (c.resetRegistered k).under π := by
  have hrequest : (c.under π).poller.registry.request? k =
      (c.poller.registry.request? k).map (·.under π) := Registry.request?_under ..
  unfold resetRegistered
  rw [hrequest]
  cases c.poller.registry.request? k <;> rfl

theorem under_remove : (c.under π).remove k = ((c.remove k).1, (c.remove k).2.under π) := by
  unfold remove
  rw [under_resetRegistered, (unnoticed_under π).drop]

theorem under_resetAll : (c.under π).resetAll = c.resetAll.under π := by
  unfold resetAll
  rw [under_registrations, List.foldl_map]
  -- the marks are taken away one after the other
  generalize c.poller.registry.requests.values = regs
  induction regs generalizing c with
  | nil => rfl
  | cons reg regs ih => exact ih (c.resetMark reg.request.family)

theorem under_dueRequests : (c.under π).dueRequests = c.dueRequests.map (·.under π) := by
  unfold dueRequests
  rw [under_registrations, List.map_map, List.filter_map, List.filter_map, List.map_map]
  rfl

theorem under_beginScan? : (c.under π).beginScan? = c.beginScan?.map (·.under π) := by
  unfold beginScan?
  rw [under_phase, under_dueRequests]
  cases c.poller.phase with
  | waiting deadline =>
    show (if deadline ≤ c.now then _ else none) = Option.map _ (if deadline ≤ c.now then _ else _)
    split <;> rfl
  | _ => rfl

theorem under_scanLeft : (c.under π).scanLeft = c.scanLeft.map (·.under π) := by
  unfold scanLeft
  rw [under_phase]
  cases c.poller.phase <;> rfl

theorem under_endScan : (c.under π).endScan = c.endScan.under π := by
  have hawait := under_await π c.poller c.now
  unfold endScan
  rw [under_phase]
  cases c.poller.phase with
  | scanning due =>
    cases due with
    | nil =>
      show (if c.poller.closed then _ else
        { (c.under π).count .schedulerTicks with poller := (c.poller.under π).await c.now }) = _
      rw [hawait]
      dsimp only [count]
      split <;> rfl
    | cons q due => rfl
  | _ => rfl

theorem under_close : (c.under π).close = c.close.under π := by
  unfold close
  dsimp only
  rw [under_phase]
  show (if c.poller.closed then _ else _) = _
  split
  · rfl
  · cases c.poller.phase <;> rfl

theorem under_dispose : (c.under π).dispose = c.dispose.under π := by
  unfold dispose
  rw [under_phase, under_close]
  cases c.poller.phase <;> rfl

end Poller

/-! ## Gets and visits -/

section Gets

variable (r : Request)

theorem under_load?  (id : Nat) : (c.under π).load? id = (c.load? id).map (·.under π) := by
  have hloads : (c.under π).loads = c.loads.map (·.under π) := List.map_append.symm
  unfold load?
  rw [hloads, List.find?_map]
  rfl

theorem under_enter (stale : Option Entry) (seat : Seat) :
    (c.under π).enter (r.under π) stale seat =
      ((c.enter r stale seat).1.under π, (c.enter r stale seat).2.under π) := by
  let load (seat : Seat) : Load := ⟨c.nextLoad, r, stale, seat, c.now⟩
  -- only where the load is put must be looked at
  have hcallers (ls : List Load) (l : Load) :
      ls.map (·.under π) ++ [l.under π] = (ls ++ [l]).map (·.under π) := by simp
  have hhold (l : Load) : (c.under π).crew.hold (l.under π) =
      (c.crew.hold l).map (·.under π) (·.under π) := Crew.hold_map ..
  cases seat with
  | caller =>
    exact congrArg (fun callers => ((load .caller).under π,
      { (c.enter r stale .caller).2.under π with callers })) (hcallers c.callers (load .caller))
  | worker =>
    exact congrArg (fun crew => ((load .worker).under π,
      { (c.enter r stale .worker).2.under π with crew })) (hhold (load .worker))
  | lent byPoller =>
    exact congrArg (fun crew => ((load (.lent byPoller)).under π,
      { (c.enter r stale (.lent byPoller)).2.under π with crew })) (hhold (load (.lent byPoller)))

theorem under_offer (stale : Option Entry) (byPoller : Bool) :
    (c.under π).offer (r.under π) stale byPoller =
      ((c.offer r stale byPoller).1.under π, (c.offer r stale byPoller).2.under π) := by
  have hexecutor : (c.under π).executor = c.executor := rfl
  have hcrew : (c.under π).crew.offer ⟨r.under π, stale⟩ =
      (c.crew.offer ⟨r, stale⟩).map (·.map (·.under π) (·.under π)) :=
    Crew.offer_map (Reload.under π) (Load.under π) c.crew ⟨r, stale⟩
  unfold offer
  by_cases hin : c.inFlight.contains r.key = true
  · rw [if_pos hin, if_pos (show (c.under π).inFlight.contains (r.under π).key = true from hin)]
    rfl
  · rw [if_neg hin, if_neg (show ¬ (c.under π).inFlight.contains (r.under π).key = true from hin)]
    simp only [markInFlight, hexecutor, hcrew]
    cases c.executor with
    | inPlace =>
      have henter := under_enter π { c.markInFlight r.key with executor := .inPlace } r stale
        (.lent byPoller)
      exact congrArg (fun p : Load × Cache => (Offer.running p.1, p.2)) henter
    | _ => cases c.crew.offer ⟨r, stale⟩ <;> rfl

theorem under_nextAction : (c.under π).nextAction (r.under π) = c.nextAction r :=
  (unnoticed_under π).nextAction c r

theorem under_usable : (c.under π).usable (r.under π) = c.usable r :=
  (unnoticed_under π).usable c r

theorem under_looked : (c.under π).looked (r.under π) = (c.looked r).under π :=
  (unnoticed_under π).looked c r

/-- **A get does not look at policies.** -/
theorem under_get :
    (c.under π).get (r.under π) = ((c.get r).1.under π, (c.get r).2.under π) := by
  rw [get_eq, get_eq, under_nextAction, under_usable, under_looked]
  cases c.nextAction r with
  | serve => rfl
  | loadForCaller =>
    dsimp only
    rw [under_enter]
    rfl
  | serveAndReload =>
    dsimp only
    rw [under_offer]
    obtain ⟨o, c'⟩ := (c.looked r).offer r (c.usable r) false
    cases o <;> rfl
  | serveAndRegister =>
    dsimp only
    rw [under_registerIfAbsent]
    rfl

theorem under_pollerBusy : (c.under π).pollerBusy = c.pollerBusy := by
  unfold pollerBusy
  show (c.crew.held.map _).any _ = _
  rw [List.any_map]
  rfl

/-- The exchange is one-to-one, so a scan has a request left if it had it before. -/
theorem under_canVisit : (c.under π).canVisit (r.under π) = c.canVisit r := by
  unfold canVisit
  rw [under_scanLeft, under_pollerBusy, Bool.eq_iff_iff]
  simp [(Request.under_injective π).eq_iff]

theorem under_visited (due : List Request) :
    (c.under π).visited (due.map (·.under π)) (r.under π) = (c.visited due r).under π ∧
      (c.under π).visitFinds (due.map (·.under π)) (r.under π) = c.visitFinds due r := by
  have herase : (due.map (·.under π)).erase (r.under π) = (due.erase r).map (·.under π) :=
    (List.map_erase (Request.under_injective π) due).symm
  have hlookup := (unnoticed_under π).lookup
    { c with poller := { c.poller with phase := .scanning (due.erase r) } } r.key
  unfold visited visitFinds
  rw [herase]
  exact ⟨snd_of_under π hlookup, fst_of_under π hlookup⟩

theorem under_visit : (c.under π).visit (r.under π) =
    ((c.visit r).1.map (·.under π), (c.visit r).2.under π) := by
  cases hp : c.poller.phase with
  | scanning due =>
    have hp' : (c.under π).poller.phase = .scanning (due.map (·.under π)) :=
      congrArg (Phase.under π) hp
    obtain ⟨hv, hf⟩ := c.under_visited π r due
    rw [visit_eq hp, visit_eq hp', hv, hf, under_offer]
    obtain ⟨o, c'⟩ := (c.visited due r).offer r (c.visitFinds due r) true
    cases o <;> rfl
  | _ =>
    have hp' := congrArg (Phase.under π) hp
    unfold visit
    rw [hp, show (c.under π).poller.phase = _ from hp']
    rfl

end Gets

/-! ## Reloads and their ends -/

section Reloads

variable (l : Load)

theorem under_start? (place : Nat) : (c.under π).start? place =
    (c.start? place).map fun p => (p.1.under π, p.2.under π) := by
  have htake : (c.under π).crew.take? place = (c.crew.take? place).map fun p =>
      (p.1.under π, p.2.map (·.under π) (·.under π)) := Crew.take?_map ..
  unfold start?
  rw [htake]
  cases c.crew.take? place with
  | none => rfl
  | some p => exact congrArg some (under_enter π { c with crew := p.2 } ..)

theorem under_discard? (place : Nat) : (c.under π).discard? place =
    (c.discard? place).map fun p => (p.1.under π, p.2.under π) := by
  have hremove : (c.under π).crew.remove? place = (c.crew.remove? place).map fun p =>
      (p.1.under π, p.2.map (·.under π) (·.under π)) := Crew.remove?_map ..
  unfold discard?
  rw [hremove]
  cases c.crew.remove? place <;> rfl

theorem under_leave : (c.under π).leave l = (c.leave l).under π := by
  have hcallers : (c.under π).callers.filter (·.id != l.id) =
      (c.callers.filter (·.id != l.id)).map (·.under π) := List.filter_map
  have hcrew : (c.under π).crew.release (·.id == l.id) =
      (c.crew.release (·.id == l.id)).map (·.under π) (·.under π) :=
    Crew.release_map _ _ _ fun _ => rfl
  unfold leave
  rw [hcallers, hcrew]
  rfl

/-- The end of a load has nothing to do with the policies of others. -/
theorem under_finish_self (o : Outcome) :
    (c.under π).finish l o = ((c.finish l o).1, (c.finish l o).2.under π) := by
  have hs := (unnoticed_under π).settle (c.leave l) l o
  unfold finish
  rw [under_leave, hs]
  obtain ⟨ending, c'⟩ := (c.leave l).settle l o
  dsimp only
  cases l.seat with
  | caller => rfl
  | worker =>
    cases ending with
    | panicked text =>
      obtain ⟨_, _, _, executor, _, _, _, _, _, _, _, _, _⟩ := c'
      cases executor <;> rfl
    | _ => rfl
  | lent byPoller => cases ending <;> cases byPoller <;> rfl

/-- A load that fails finds the same in a policy as in its own. -/
def SameCell (l : Load) (p : Policy) : Outcome → Prop
  | .failure _ => p.select l.invocation l.stale.isSome = cell l
  | _ => True

variable {π l}

theorem recover_governedBy {p : Policy} (h : p.select l.invocation l.stale.isSome = cell l)
    (f : Failure) : c.recover (l.governedBy p) f = c.recover l f := by
  have hcell : cell (l.governedBy p) = cell l := h
  have hfallback : fallback (l.governedBy p) f = fallback l f := by
    unfold fallback
    rw [hcell]
    rfl
  have hfailed : c.failed (l.governedBy p) f = c.failed l f := by
    unfold failed
    rw [hcell]
    rfl
  rw [recover_eq, recover_eq, hcell, hfallback, hfailed]
  rfl

theorem settle_governedBy {p : Policy} {o : Outcome} (h : SameCell l p o) :
    c.settle (l.governedBy p) o = c.settle l o := by
  cases o with
  | value v cacheable => rfl
  | panic text => rfl
  | failure f =>
    simp only [settle]
    rw [recover_governedBy c h]

/-- **Only one cell of its policy** has to do with the end of a load, and only if it fails. -/
theorem finish_governedBy {p : Policy} {o : Outcome} (h : SameCell l p o) :
    c.finish (l.governedBy p) o = c.finish l o := by
  have hsettle := (c.leave l).settle_governedBy h
  unfold finish
  rw [show c.leave (l.governedBy p) = c.leave l from rfl, hsettle]
  rfl

theorem under_finish {o : Outcome} (h : SameCell l (l.under π).request.policy o) :
    (c.under π).finish (l.under π) o = ((c.finish l o).1, (c.finish l o).2.under π) :=
  ((c.under π).finish_governedBy h).trans (c.under_finish_self π l o)

end Reloads

/-! ## Moves and runs -/

section Runs

variable (m : Move) (ms : List Move)

/-- What an exchange of policies must leave as it is, if a move is to do the same. -/
def SameCells (π : Exchange) (c : Cache) : Move → Prop
  | .finish id o => ∀ l, c.load? id = some l → SameCell l (l.under π).request.policy o
  | _ => True

variable {m ms}

theorem under_answer (h : c.SameCells π m) :
    (c.under π).answer (m.under π) = (c.answer m).under π := by
  have hf := unnoticed_under π
  cases m with
  | get r =>
    show Answer.got ((c.under π).get (r.under π)).1 = _
    rw [under_get]
    rfl
  | peek k => exact congrArg Answer.entry (fst_of_under π (hf.lookup c k))
  | set k v ttl => exact congrArg Answer.accepted (fst_of_under π (hf.set c k v ttl))
  | setEntry k e => exact congrArg Answer.accepted (fst_of_under π (hf.setEntry c k e))
  | remove k => exact congrArg Answer.flag (fst_of_under π (c.under_remove π k))
  | schedule r => exact congrArg Answer.accepted (fst_of_under π (c.under_register π r))
  | unschedule k => exact congrArg Answer.flag (fst_of_under π (c.under_unregister π k))
  | start place =>
    show Answer.begun (((c.under π).start? place).map (·.1)) =
      .begun (((c.start? place).map (·.1)).map _)
    rw [under_start?, Option.map_map, Option.map_map]
    rfl
  | discard place =>
    show Answer.dropped (((c.under π).discard? place).map (·.1)) =
      .dropped (((c.discard? place).map (·.1)).map _)
    rw [under_discard?, Option.map_map, Option.map_map]
    rfl
  | finish id o =>
    show Answer.ended (((c.under π).load? id).map fun l => ((c.under π).finish l o).1) =
      .ended ((c.load? id).map _)
    rw [under_load?]
    cases hl : c.load? id with
    | none => rfl
    | some l =>
      exact congrArg (Answer.ended ∘ some) (fst_of_under π (c.under_finish (h l hl)))
  | visit r =>
    show Answer.begun (if (c.under π).canVisit (r.under π) then _ else none) =
      .begun ((if c.canVisit r then _ else none).map _)
    rw [under_canVisit, under_visit]
    split <;> rfl
  | tick _ | removeAll | close | dispose | beginScan | endScan | shut | purge | forecast _
  | forget => rfl

theorem under_offered? : (c.under π).offered? (m.under π) =
    (c.offered? m).map fun p => (p.1.under π, p.2.under π) := by
  cases m with
  | get r =>
    show (if (c.under π).nextAction (r.under π) = .serveAndReload then _ else none) =
      Option.map _ (if c.nextAction r = .serveAndReload then _ else none)
    rw [under_nextAction, under_looked, under_usable, under_offer]
    split <;> rfl
  | visit r =>
    obtain ⟨hv, hf⟩ := c.under_visited π r c.scanLeft
    show (if (c.under π).canVisit (r.under π) then _ else none) =
      Option.map _ (if c.canVisit r then _ else none)
    rw [under_canVisit, under_scanLeft, hv, hf, under_offer]
    split <;> rfl
  | _ => rfl

/-- **A move does the same under other policies**, unless it is the end of a failed load that
finds another cell. -/
theorem under_after (h : c.SameCells π m) :
    (c.under π).after (m.under π) = (c.after m).under π := by
  have hf := unnoticed_under π
  cases m with
  | get r =>
    show ((c.under π).get (r.under π)).2 = _
    rw [under_get]
    rfl
  | peek k => exact snd_of_under π (hf.lookup c k)
  | set k v ttl => exact snd_of_under π (hf.set c k v ttl)
  | setEntry k e => exact snd_of_under π (hf.setEntry c k e)
  | remove k => exact snd_of_under π (c.under_remove π k)
  | removeAll =>
    show (c.under π).dropAll.resetAll = _
    rw [hf.dropAll, under_resetAll]
    rfl
  | schedule r => exact snd_of_under π (c.under_register π r)
  | unschedule k => exact snd_of_under π (c.under_unregister π k)
  | close => exact c.under_close π
  | dispose => exact c.under_dispose π
  | start place =>
    show ((c.under π).start? place).elim (c.under π) (·.2) =
      ((c.start? place).elim c (·.2)).under π
    rw [under_start?]
    cases c.start? place <;> rfl
  | discard place =>
    show ((c.under π).discard? place).elim (c.under π) (·.2) =
      ((c.discard? place).elim c (·.2)).under π
    rw [under_discard?]
    cases c.discard? place <;> rfl
  | finish id o =>
    show ((c.under π).load? id).elim (c.under π) (fun l => ((c.under π).finish l o).2) =
      ((c.load? id).elim c fun l => (c.finish l o).2).under π
    rw [under_load?]
    cases hl : c.load? id with
    | none => rfl
    | some l => exact snd_of_under π (c.under_finish (h l hl))
  | beginScan =>
    show (c.under π).beginScan?.getD (c.under π) = (c.beginScan?.getD c).under π
    rw [under_beginScan?]
    cases c.beginScan? <;> rfl
  | visit r =>
    show (if (c.under π).canVisit (r.under π) then _ else _) =
      Cache.under π (if c.canVisit r then _ else _)
    rw [under_canVisit, under_visit]
    split <;> rfl
  | endScan =>
    show (if (c.under π).pollerBusy then _ else _) = Cache.under π (if c.pollerBusy then _ else _)
    rw [under_pollerBusy, under_endScan]
    split <;> rfl
  | purge => exact hf.purged c
  | _ => rfl

/-- A cache that was just built has no policies in it. -/
theorem under_of_build {b : Blueprint} {now : Nat} (h : b.build now = .ok c) : c.under π = c := by
  obtain ⟨executor, rfl⟩ := eq_of_build h
  cases executor <;> rfl

/-- **A run does the same under other policies**, move by move, if all loads that fail in it
select the same cells. -/
theorem under_run (h : Along (SameCells π) c ms) :
    (c.under π).run (ms.map (·.under π)) = (c.run ms).under π ∧
      (c.under π).shown (ms.map (·.under π)) = (c.shown ms).map fun p =>
        (p.1.under π, p.2.map fun q => (q.1.under π, q.2.under π)) := by
  induction ms generalizing c with
  | nil => exact ⟨rfl, rfl⟩
  | cons m ms ih =>
    obtain ⟨hm, hms⟩ := h
    obtain ⟨hr, hs⟩ := ih (c.after m) hms
    have ha := under_after π c hm
    constructor
    · show ((c.under π).after (m.under π)).run _ = _
      rw [ha, hr]
      rfl
    · simp only [List.map_cons, shown]
      rw [ha, hs, under_answer π c hm, under_offered?]

end Runs

end Cache
end Under
end Evergreen
