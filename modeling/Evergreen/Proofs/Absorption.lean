import Evergreen.Proofs.Alike
import Evergreen.Proofs.BackingSteps
import Evergreen.Proofs.TaskSteps

/-!
# Stores that fail

A call of the store that fails comes to the same as one that is passed over. A run over a store
that fails now and then is compared here with the run over the store that never fails and
passes over the same calls: every move answers the same, offers the same reloads, and leaves
the two caches alike.

- `Alike.answer`, `Alike.offered?`, `alike_after`: one move; `alike_run`: any number of them;
- `along_neverFails`: the store of the second run never fails;
- `store_failures_absorbed`: the two runs, from any cache and with any pattern of failures.
-/

namespace Evergreen

/-- A move after which every failing call is passed over instead. -/
def Move.absorbed : Move → Move
  | forecast f => forecast f.absorbed
  | m => m

namespace Cache

/-! ## What a move shows -/

/-- What a move answers to whoever makes it. -/
inductive Answer where
  | nothing
  | got (r : Reply)
  | entry (e : Option Entry)
  | flag (b : Bool)
  | accepted (r : Except CallFault Bool)
  /-- The load that began, if one did. -/
  | begun (l : Option Load)
  | dropped (task : Option Reload)
  | ended (e : Option Ending)
  /-- How much a purge let go of. -/
  | purged (n : Option Nat)

/-- The answer of a move. -/
def answer (c : Cache) : Move → Answer
  | .get r => .got (c.get r).1
  | .peek k => .entry (c.peek k).1
  | .set k v ttl => .accepted (c.set k v ttl).1
  | .setEntry k e => .accepted (c.setEntry k e).1
  | .remove k => .flag (c.remove k).1
  | .schedule r => .accepted (c.schedule r).1
  | .unschedule k => .flag (c.unschedule k).1
  | .start place => .begun ((c.start? place).map (·.1))
  | .discard place => .dropped ((c.discard? place).map (·.1))
  | .finish id o => .ended ((c.load? id).map fun l => (c.finish l o).1)
  | .visit r => .begun (if c.canVisit r then (c.visit r).1 else none)
  | .purge => .purged ((c.backing.store.purge? c.now).map (·.1))
  | .tick _ | .removeAll | .close | .dispose | .beginScan | .endScan | .shut | .forecast _
  | .forget => .nothing

/-- What the moves of a run show: their answers, and what comes of the reloads they offer. -/
def shown (c : Cache) : List Move → List (Answer × Option (Request × Offer))
  | [] => []
  | m :: ms => (c.answer m, c.offered? m) :: (c.after m).shown ms

/-! ## Moves and runs -/

section Runs

variable {x y : Cache}

/-- A move answers the same in alike caches. -/
theorem Alike.answer (h : Alike x y) (m : Move) : y.answer m.absorbed = x.answer m := by
  cases m with
  | get r => exact congrArg Answer.got (h.get r).fst
  | peek k => exact congrArg Answer.entry (h.lookup k).fst
  | set k v ttl => exact congrArg Answer.accepted (h.set k v ttl).fst
  | setEntry k e => exact congrArg Answer.accepted (h.setEntry k e).fst
  | remove k =>
    exact congrArg Answer.flag
      ((h.map (·.resetRegistered k) fun c => c.core_resetRegistered k).drop k).fst
  | schedule r =>
    exact congrArg Answer.accepted (h.mapPair (·.register r) fun c => c.core_register r).fst
  | unschedule k =>
    exact congrArg Answer.flag (h.mapPair (·.unschedule k) fun _ => ⟨rfl, rfl⟩).fst
  | start place => exact congrArg Answer.begun (h.start? place).1
  | discard place => exact congrArg Answer.dropped (h.discard? place).1
  | finish id o =>
    show Answer.ended ((y.load? id).map _) = Answer.ended ((x.load? id).map _)
    rw [h.load?]
    cases x.load? id with
    | none => rfl
    | some l => exact congrArg (Answer.ended ∘ some) (h.finish l o).fst
  | visit r =>
    show Answer.begun (if y.canVisit r then _ else _) = Answer.begun (if x.canVisit r then _ else _)
    rw [h.canVisit, (h.visit r).fst]
  | purge =>
    show Answer.purged ((y.backing.store.purge? y.now).map (·.1)) = _
    rw [h.store, h.now]
    rfl
  | tick _ | removeAll | close | dispose | beginScan | endScan | shut | forecast _ | forget => rfl

/-- The same comes of the reload that a move offers in alike caches. -/
theorem Alike.offered? (h : Alike x y) (m : Move) :
    y.offered? m.absorbed = x.offered? m := by
  cases m with
  | get r =>
    obtain ⟨ha, hu, hl⟩ := h.looked r
    show (if y.nextAction r = .serveAndReload then _ else _) = if x.nextAction r = _ then _ else _
    rw [ha, hu, (hl.offer r (x.usable r) false).fst]
  | visit r =>
    have hs : y.scanLeft = x.scanLeft := by simp only [scanLeft, h.poller]
    obtain ⟨hf, hv⟩ := h.visited x.scanLeft r
    show (if y.canVisit r then _ else _) = if x.canVisit r then _ else _
    rw [h.canVisit, hs, hf, (hv.offer r (x.visitFinds x.scanLeft r) true).fst]
  | _ => rfl

/-- **Alike caches stay alike** under every move. -/
theorem alike_after (h : Alike x y) (m : Move) : Alike (x.after m) (y.after m.absorbed) := by
  cases m with
  | tick now =>
    show Alike (x.tick now) (y.tick now)
    exact h.map (·.tick now) fun _ => rfl
  | get r => exact (h.get r).snd
  | peek k => exact (h.lookup k).snd
  | set k v ttl => exact (h.set k v ttl).snd
  | setEntry k e => exact (h.setEntry k e).snd
  | remove k =>
    exact ((h.map (·.resetRegistered k) fun c => c.core_resetRegistered k).drop k).snd
  | removeAll => exact h.dropAll.map resetAll core_resetAll
  | schedule r => exact (h.mapPair (·.register r) fun c => c.core_register r).snd
  | unschedule k => exact h.map (fun c => (c.unschedule k).2) fun _ => rfl
  | close => exact h.map close core_close
  | dispose => exact h.map dispose core_dispose
  | start place => exact (h.start? place).2
  | discard place => exact (h.discard? place).2
  | finish id o =>
    show Alike ((x.load? id).elim x _) ((y.load? id).elim y _)
    rw [h.load?]
    cases x.load? id with
    | none => exact h
    | some l => exact (h.finish l o).snd
  | beginScan => exact h.map (fun c => c.beginScan?.getD c) core_beginScan
  | visit r =>
    show Alike (if x.canVisit r then _ else _) (if y.canVisit r then _ else _)
    rw [h.canVisit]
    split
    · exact (h.visit r).snd
    · exact h
  | endScan =>
    show Alike (if x.pollerBusy then _ else _) (if y.pollerBusy then _ else _)
    rw [show y.pollerBusy = x.pollerBusy by simp only [pollerBusy, h.crew]]
    split
    · exact h
    · exact h.map endScan core_endScan
  | shut => exact h.map (fun c => { c with crew := c.crew.shut }) fun _ => rfl
  | purge => exact h.map purged core_purged
  | forecast f =>
    exact { h with forecast := Forecast.absorbed_absorbed f }
  | forget => exact { h with journal := rfl }

/-- **Alike caches stay alike** over a run, and show the same on the way. -/
theorem alike_run (h : Alike x y) (ms : List Move) :
    y.shown (ms.map Move.absorbed) = x.shown ms ∧
      Alike (x.run ms) (y.run (ms.map Move.absorbed)) := by
  -- both caches move on at each step, so the induction is over all pairs of alike ones
  induction ms generalizing x y with
  | nil => exact ⟨rfl, h⟩
  | cons m ms ih =>
    obtain ⟨hs, hr⟩ := ih (alike_after h m)
    refine ⟨?_, hr⟩
    simp only [List.map_cons, shown, h.answer, h.offered?, hs]

end Runs

/-! ## The store that passes over its failures -/

/-- No call of the store will fail. -/
def NeverFails (c : Cache) : Prop :=
  ∀ op n fault, c.backing.forecast op n ≠ .fail fault

/-- The cache over the store that passes over each call that would fail. -/
def absorbing (c : Cache) : Cache :=
  { c with backing := { c.backing with forecast := c.backing.forecast.absorbed } }

theorem alike_absorbing (c : Cache) : Alike c c.absorbing :=
  alike_iff_core.2 (by simp only [absorbing, core, Forecast.absorbed_absorbed])

/-- The weather that comes with an absorbed move brings no failures. -/
theorem NeverFails.after {c : Cache} (h : c.NeverFails) (m : Move) :
    (c.after m.absorbed).NeverFails := by
  unfold NeverFails
  rw [forecast_after]
  -- no other move changes the forecast
  cases m with
  | forecast f => exact f.absorbed_ne_fail
  | _ => exact h

/-- Along a run of absorbed moves the store never fails. -/
theorem along_neverFails {c : Cache} (h : c.NeverFails) (ms : List Move) :
    Along (fun c _ => c.NeverFails) c (ms.map Move.absorbed) := by
  induction ms generalizing c with
  | nil => trivial
  | cons m ms ih => exact ⟨h, ih (h.after m)⟩

/-- **Failures of the store are absorbed.** Take any run from any cache, with any pattern of
failing calls, and the same run over the store that passes over each call that would fail: a
read finds nothing, a write is declined, a removal finds nothing to remove, a clear clears
nothing. No call of that store fails. Every move answers the same in both runs and the same
comes of every reload it offers; and after both runs the caches are alike: the same is stored,
waiting, under way, registered and marked, every loader was called as often, and the counters
other than that of failures and the journals but for the failures they tell of are the same. -/
theorem store_failures_absorbed (c : Cache) (ms : List Move) :
    Along (fun c _ => c.NeverFails) c.absorbing (ms.map Move.absorbed) ∧
    c.absorbing.shown (ms.map Move.absorbed) = c.shown ms ∧
    Alike (c.run ms) (c.absorbing.run (ms.map Move.absorbed)) := by
  have hn : c.absorbing.NeverFails := fun op n fault => Forecast.absorbed_ne_fail _ op n fault
  obtain ⟨hs, hr⟩ := alike_run c.alike_absorbing ms
  exact ⟨along_neverFails hn ms, hs, hr⟩

end Cache

end Evergreen
