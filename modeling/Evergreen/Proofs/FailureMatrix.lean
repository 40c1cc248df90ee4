import Evergreen.Proofs.MarkSteps
import Evergreen.Proofs.ModeTable
import Evergreen.Proofs.OtherPolicies
import Evergreen.Proofs.WriteBacks
import Mathlib.Logic.Equiv.Basic

/-!
# The failure matrix

A load that fails selects one of the four cells of its policy, by who waits for it and by whether
it was handed a stale entry. All that comes of the failure is in that cell: what is written, what
is marked as refreshed, what the load comes to and what is noted.

- `backing_failed_of_some`, `marks_failed_of_fresh`: what a failed load writes and marks;
- `awaited_of_comesTo_failed`, `failureDropped_of_background`: to whom a failure is handed;
- `failed_loads_follow_matrix`: the whole matrix, load by load and along runs.
-/

namespace Evergreen.Cache

/-- What a failed load comes to by the fallback of its cell. -/
def Ending.byFallback (l : Load) (f : Failure) : Fallback → Ending
  | .propagate => .failed (.load l.key f)
  | .returnNone => .returned none
  | .returnStale => .returned (l.stale.map (·.value))

section Loads

variable {c : Cache} {l : Load} {f : Failure}

/-! ## What is written and marked -/

/-- Without a stale entry, or if the cell says so, nothing is written. -/
theorem carryOver?_eq_none {now : Nat} (h : l.stale = none ∨ (cell l).cache = .dontCache) :
    carryOver? l now = none := by
  unfold carryOver?
  rcases h with h | h
  · rw [h]
    rfl
  · rw [h]
    cases l.stale <;> rfl

theorem backing_failed_of_none (h : carryOver? l c.now = none) :
    (c.finish l (.failure f)).2.backing = c.backing := by
  have hr : result? l c.now (.failure f) = none := h
  rw [backing_finish, hr]

theorem backing_failed_of_some {copy : Entry} (h : carryOver? l c.now = some copy) :
    (c.finish l (.failure f)).2.backing = (c.writeLoaded l.key copy l.started).2.backing := by
  have hr : result? l c.now (.failure f) = some copy := h
  rw [backing_finish, hr]

/-- A failed load marks its family as refreshed if it has a stale entry that its cell has written
back as fresh. -/
theorem marks_failed_of_not_fresh (h : l.stale = none ∨ (cell l).cache ≠ .cacheFresh) :
    (c.finish l (.failure f)).2.marks = c.marks := by
  have hr : refreshes l (.failure f) = false := by
    rcases h with h | h
    · simp [refreshes, h]
    · simp [refreshes, h]
  funext family
  rw [marks_finish_eq, hr]
  simp

theorem marks_failed_of_fresh {e : Entry} (hs : l.stale = some e)
    (h : (cell l).cache = .cacheFresh) :
    (c.finish l (.failure f)).2.marks = (c.markRefreshed l.request.family).marks := by
  have hr : refreshes l (.failure f) = true := by simp [refreshes, hs, h]
  funext family
  rw [marks_finish_eq, marks_markRefreshed, hr]
  simp

/-! ## To whom a failure is handed -/

/-- A failed background load tells the journal what nobody else is told. -/
theorem failureDropped_of_background {fault : CallFault} (hl : l.invocation = .background)
    (h : (c.finish l (.failure f)).1 = .failed fault) :
    .failureDropped fault l.key ∈ (c.finish l (.failure f)).2.journal := by
  rw [finish_fst] at h
  revert h
  unfold finish
  obtain ⟨ending, c'⟩ := (c.leave l).settle l (.failure f)
  rintro rfl
  cases hseat : l.seat with
  | caller => simp [Load.invocation, hseat, Seat.invocation] at hl
  | worker => exact .head _
  | lent byPoller =>
    cases byPoller with
    | false => exact .head _
    | true => exact .tail _ (.head _)

/-- **A get comes to a failure** only if it waits for a load of its own that does. -/
theorem awaited_of_comesTo_failed {r : Request} {ending : Ending} {fault : CallFault}
    (h : (c.get r).1.comesTo ending = .failed fault) :
    ∃ l, (c.get r).1 = .loading l ∧ l.invocation = .sync ∧ ending = .failed fault := by
  revert h
  rw [get_eq]
  cases c.nextAction r with
  | serve => exact nofun
  | serveAndRegister => exact nofun
  | loadForCaller => exact fun h => ⟨_, rfl, rfl, h⟩
  | serveAndReload =>
    -- also where the executor runs the reload on the caller's thread
    dsimp only
    obtain ⟨_ | l, c'⟩ := (c.looked r).offer r (c.usable r) false
    · exact nofun
    · cases ending <;> exact nofun

end Loads

/-- **A failed load does what one cell of its policy says.** In whatever state a cache and its
store are:

1. a load that fails comes to the same end, and leaves the same behind, under every policy with
   the same in the cell that it selects;
2. so does every run in which the policies of all requests are exchanged for others, if each load
   that fails in it finds the same in its cell: it shows the same move by move, and leaves the
   cache behind that differs in the policies alone. It begins in the same cache, if that was just
   built;
3. without a stale entry nothing is written and no mark is set, whatever the cell says;
4. with one, the cell decides: nothing is written; or the one copy of the stale value that is made
   now, with the hard lifetime of the request, goes through the guard of loads and to the store.
   It is stale at once and no mark is set, or lives as freshly loaded and the family is marked as
   refreshed, also if the guard or the store turns the copy down;
5. the load comes to a failure, to nothing or to the stale value, as the cell says;
6. the failure of a background load is dropped, and leaves the poller as it is. A caller is handed
   the failure of a load that it waits for, and of no other. -/
theorem failed_loads_follow_matrix (c : Cache) :
    (∀ (l : Load) (p : Policy) (f : Failure),
      p.select l.invocation l.stale.isSome = cell l →
      c.finish (l.governedBy p) (.failure f) = c.finish l (.failure f)) ∧
    (∀ (π : Exchange) (ms : List Move), Along (SameCells π) c ms →
      (c.under π).run (ms.map (·.under π)) = (c.run ms).under π ∧
      (c.under π).shown (ms.map (·.under π)) = (c.shown ms).map (fun p =>
        (p.1.under π, p.2.map fun q => (q.1.under π, q.2.under π))) ∧
      (c.Launched → c.under π = c)) ∧
    (∀ (l : Load) (f : Failure), l.stale = none →
      (c.finish l (.failure f)).2.backing = c.backing ∧
      (c.finish l (.failure f)).2.marks = c.marks) ∧
    (∀ (l : Load) (f : Failure) (e : Entry), l.stale = some e →
      ((cell l).cache = .dontCache →
        (c.finish l (.failure f)).2.backing = c.backing ∧
        (c.finish l (.failure f)).2.marks = c.marks) ∧
      ((cell l).cache = .cacheExpired →
        (c.finish l (.failure f)).2.backing =
          (c.writeLoaded l.key ⟨e.value, c.now, l.request.hard, 0, true⟩ l.started).2.backing ∧
        (c.finish l (.failure f)).2.marks = c.marks) ∧
      ((cell l).cache = .cacheFresh →
        (c.finish l (.failure f)).2.backing =
          (c.writeLoaded l.key ⟨e.value, c.now, l.request.hard, l.request.soft, true⟩
            l.started).2.backing ∧
        (c.finish l (.failure f)).2.marks = (c.markRefreshed l.request.family).marks)) ∧
    (∀ (l : Load) (f : Failure),
      (c.finish l (.failure f)).1 = .byFallback l f (cell l).fallback) ∧
    (∀ (l : Load) (f : Failure), l.invocation = .background →
      (c.finish l (.failure f)).2.poller = c.poller ∧
      ∀ fault, (c.finish l (.failure f)).1 = .failed fault →
        .failureDropped fault l.key ∈ (c.finish l (.failure f)).2.journal) ∧
    ∀ (r : Request) (ending : Ending) (fault : CallFault),
      (c.get r).1.comesTo ending = .failed fault →
      ∃ l, (c.get r).1 = .loading l ∧ l.invocation = .sync ∧ ending = .failed fault := by
  refine ⟨fun l p f h => c.finish_governedBy h, fun π ms h => ?_, fun l f hs => ⟨?_, ?_⟩,
    fun l f e hs => ⟨fun hcell => ⟨?_, ?_⟩, fun hcell => ⟨?_, ?_⟩, fun hcell => ⟨?_, ?_⟩⟩,
    fun l f => ?_, fun l f hl => ⟨?_, fun fault h => failureDropped_of_background hl h⟩,
    fun r ending fault h => awaited_of_comesTo_failed h⟩
  · obtain ⟨hrun, hshown⟩ := c.under_run π h
    refine ⟨hrun, hshown, ?_⟩
    rintro ⟨⟨b, now, hb⟩, -⟩
    exact c.under_of_build π hb
  · exact backing_failed_of_none (carryOver?_eq_none (.inl hs))
  · exact marks_failed_of_not_fresh (.inl hs)
  · exact backing_failed_of_none (carryOver?_eq_none (.inr hcell))
  · exact marks_failed_of_not_fresh (.inr (by rw [hcell]; decide))
  · exact backing_failed_of_some (carryOver?_eq_some_iff.2 ⟨e, hs, .inl ⟨hcell, rfl⟩⟩)
  · exact marks_failed_of_not_fresh (.inr (by rw [hcell]; decide))
  · exact backing_failed_of_some (carryOver?_eq_some_iff.2 ⟨e, hs, .inr ⟨hcell, rfl⟩⟩)
  · exact marks_failed_of_fresh hs hcell
  · rw [finish_failure_fst, fallback]
    cases (cell l).fallback <;> rfl
  · rw [poller_finish, if_neg (by simp [takesDown])]

/-- Other cells than that of the reload of the old entry are exchanged. -/
def reserved : Exchange := fun _ =>
  Equiv.swap (clinging .returning).policy
    { syncMissing := ⟨.fullStack, .returnNone, .dontCache⟩
      syncExpired := ⟨.fullStack, .propagate, .cacheFresh⟩
      backgroundMissing := ⟨.none, .propagate, .cacheExpired⟩
      backgroundExpired := ⟨.none, .returnStale, .cacheExpired⟩ }

/-- The reload of the old entry fails, and all the other cells could be different. -/
theorem failed_loads_follow_matrix_reserved :
    (overMap (.byHand none)).run (failedReload.map (·.under reserved)) =
      ((overMap (.byHand none)).run failedReload).under reserved := by
  have hsame : Along (SameCells reserved) (overMap (.byHand none)) failedReload := by
    refine ⟨trivial, trivial, trivial, trivial, ?_, trivial⟩
    have hload : ((overMap (.byHand none)).run (queueReload ++ [.start 0])).load? 0 =
        some (reload (2 * Clock.second)) := rfl
    intro l hl
    cases hload.symm.trans hl
    show _ = _
    decide
  obtain ⟨-, hruns, -⟩ := failed_loads_follow_matrix (overMap (.byHand none))
  obtain ⟨hrun, -, hbuilt⟩ := hruns reserved failedReload hsame
  rw [hbuilt (launched_overMap _)] at hrun
  exact hrun

end Evergreen.Cache
