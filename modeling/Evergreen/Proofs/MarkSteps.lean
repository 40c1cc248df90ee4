import Evergreen.Proofs.KeptSteps

/-!
# What a move does to the refresh marks

The mark of a family says when it was last refreshed. `MarkStep c m f` lists all that a single
move can make of it, and `markStep_after` says that the list is complete: the mark is set to now
by a load of the family that has a value, or fails and writes its stale value back as fresh, and
is taken away by whatever makes the registered request of the family due.

- `marks_finish_eq`: the end of a load says which of its marks it sets, and to what;
- `Resets`: what makes a registered request due.
-/

namespace Evergreen.Cache

/-! ## The end of a load -/

/-- What the mark of a family is set to now. -/
def markNow (c : Cache) : Nat := max 1 (Clock.wrap c.now)

/-- Whether the end of a load refreshes its family: it has a value, or writes its stale value
back as fresh, accepted or not. -/
def refreshes (l : Load) : Outcome → Bool
  | .value .. => true
  | .failure _ => l.stale.isSome && (cell l).cache == .cacheFresh
  | .panic _ => false

section Loads

variable (c : Cache)

/-- To mark a family as refreshed sets its mark to the time, and no other. -/
theorem marks_markRefreshed (family f : Nat) :
    (c.markRefreshed family).marks f = if f = family then some c.markNow else c.marks f := rfl

/-- The mark that would be set depends on the clock alone. -/
theorem markNow_congr {c c' : Cache} (h : c'.now = c.now) : c'.markNow = c.markNow := by
  unfold markNow
  rw [h]

/-- A write and a mark. -/
theorem marks_writeLoaded_markRefreshed (k : Key) (e : Entry) (started family f : Nat) :
    ((c.writeLoaded k e started).2.markRefreshed family).marks f =
      if f = family then some c.markNow else c.marks f := by
  have hs := c.storeOnly_writeLoaded k e started
  rw [marks_markRefreshed, markNow_congr hs.now, hs.marks]

/-- The end of a load as such sets the mark of its family, or none. -/
theorem marks_settle (l : Load) (o : Outcome) (f : Nat) :
    (c.settle l o).2.marks f =
      if refreshes l o = true ∧ f = l.request.family then some c.markNow else c.marks f := by
  cases o with
  | value v cacheable =>
    simp only [refreshes, true_and]
    cases cacheable with
    | false => rfl
    | true => exact c.marks_writeLoaded_markRefreshed ..
  | failure failure =>
    have hm := (c.storeOnly_failed l failure).marks
    have hn := markNow_congr (c.storeOnly_failed l failure).now
    rw [settle_failure, recover_eq]
    cases he : l.stale with
    | none => simp [refreshes, he, hm]
    | some e =>
      dsimp only
      unfold writeBack
      cases hc : (cell l).cache with
      | dontCache => simp [refreshes, hc, hm]
      | cacheExpired => simp [refreshes, hc, (storeOnly_writeLoaded ..).marks, hm]
      | cacheFresh => simp [refreshes, he, hc, marks_writeLoaded_markRefreshed, hn, hm]
  | panic text => simp [refreshes, settle]

/-- **What the end of a load does to the marks.** -/
theorem marks_finish_eq (l : Load) (o : Outcome) (f : Nat) :
    (c.finish l o).2.marks f =
      if refreshes l o = true ∧ f = l.request.family then some c.markNow else c.marks f := by
  rw [(c.ended_finish l o).marks]
  exact (c.leave l).marks_settle l o f

end Loads

/-! ## Steps -/

/-- A move makes a registered request due: its entry is removed, or it takes the place of
another request of its key. -/
inductive Resets (c : Cache) (q : Request) : Move → Prop
  | removed (k : Key) (h : c.poller.registry.request? k = some q) : Resets c q (.remove k)
  | removedAll (k : Key) (h : c.poller.registry.request? k = some q) : Resets c q .removeAll
  | replaces (old : Registration) (isOpen : c.poller.closed = false)
      (h : c.poller.registry.requests.find? q.key = some old)
      (changes : c.poller.registry.keeps old q = false) : Resets c q (.schedule q)

/-- What a move makes of the mark of a family. -/
inductive MarkStep (c : Cache) (m : Move) (f : Nat) : Option Nat → Prop
  | same : MarkStep c m f (c.marks f)
  | refreshed (l : Load) (o : Outcome) (hl : c.load? l.id = some l) (hm : m = .finish l.id o)
      (ho : refreshes l o = true) (hf : f = l.request.family) : MarkStep c m f (some c.markNow)
  | reset (q : Request) (h : Resets c q m) (hf : f = q.family) : MarkStep c m f none

section Steps

variable {c : Cache} {m : Move} {f : Nat}

/-- A mark may stay as it is. -/
theorem MarkStep.of_eq {mark : Option Nat} (h : mark = c.marks f) : MarkStep c m f mark := by
  rw [h]
  exact .same

/-- A get sets no mark, though it may begin a load that will. -/
theorem marks_get (c : Cache) (r : Request) : (c.get r).2.marks = c.marks := by
  have hl := (c.storeOnly_looked r).marks
  rw [get_snd]
  cases c.nextAction r with
  | serve => exact hl
  | loadForCaller => exact (tasksOnly_enter ..).marks.trans hl
  | serveAndReload => exact (tasksOnly_offer ..).marks.trans hl
  | serveAndRegister => exact (pollerOnly_registerIfAbsent ..).marks.trans hl

/-- A visit sets no mark: what it offers has not been loaded yet. -/
theorem marks_visit (c : Cache) (r : Request) : (c.visit r).2.marks = c.marks := by
  cases hp : c.poller.phase with
  | scanning due =>
    have hl : (c.visited due r).marks = c.marks := (storeOnly_lookup ..).marks
    exact (tasksOnly_visit hp r).marks.trans hl
  | _ => simp [visit, hp]

/-- A reset takes the mark of its request away. -/
theorem markStep_resetMark {q : Request} (h : Resets c q m) {c' : Cache}
    (hm : c'.marks = (c.resetMark q.family).marks) : MarkStep c m f (c'.marks f) := by
  rw [hm]
  show MarkStep c m f (if f = q.family then none else c.marks f)
  split
  · rename_i hf
    exact .reset q h hf
  · exact .same

/-- A registration takes a mark away only where one request takes the place of another. -/
theorem markStep_schedule (c : Cache) (r : Request) :
    MarkStep c (.schedule r) f ((c.schedule r).2.marks f) := by
  unfold schedule register
  split
  · exact .same
  · rename_i hopen
    cases hf : c.poller.registry.requests.find? r.key with
    | none => exact .of_eq (congrFun (c.pollerOnly_enroll r).marks f)
    | some old =>
      dsimp only
      split
      · exact .same
      · rename_i hkeeps
        exact markStep_resetMark (.replaces old (by simpa using hopen) hf (by simpa using hkeeps))
          (pollerOnly_enroll ..).marks

/-- A removal takes the mark of what is registered under its key. -/
theorem markStep_remove (c : Cache) (k : Key) :
    MarkStep c (.remove k) f ((c.remove k).2.marks f) := by
  show MarkStep c (.remove k) f (((c.resetRegistered k).drop k).2.marks f)
  rw [(storeOnly_drop _ k).marks]
  unfold resetRegistered
  cases hr : c.poller.registry.request? k with
  | none => exact .same
  | some q => exact markStep_resetMark (.removed k hr) rfl

/-- The removal of everything takes the marks of all that is registered. -/
theorem markStep_removeAll (c : Cache) :
    MarkStep c .removeAll f (c.removeAll.marks f) := by
  have hs := c.storeOnly_dropAll
  unfold removeAll resetAll
  rw [hs.poller]
  -- what is left to reset is part of what is registered, and what is reset so far is a step
  have hregs : ∀ reg ∈ c.poller.registry.requests.values, Resets c reg.request .removeAll := by
    intro reg hreg
    obtain ⟨⟨k, reg'⟩, hp, rfl⟩ := List.mem_map.1 hreg
    refine .removedAll k ?_
    rw [Registry.request?, Table.find?_eq_some_iff.2 hp]
    rfl
  have hstart : MarkStep c .removeAll f (c.dropAll.marks f) := .of_eq (congrFun hs.marks f)
  generalize c.poller.registry.requests.values = regs at hregs
  generalize c.dropAll = c' at hstart
  induction regs generalizing c' with
  | nil => exact hstart
  | cons reg regs ih =>
    refine ih (fun reg' h => hregs reg' (.tail _ h)) (c'.resetMark reg.request.family) ?_
    show MarkStep c .removeAll f (if f = reg.request.family then none else c'.marks f)
    split
    · rename_i hf
      exact .reset reg.request (hregs reg (.head _)) hf
    · exact hstart

end Steps

/-- **Every move is a step of every mark.** -/
theorem markStep_after (c : Cache) (m : Move) (f : Nat) : MarkStep c m f ((c.after m).marks f) := by
  have same {m : Move} {c' : Cache} (h : c'.marks = c.marks) : MarkStep c m f (c'.marks f) :=
    .of_eq (congrFun h f)
  cases m with
  | get r => exact same (c.marks_get r)
  | peek k => exact same (c.storeOnly_peek k).marks
  | set k v ttl => exact same (c.storeOnly_set k v ttl).marks
  | setEntry k e => exact same (c.storeOnly_setEntry k e).marks
  | remove k => exact c.markStep_remove k
  | removeAll => exact c.markStep_removeAll
  | schedule r => exact c.markStep_schedule r
  | close => exact same c.pollerOnly_close.marks
  | dispose => exact same c.pollerOnly_dispose.marks
  | start place => exact same (c.tasksOnly_start place).marks
  | discard place => exact same (c.tasksOnly_discard place).marks
  | finish id o =>
    rcases c.after_finish_eq_or id o with h | ⟨l, rfl, hl, h⟩
    · rw [h]
      exact .same
    · rw [h, marks_finish_eq]
      split
      · rename_i ho
        exact .refreshed l o hl rfl ho.1 ho.2
      · exact .same
  | beginScan => exact same c.pollerOnly_beginScan.marks
  | visit r =>
    refine same ?_
    simp only [after]
    split
    · exact c.marks_visit r
    · rfl
  | endScan => exact same c.pollerOnly_after_endScan.marks
  | purge => exact same c.storeOnly_purged.marks
  | tick _ | unschedule _ | shut | forecast _ | forget => exact .same

end Evergreen.Cache
