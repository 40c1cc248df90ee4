import Evergreen.Proofs.KeptSteps
import Evergreen.Proofs.TaskSteps

/-!
# Times

The clock never goes back, and everything is dated when it happens: an entry when it is made, a
load when its loader is called. So nothing bears a date from the future (`Punctual`), in every
cache that can be reached.
-/

namespace Evergreen.Cache

/-! ## The clock -/

/-- A get takes no time. -/
theorem now_get (c : Cache) (r : Request) : (c.get r).2.now = c.now :=
  (c.sameStore_get r).now.trans (c.storeOnly_looked r).now

/-- A visit takes no time. -/
theorem now_visit (c : Cache) (r : Request) : (c.visit r).2.now = c.now := by
  cases hp : c.poller.phase with
  | scanning due =>
    have h : (c.visited due r).now = c.now := (storeOnly_lookup ..).now
    exact (tasksOnly_visit hp r).now.trans h
  | _ => simp [visit, hp]

/-- **Nothing but a tick moves the clock.** -/
theorem now_after (c : Cache) (m : Move) :
    (c.after m).now = match m with
      | .tick now => max c.now now
      | _ => c.now := by
  cases m with
  | tick now => rfl
  | get r => exact c.now_get r
  | peek k => exact (c.storeOnly_peek k).now
  | set k v ttl => exact (c.storeOnly_set k v ttl).now
  | setEntry k e => exact (c.storeOnly_setEntry k e).now
  | remove k => exact (storeOnly_drop ..).now.trans (c.sameStore_resetRegistered k).now
  | removeAll => exact (sameStore_resetAll _).now.trans c.storeOnly_dropAll.now
  | schedule r => exact (c.sameStore_schedule r).now
  | unschedule k => rfl
  | close => exact c.pollerOnly_close.now
  | dispose => exact c.pollerOnly_dispose.now
  | start place => exact (c.tasksOnly_start place).now
  | discard place => exact (c.tasksOnly_discard place).now
  | finish id o =>
    rcases c.after_finish_eq_or id o with h | ⟨l, -, -, h⟩
    · rw [h]
    · rw [h]
      exact c.now_finish l o
  | beginScan => exact c.pollerOnly_beginScan.now
  | visit r =>
    simp only [after]
    split
    · exact c.now_visit r
    · rfl
  | endScan => exact c.pollerOnly_after_endScan.now
  | shut => rfl
  | purge => exact c.storeOnly_purged.now
  | forecast f => rfl
  | forget => rfl

/-- A move that is not a tick leaves the clock where it stands. -/
theorem now_after_eq_or (c : Cache) (m : Move) :
    (c.after m).now = c.now ∨ ∃ now, m = .tick now := by
  rw [now_after]
  cases m with
  | tick now => exact .inr ⟨now, rfl⟩
  | _ => exact .inl rfl

/-- The clock never goes back. -/
theorem now_le_after (c : Cache) (m : Move) : c.now ≤ (c.after m).now := by
  rw [now_after]
  cases m with
  | tick now => exact Nat.le_max_left ..
  | _ => exact Nat.le_refl _

/-- Along a run the clock does not go back. -/
theorem now_le_run (c : Cache) (ms : List Move) : c.now ≤ (c.run ms).now :=
  run_preserves (I := fun c' => c.now ≤ c'.now)
    (fun c' m h => Nat.le_trans h (c'.now_le_after m)) (Nat.le_refl _) ms

/-! ## Dates -/

/-- Nothing bears a date from the future. -/
structure Punctual (c : Cache) : Prop where
  kept : ∀ k e, c.backing.kept? k = some e → e.since ≤ c.now
  started : ∀ l ∈ c.loads, l.started ≤ c.now

/-- In a cache that was just built nothing has begun or been made. -/
theorem punctual_of_launched {c : Cache} (h : c.Launched) : c.Punctual := by
  obtain ⟨⟨b, now, hb⟩, hk⟩ := h
  have hloads := (tasks_of_build hb).2
  refine ⟨fun k e he => (hk k e he).since_le_now, ?_⟩
  intro l hl
  rw [hloads] at hl
  cases hl

/-- Everything is dated when it happens. -/
theorem Punctual.after {c : Cache} {m : Move} (h : c.Punctual) (hm : c.Allows m) :
    (c.after m).Punctual := by
  have hn := c.now_le_after m
  constructor
  · intro k e he
    -- what is kept was kept before, or was made with this very move
    have hs := c.keptStep_after m k
    generalize (c.after m).backing.kept? k = found at he hs
    cases hs with
    | same => exact Nat.le_trans (h.kept k e he) hn
    | gone why => cases he
    | set v ttl _ =>
      cases he
      exact hn
    | setEntry e' hset =>
      cases he
      subst hset
      exact Nat.le_trans (Entry.Built.since_le_now hm) hn
    | ended l o e' _ _ _ hr _ =>
      cases he
      rw [since_of_result? hr]
      exact hn
  · intro l hl
    -- a load that begins with the move is dated by the clock before it
    rcases mem_loads_after hl with hl | ⟨hl, -, -⟩
    · exact Nat.le_trans (h.started l hl) hn
    · omega

/-- Nothing that is in a cache is from the future. -/
theorem punctual_of_reachable {c : Cache} (h : c.Reachable) : c.Punctual := by
  induction h with
  | launched h => exact punctual_of_launched h
  | after _ hm ih => exact ih.after hm

end Evergreen.Cache
