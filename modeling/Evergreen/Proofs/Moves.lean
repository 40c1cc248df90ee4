import Evergreen.Cache.Blueprint
import Evergreen.Cache.Calls
import Evergreen.Proofs.Kept

/-!
# Moves and runs

What happens to a cache happens one `Move` at a time: a call of one of its operations, a load
that its executor begins, drops or ends, a step of the poller, or something from outside (the
clock, the weather of the store). A load is two moves, so everything else may happen between
its beginning and its end; a task of the executor waits between the move that hands it over
and the move that takes it up. `Cache.after` is the cache after a move, and a run is a list of
moves in any order.

A move that cannot be made (a task that is not there, a scan that is not due, a load that has
ended) changes nothing. `Cache.Allows` says what a move must satisfy that comes from outside:
requests and entries are made by their constructors, so they are well-formed and not from the
future.

- `run_append`: a run in two parts is one after the other;
- `run_preserves`: what every move preserves, every run preserves;
- `Reachable.run`: what is reachable stays reachable;
- `along_append`, `Along.preserves`: what holds at each move of a run, and what that carries
  from its beginning to its end;
- `not_sometime_iff`, `along_of_sometime`, `run_iff_sometime`: what holds at some move of a run,
  and what comes of it.
-/

namespace Evergreen

/-- What the constructors of entries guarantee at clock reading `now`. -/
structure Entry.Built (e : Entry) (now : Nat) : Prop where
  since_le_now : e.since ≤ now
  min_le_hard : minHardTtl ≤ e.hard
  soft_le_hard : e.soft ≤ e.hard

/-- One thing that happens to a cache. -/
inductive Move where
  /-- The clock moves on. -/
  | tick (now : Nat)
  | get (r : Request)
  | peek (k : Key)
  | set (k : Key) (v : Value) (ttl : Nat)
  | setEntry (k : Key) (e : Entry)
  | remove (k : Key)
  | removeAll
  | schedule (r : Request)
  | unschedule (k : Key)
  | close
  /-- Nobody holds the cache any more; its tasks and loads go on. -/
  | dispose
  /-- A hand takes up the task at a place of the queue. -/
  | start (place : Nat)
  /-- The task at a place of the queue is dropped unrun. -/
  | discard (place : Nat)
  /-- The loader of a load comes back, or panics. -/
  | finish (id : Nat) (o : Outcome)
  | beginScan
  /-- The poller comes to one of the requests that its scan has left. -/
  | visit (r : Request)
  | endScan
  /-- The executor takes no more tasks. -/
  | shut
  /-- The store lets go of what is past its deadline. -/
  | purge
  /-- From now on calls of the store meet another forecast. -/
  | forecast (f : Forecast)
  /-- Somebody takes the events that were noted so far. -/
  | forget

namespace Cache

/-- The load under way with a number. -/
def load? (c : Cache) (id : Nat) : Option Load := c.loads.find? (·.id == id)

/-- Whether a reload runs on the poller's own thread. -/
def pollerBusy (c : Cache) : Bool := c.crew.held.any (·.seat == .lent true)

/-- Whether the poller can come to a request: its scan has it left, and its thread is free. -/
def canVisit (c : Cache) (r : Request) : Bool := c.scanLeft.contains r && !c.pollerBusy

/-- The store without what is past its deadline. -/
def purged (c : Cache) : Cache :=
  match c.backing.store.purge? c.now with
  | none => c
  | some (_, store) => { c with backing := { c.backing with store } }

/-- The cache after a move. -/
def after (c : Cache) : Move → Cache
  | .tick now => c.tick now
  | .get r => (c.get r).2
  | .peek k => (c.peek k).2
  | .set k v ttl => (c.set k v ttl).2
  | .setEntry k e => (c.setEntry k e).2
  | .remove k => (c.remove k).2
  | .removeAll => c.removeAll
  | .schedule r => (c.schedule r).2
  | .unschedule k => (c.unschedule k).2
  | .close => c.close
  | .dispose => c.dispose
  | .start place => (c.start? place).elim c (·.2)
  | .discard place => (c.discard? place).elim c (·.2)
  | .finish id o => (c.load? id).elim c fun l => (c.finish l o).2
  | .beginScan => c.beginScan?.getD c
  | .visit r => if c.canVisit r then (c.visit r).2 else c
  | .endScan => if c.pollerBusy then c else c.endScan
  | .shut => { c with crew := c.crew.shut }
  | .purge => c.purged
  | .forecast f => { c with backing := { c.backing with forecast := f } }
  | .forget => { c with journal := [] }

/-- The cache after the moves of a run. -/
def run (c : Cache) : List Move → Cache
  | [] => c
  | m :: ms => (c.after m).run ms

/-- A load is found under its own number. -/
theorem load?_self {c : Cache} {id : Nat} {l : Load} (h : c.load? id = some l) :
    l.id = id ∧ c.load? l.id = some l := by
  have hid : l.id = id := by
    have := List.find?_some h
    simpa using this
  rw [hid]
  exact ⟨rfl, h⟩

/-- The end of a load that is under way is the end of that load. -/
theorem after_finish {c : Cache} {l : Load} (h : c.load? l.id = some l) (o : Outcome) :
    c.after (.finish l.id o) = (c.finish l o).2 := by
  simp only [after, h, Option.elim_some]

/-- What a move from outside must satisfy: requests passed the checks of their drafts, and
entries were made by now. -/
def Allows (c : Cache) : Move → Prop
  | .get r | .schedule r => r.WellFormed
  | .setEntry _ e => e.Built c.now
  | _ => True

/-- Something holds at each move of a run, of the cache before it and the move. -/
def Along (P : Cache → Move → Prop) (c : Cache) : List Move → Prop
  | [] => True
  | m :: ms => P c m ∧ Along P (c.after m) ms

/-- Something holds at some move of a run, of the cache before it and the move. -/
def Sometime (P : Cache → Move → Prop) (c : Cache) : List Move → Prop
  | [] => False
  | m :: ms => P c m ∨ Sometime P (c.after m) ms

/-- A cache that was just built, over a store whose entries were made by then. -/
def Launched (c : Cache) : Prop :=
  (∃ (b : Blueprint) (now : Nat), b.build now = .ok c) ∧
    ∀ k e, c.backing.kept? k = some e → e.Built c.now

/-- A cache that some run of allowed moves leads to. -/
inductive Reachable : Cache → Prop
  | launched {c : Cache} (h : c.Launched) : Reachable c
  | after {c : Cache} {m : Move} (h : Reachable c) (hm : c.Allows m) : Reachable (c.after m)

/-! ## Caches just built -/

/-- The parts of a cache that was just built. -/
theorem eq_of_build {b : Blueprint} {now : Nat} {c : Cache} (h : b.build now = .ok c) :
    ∃ executor : Executor, c =
      { now, createdAt := now, executor, crew := executor.crew
        backing := { store := b.store.getD (Blueprint.memoryStore (4 * max b.processors 1)) }
        poller := { interval := b.pollInterval } } := by
  unfold Blueprint.build at h
  by_cases hp : b.pollInterval < minPollInterval
  · rw [if_pos hp] at h
    cases h
  · rw [if_neg hp] at h
    cases he : b.executorFor with
    | error fault =>
      rw [he] at h
      cases h
    | ok executor =>
      rw [he] at h
      cases h
      exact ⟨executor, rfl⟩

/-- A cache that was just built has nothing to do. -/
theorem tasks_of_build {b : Blueprint} {now : Nat} {c : Cache} (h : b.build now = .ok c) :
    c.crew.waiting = [] ∧ c.loads = [] := by
  obtain ⟨executor, rfl⟩ := eq_of_build h
  cases executor <;> exact ⟨rfl, rfl⟩

/-- The poller of a cache that was just built has nothing registered and has not started. -/
theorem poller_of_build {b : Blueprint} {now : Nat} {c : Cache} (h : b.build now = .ok c) :
    c.poller = { interval := b.pollInterval } := by
  obtain ⟨executor, rfl⟩ := eq_of_build h
  rfl

/-- A cache built over an empty store, or over one of its own, is launched. -/
theorem launched_of_build {b : Blueprint} {now : Nat} {c : Cache} (h : b.build now = .ok c)
    (hs : ∀ s, b.store = some s → ∀ k, s.kept? k = none) : c.Launched := by
  refine ⟨⟨b, now, h⟩, fun k e he => ?_⟩
  obtain ⟨executor, rfl⟩ := eq_of_build h
  have hk : (b.store.getD (Blueprint.memoryStore (4 * max b.processors 1))).kept? k = none := by
    cases hb : b.store with
    | none => simp [Store.kept?, Blueprint.memoryStore]
    | some s => exact hs s hb k
  rw [Backing.kept?, hk] at he
  cases he

/-! ## Runs in parts -/

@[simp] theorem run_nil (c : Cache) : c.run [] = c := rfl

@[simp] theorem run_cons (c : Cache) (m : Move) (ms : List Move) :
    c.run (m :: ms) = (c.after m).run ms := rfl

/-- A run goes on where another has come to. -/
theorem run_append (c : Cache) (ms ms' : List Move) :
    c.run (ms ++ ms') = (c.run ms).run ms' := by
  induction ms generalizing c with
  | nil => rfl
  | cons m ms ih => exact ih (c.after m)

/-- What every move preserves, every run preserves. -/
theorem run_preserves {I : Cache → Prop} (hI : ∀ c m, I c → I (c.after m)) {c : Cache}
    (hc : I c) (ms : List Move) : I (c.run ms) := by
  induction ms generalizing c with
  | nil => exact hc
  | cons m ms ih => exact ih (hI c m hc)

variable {P Q : Cache → Move → Prop}

@[simp] theorem along_nil (c : Cache) : Along P c [] := trivial

@[simp] theorem along_cons {c : Cache} {m : Move} {ms : List Move} :
    Along P c (m :: ms) ↔ P c m ∧ Along P (c.after m) ms := Iff.rfl

/-- What holds of every move holds along every run. -/
theorem along_of_forall (h : ∀ c m, P c m) (c : Cache) (ms : List Move) : Along P c ms := by
  induction ms generalizing c with
  | nil => trivial
  | cons m ms ih => exact ⟨h c m, ih (c.after m)⟩

/-- What holds along a run holds along its parts, each from where the one before has come to. -/
theorem along_append {c : Cache} {ms ms' : List Move} :
    Along P c (ms ++ ms') ↔ Along P c ms ∧ Along P (c.run ms) ms' := by
  induction ms generalizing c with
  | nil => simp
  | cons m ms ih => simp [ih, and_assoc]

/-- Along a run, less may be asked of each move. -/
theorem Along.mono {c : Cache} {ms : List Move} (h : Along P c ms)
    (hPQ : ∀ c m, P c m → Q c m) : Along Q c ms := by
  induction ms generalizing c with
  | nil => trivial
  | cons m ms ih => exact ⟨hPQ c m h.1, ih h.2⟩

/-- Along a run, two things may be asked at once. -/
theorem Along.and {c : Cache} {ms : List Move} (hP : Along P c ms) (hQ : Along Q c ms) :
    Along (fun c m => P c m ∧ Q c m) c ms := by
  induction ms generalizing c with
  | nil => trivial
  | cons m ms ih => exact ⟨⟨hP.1, hQ.1⟩, ih hP.2 hQ.2⟩

/-- What the moves of a run preserve, the run preserves. -/
theorem Along.preserves {I : Cache → Prop} (hI : ∀ c m, I c → P c m → I (c.after m))
    {c : Cache} {ms : List Move} (h : Along P c ms) (hc : I c) : I (c.run ms) := by
  induction ms generalizing c with
  | nil => exact hc
  | cons m ms ih => exact ih h.2 (hI c m hc h.1)

/-- What something that holds at some move of a run implies, each move implies that it holds
at. -/
theorem along_of_sometime {ι : Type} {P : ι → Cache → Move → Prop} {Q : ι → Prop} {c : Cache}
    {ms : List Move} (h : ∀ i, Sometime (P i) c ms → Q i) :
    Along (fun c m => ∀ i, P i c m → Q i) c ms := by
  induction ms generalizing c with
  | nil => trivial
  | cons m ms ih => exact ⟨fun i hm => h i (.inl hm), ih fun i hms => h i (.inr hms)⟩

/-- What happens in a run happens in one of its parts. -/
theorem sometime_append {c : Cache} {ms ms' : List Move} :
    Sometime P c (ms ++ ms') ↔ Sometime P c ms ∨ Sometime P (c.run ms) ms' := by
  induction ms generalizing c with
  | nil => simp [Sometime]
  | cons m ms ih => simp [Sometime, ih, or_assoc]

/-- What never happens is absent at every move. -/
theorem not_sometime_iff {c : Cache} {ms : List Move} :
    ¬ Sometime P c ms ↔ Along (fun c m => ¬ P c m) c ms := by
  induction ms generalizing c with
  | nil => simp [Sometime]
  | cons m ms ih => simp [Sometime, ih]

/-- Where only the moves matter, the run is looked through for one of them. -/
theorem sometime_iff_exists_mem {p : Move → Prop} {c : Cache} {ms : List Move} :
    Sometime (fun _ m => p m) c ms ↔ ∃ m ∈ ms, p m := by
  induction ms generalizing c with
  | nil => simp [Sometime]
  | cons m ms ih => simp [Sometime, ih]

/-- What holds after a run because it held before or something happened on the way. -/
theorem run_iff_sometime {I : Cache → Prop} (hI : ∀ c m, I (c.after m) ↔ I c ∨ P c m) {c : Cache}
    {ms : List Move} : I (c.run ms) ↔ I c ∨ Sometime P c ms := by
  induction ms generalizing c with
  | nil => simp [Sometime]
  | cons m ms ih => simp [Sometime, ih, hI, or_assoc]

/-- Something holds at some move of a run because something else does, given what every move
preserves. -/
theorem Sometime.imp {I : Cache → Prop} (hI : ∀ c m, I c → I (c.after m))
    (hPQ : ∀ c m, I c → P c m → Q c m) {c : Cache} {ms : List Move} (hc : I c)
    (h : Sometime P c ms) : Sometime Q c ms := by
  induction ms generalizing c with
  | nil => exact h
  | cons m ms ih => exact Or.imp (hPQ c m hc) (ih (hI c m hc)) h

/-- What is reachable stays so along allowed moves. -/
theorem Reachable.run {c : Cache} (h : c.Reachable) {ms : List Move}
    (hms : Along Allows c ms) : (c.run ms).Reachable :=
  hms.preserves (fun _ _ => Reachable.after) h

/-! ## A cache over a map -/

/-- A cache just built over an empty map, at time zero. -/
def overMap (executor : Executor) : Cache :=
  { now := 0, createdAt := 0, backing := { store := .plain Table.empty }, executor
    crew := executor.crew
    poller := { interval := minPollInterval, registry := { requests := Table.empty } } }

/-- The cache over a plain map can be built. -/
theorem launched_overMap (executor : Executor) : (overMap executor).Launched := by
  have hb : Blueprint.build { store := some (.plain Table.empty), executor := some executor } 0 =
      .ok (overMap executor) := rfl
  refine launched_of_build hb ?_
  rintro s hs k
  cases hs
  rfl

/-- What was just built is reachable. -/
theorem reachable_overMap (executor : Executor) : (overMap executor).Reachable :=
  .launched (launched_overMap executor)

end Cache

/-- A request that is served from what is there and reloaded in the background. -/
def profile : Request :=
  { key := "profile", hard := 10 * Clock.second, soft := Clock.second, mode := .async
    policy := {}, family := 0 }

/-- The request of the examples can be built. -/
theorem profile_wellFormed : profile.WellFormed :=
  ⟨by decide, by decide, by decide, rfl⟩

end Evergreen
