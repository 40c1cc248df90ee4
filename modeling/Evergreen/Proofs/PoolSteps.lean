import Mathlib.Data.List.Perm.Basic
import Evergreen.WorkerPool.Session

/-!
# What can happen to a worker pool

Jobs are handed over, gates are opened, the pool is shut down, an idle worker takes the next job,
and the worker of a held job goes on: one `Act` at a time and in any order, while the pool itself
always lets the first job go on that can. `ActStep` lists all that an act can make of a pool, and
`actStep_after` says that the list is complete. What the workers do of it is `Works`.

- `step?_eq_none_iff`: the pool is settled when no held job can go on and no job can be taken;
- `Works.movesLeft_lt`: whatever a worker does, there is less left to do;
- `settled_iff`: it is settled when there is nothing that a worker can do;
- `length_le_movesLeft`: so the workers come to rest, whichever of them goes on first;
- `settled_settle`, `settle_eq_through`: and so the pool settles, by acts of its workers;
- `Session.step_pool`, `Session.pool_after`: a session is made of acts;
- `Session.run_append_singleton`: and reports on them as it comes to them.
-/

namespace Evergreen

/-- An item at a place of a list, and the list without it. -/
theorem cons_eraseIdx_perm {α : Type} {xs : List α} {i : Nat} {x : α} (h : xs[i]? = some x) :
    (x :: xs.eraseIdx i).Perm xs := by
  obtain ⟨hi, rfl⟩ := List.getElem?_eq_some_iff.1 h
  exact List.getElem_cons_eraseIdx_perm hi

namespace Crew

variable {τ η : Type}

/-- The first task of a queue can be taken up by a free hand. -/
theorem take?_zero (c : Crew τ η) : c.take? 0 = match c.waiting with
    | [] => none
    | t :: rest => if c.idle then some (t, { c with waiting := rest }) else none := by
  unfold take? remove?
  cases c.waiting <;> cases c.idle <;> simp

theorem take?_zero_eq_none_iff {c : Crew τ η} :
    c.take? 0 = none ↔ c.waiting = [] ∨ c.idle = false := by
  rw [take?_zero]
  cases c.waiting <;> cases c.idle <;> simp

end Crew

namespace WorkerPool

/-! ## Acts -/

/-- One thing that happens to a pool. -/
inductive Act where
  | submit (job : Job)
  | openGate (name : String)
  | openAll
  /-- The pool is shut down from outside, or let go of. -/
  | shut
  /-- An idle worker takes the next job. -/
  | take
  /-- The worker of the held job at a place goes on. -/
  | go (place : Nat)

/-- A worker does it, of its own accord. -/
def Act.byWorker : Act → Bool
  | take | go _ => true
  | _ => false

/-- The pool after an act; one that cannot be done changes nothing. -/
def after (p : WorkerPool) : Act → WorkerPool
  | .submit j => (p.submit j).toOption.getD p
  | .openGate name => p.openGate name
  | .openAll => { p with gates := p.gates.allOpened }
  | .shut => p.shut
  | .take =>
    (p.crew.take? 0).elim p fun (job, crew) => { p with crew := crew.hold ⟨job, false⟩ }
  | .go place => p.crew.held[place]?.elim p fun h => if p.canMove h then p.move place h else p

/-- The pool after any number of acts. -/
def through (p : WorkerPool) : List Act → WorkerPool
  | [] => p
  | a :: acts => (p.after a).through acts

/-- The job that the pool accepts with an act, if any. -/
def accepts (p : WorkerPool) : Act → List Job
  | .submit j => if (p.submit j).toBool then [j] else []
  | _ => []

/-- Whether an act shuts the pool down: from outside, or because a job that does so goes on. -/
def shuts (p : WorkerPool) : Act → Bool
  | .shut => true
  | .go place => p.crew.held[place]?.any fun h => p.canMove h && (h.job.closes && !h.joining)
  | _ => false

/-- The jobs that the pool accepts with any number of acts, in this order. -/
def accepted (p : WorkerPool) : List Act → List Job
  | [] => []
  | a :: acts => p.accepts a ++ (p.after a).accepted acts

/-- Whether one of the acts shuts the pool down. -/
def wasShut (p : WorkerPool) : List Act → Bool
  | [] => false
  | a :: acts => p.shuts a || (p.after a).wasShut acts

/-! ## Steps -/

/-- What a worker can do, and whether it shuts the pool down. -/
inductive Works (p : WorkerPool) : Bool → WorkerPool → Prop
  /-- It takes the next job. -/
  | taken (j : Job) (rest : List Job) (waits : p.crew.waiting = j :: rest)
    (idle : p.crew.idle = true) :
    Works p false { p with
      crew := { p.crew with waiting := rest, held := p.crew.held ++ [⟨j, false⟩] } }
  /-- Its job shuts the pool down, and waits for the others. -/
  | joins (place : Nat) (h : HeldJob) (held : p.crew.held[place]? = some h)
    (can : p.canMove h = true) (closes : h.job.closes = true) (notYet : h.joining = false)
    (first : p.unjoined ≠ 0) :
    Works p true { p.shut with
      crew := { p.shut.crew with held := p.crew.held.set place ⟨h.job, true⟩ } }
  /-- Its job shuts the pool down, which somebody has done before, and ends. -/
  | closes (place : Nat) (h : HeldJob) (held : p.crew.held[place]? = some h)
    (can : p.canMove h = true) (closes : h.job.closes = true) (notYet : h.joining = false)
    (late : p.unjoined = 0) : Works p true (p.shut.finish place h)
  /-- Its job ends. -/
  | ends (place : Nat) (h : HeldJob) (held : p.crew.held[place]? = some h)
    (can : p.canMove h = true) (closed : (h.job.closes && !h.joining) = false) :
    Works p false (p.finish place h)

/-- What an act makes of a pool, with the jobs that it accepts and whether it is shut down. -/
inductive ActStep (p : WorkerPool) : List Job → Bool → WorkerPool → Prop
  | same : ActStep p [] false p
  | queued (j : Job) (isOpen : p.crew.refusal = none) (room : p.crew.full = false) :
    ActStep p [j] false { p with crew := { p.crew with waiting := p.crew.waiting ++ [j] } }
  | opened (gates : Gates) : ActStep p [] false { p with gates }
  | shut : ActStep p [] true p.shut
  | worked {shuts : Bool} {p' : WorkerPool} (h : Works p shuts p') : ActStep p [] shuts p'

section Steps

variable {p p' : WorkerPool} {j : Job} {why : Refusal}

/-- The crew decides what becomes of a job that is handed over. -/
theorem submit_eq (p : WorkerPool) (j : Job) : p.submit j = match p.crew.offer j with
    | .ok crew => .ok { p with crew }
    | .error why => .error why := by
  unfold submit
  cases p.crew.offer j <;> rfl

theorem submit_eq_error_iff : p.submit j = .error why ↔ p.crew.offer j = .error why := by
  rw [submit_eq]
  cases p.crew.offer j <;> simp

/-- A worker that goes on does what its job says. -/
theorem works_move {place : Nat} {h : HeldJob} (held : p.crew.held[place]? = some h)
    (can : p.canMove h = true) : Works p (h.job.closes && !h.joining) (p.move place h) := by
  unfold move
  cases hc : h.job.closes && !h.joining with
  | false => exact .ends place h held can hc
  | true =>
    simp only [Bool.and_eq_true, Bool.not_eq_true'] at hc
    by_cases hfirst : p.unjoined = 0
    · have hlate : (p.unjoined != 0) = false := by simpa using hfirst
      simp only [hlate, if_true, Bool.false_eq_true, if_false]
      exact .closes place h held can hc.1 hc.2 hfirst
    · have hnow : (p.unjoined != 0) = true := by simpa using hfirst
      simp only [hnow, if_true]
      exact .joins place h held can hc.1 hc.2 hfirst

/-- A worker that takes a job takes the first. -/
theorem works_take {job : Job} {crew : Crew Job HeldJob} (h : p.crew.take? 0 = some (job, crew)) :
    Works p false { p with crew := crew.hold ⟨job, false⟩ } := by
  rw [Crew.take?_zero] at h
  cases hw : p.crew.waiting with
  | nil =>
    rw [hw] at h
    cases h
  | cons j rest =>
    simp only [hw, Option.ite_none_right_eq_some, Option.some.injEq, Prod.mk.injEq] at h
    obtain ⟨hidle, rfl, rfl⟩ := h
    exact .taken j rest hw hidle

/-- A worker that does something does one of these things. -/
theorem after_eq_or_works {a : Act} (ha : a.byWorker = true) :
    p.after a = p ∧ p.shuts a = false ∨ Works p (p.shuts a) (p.after a) := by
  cases a with
  | take =>
    simp only [after, shuts]
    cases h : p.crew.take? 0 with
    | none => exact .inl ⟨rfl, trivial⟩
    | some pair => exact .inr (works_take h)
  | go place =>
    simp only [after, shuts]
    cases h : p.crew.held[place]? with
    | none => exact .inl ⟨rfl, rfl⟩
    | some held =>
      simp only [Option.elim_some, Option.any_some]
      cases hcan : p.canMove held with
      | false => exact .inl ⟨rfl, rfl⟩
      | true => exact .inr (works_move h hcan)
  | _ => cases ha

/-- **Every act is one of these steps.** -/
theorem actStep_after (p : WorkerPool) (a : Act) :
    ActStep p (p.accepts a) (p.shuts a) (p.after a) := by
  cases a with
  | submit j =>
    simp only [after, accepts, shuts, submit_eq]
    cases h : p.crew.offer j with
    | error why => exact .same
    | ok crew =>
      obtain ⟨hopen, hroom, rfl⟩ := Crew.offer_eq_ok_iff.1 h
      exact .queued j hopen hroom
  | openGate name => exact .opened _
  | openAll => exact .opened _
  | shut => exact .shut
  | take =>
    rcases p.after_eq_or_works (a := .take) rfl with ⟨h, hs⟩ | h
    · rw [h, hs]
      exact .same
    · exact .worked h
  | go place =>
    rcases p.after_eq_or_works (a := .go place) rfl with ⟨h, hs⟩ | h
    · rw [h, hs]
      exact .same
    · exact .worked h

end Steps

/-! ## Settling -/

/-- No held job can go on, and no worker can take a job. -/
structure Settled (p : WorkerPool) : Prop where
  held : ∀ h ∈ p.crew.held, p.canMove h = false
  waiting : p.crew.waiting = [] ∨ p.crew.idle = false

section Settling

variable {p p' : WorkerPool}

/-- A pool is settled when it makes no move. -/
theorem step?_eq_none_iff : p.step? = none ↔ p.Settled := by
  unfold step?
  cases hfind : p.crew.held.findIdx? p.canMove with
  | none =>
    rw [List.findIdx?_eq_none_iff] at hfind
    have htake := Crew.take?_zero_eq_none_iff (c := p.crew)
    cases h : p.crew.take? 0 with
    | none => exact ⟨fun _ => ⟨hfind, htake.1 h⟩, fun _ => rfl⟩
    | some pair =>
      rw [h] at htake
      exact ⟨nofun, fun hs => absurd (htake.2 hs.waiting) nofun⟩
  | some i =>
    rw [List.findIdx?_eq_some_iff_getElem] at hfind
    obtain ⟨hi, hcan, -⟩ := hfind
    dsimp only
    rw [List.getElem?_eq_getElem hi]
    refine ⟨nofun, fun hs => ?_⟩
    have hstuck := hs.held _ (List.getElem_mem hi)
    rw [hstuck] at hcan
    cases hcan

/-- A pool that makes a move has one of its workers do something. -/
theorem works_of_step? (h : p.step? = some p') :
    ∃ a shuts, a.byWorker = true ∧ p' = p.after a ∧ Works p shuts p' := by
  unfold step? at h
  cases hfind : p.crew.held.findIdx? p.canMove with
  | none =>
    rw [hfind] at h
    cases htake : p.crew.take? 0 with
    | none =>
      rw [htake] at h
      cases h
    | some pair =>
      rw [htake] at h
      cases h
      refine ⟨.take, false, rfl, ?_, works_take htake⟩
      simp only [after, htake, Option.elim_some]
  | some i =>
    rw [hfind] at h
    obtain ⟨hi, hcan, -⟩ := List.findIdx?_eq_some_iff_getElem.1 hfind
    dsimp only at h
    rw [List.getElem?_eq_getElem hi] at h
    cases h
    have hheld := List.getElem?_eq_getElem hi
    refine ⟨.go i, _, rfl, ?_, works_move hheld hcan⟩
    simp only [after, hheld, Option.elim_some, if_pos hcan]

/-- A job that waits for the others has one move less to make than another that is held. -/
theorem movesLeft_add_joining (p : WorkerPool) :
    p.movesLeft + p.crew.held.countP (·.joining) =
      3 * p.crew.waiting.length + 2 * p.crew.held.length := by
  unfold movesLeft
  induction p.crew.held with
  | nil => rfl
  | cons h held ih =>
    rw [List.foldr_cons, List.countP_cons, List.length_cons]
    cases h.joining
    · simp only [Bool.false_eq_true, if_false]
      omega
    · simp only [if_true]
      omega

/-- **Whatever a worker does, there is less left to do.** -/
theorem Works.movesLeft_lt {shuts : Bool} (h : Works p shuts p') :
    p'.movesLeft < p.movesLeft := by
  have hbefore := p.movesLeft_add_joining
  have hafter := p'.movesLeft_add_joining
  generalize p'.movesLeft = left at hafter ⊢
  cases h with
  | taken j rest waits idle =>
    rw [waits, List.length_cons] at hbefore
    simp only [List.countP_append, List.length_append, List.length_singleton,
      List.countP_singleton, Bool.false_eq_true, if_false] at hafter
    omega
  | joins place h held can closes notYet first =>
    have hset := (List.set_perm_cons_eraseIdx (List.getElem?_eq_some_iff.1 held).1
      (⟨h.job, true⟩ : HeldJob)).countP_eq (·.joining)
    have hheld := (cons_eraseIdx_perm held).countP_eq (·.joining)
    simp only [List.countP_cons, notYet, if_true, Bool.false_eq_true, if_false] at hset hheld
    simp only [shut, Crew.shut, List.length_set] at hafter
    omega
  | closes place h held | ends place h held =>
    have hless := (cons_eraseIdx_perm held).length_eq
    have hheld := (cons_eraseIdx_perm held).countP_eq (·.joining)
    have hone : (if h.joining then 1 else 0) ≤ 1 := by split <;> decide
    rw [List.countP_cons] at hheld
    rw [List.length_cons] at hless
    simp only [finish, shut, Crew.shut] at hafter
    omega

/-- A pool is settled when there is nothing that a worker can do. -/
theorem settled_iff : p.Settled ↔ ∀ a : Act, a.byWorker = true → p.after a = p := by
  constructor
  · intro hs a ha
    cases a with
    | take => simp only [after, Crew.take?_zero_eq_none_iff.2 hs.waiting, Option.elim_none]
    | go place =>
      simp only [after]
      cases hheld : p.crew.held[place]? with
      | none => rfl
      | some h =>
        have hstuck := hs.held h (List.mem_of_getElem? hheld)
        rw [Option.elim_some, hstuck, if_neg Bool.false_ne_true]
    | _ => cases ha
  · intro hsame
    rw [← step?_eq_none_iff]
    cases hstep : p.step? with
    | none => rfl
    | some p' =>
      obtain ⟨a, _, ha, rfl, hworks⟩ := works_of_step? hstep
      have hless := hworks.movesLeft_lt
      rw [hsame a ha] at hless
      exact absurd hless (Nat.lt_irrefl _)

/-- The acts are of workers, and each of them does something. -/
def Busy (p : WorkerPool) : List Act → Prop
  | [] => True
  | a :: acts => a.byWorker = true ∧ p.after a ≠ p ∧ (p.after a).Busy acts

/-- **The workers come to rest,** whichever of them goes on first. -/
theorem length_le_movesLeft {acts : List Act} (h : p.Busy acts) : acts.length ≤ p.movesLeft := by
  induction acts generalizing p with
  | nil => exact Nat.zero_le _
  | cons a acts ih =>
    obtain ⟨ha, hdoes, hacts⟩ := h
    rcases p.after_eq_or_works ha with ⟨hsame, -⟩ | hworks
    · exact absurd hsame hdoes
    · have hless := hworks.movesLeft_lt
      have hrest := ih hacts
      simp only [List.length_cons]
      omega

theorem settled_run {n : Nat} (h : p.movesLeft ≤ n) : (p.run n).Settled := by
  induction n generalizing p with
  | zero =>
    rw [← step?_eq_none_iff]
    show p.step? = none
    cases hs : p.step? with
    | none => rfl
    | some p' =>
      obtain ⟨_, _, _, _, hworks⟩ := works_of_step? hs
      have hless := hworks.movesLeft_lt
      omega
  | succ n ih =>
    unfold run
    cases hs : p.step? with
    | none => exact step?_eq_none_iff.1 hs
    | some p' =>
      obtain ⟨_, _, _, _, hworks⟩ := works_of_step? hs
      have hless := hworks.movesLeft_lt
      exact ih (by omega)

theorem run_eq_through (n : Nat) (p : WorkerPool) :
    ∃ acts, (∀ a ∈ acts, a.byWorker = true) ∧ p.run n = p.through acts := by
  induction n generalizing p with
  | zero => exact ⟨[], nofun, rfl⟩
  | succ n ih =>
    unfold run
    cases hs : p.step? with
    | none => exact ⟨[], nofun, rfl⟩
    | some p' =>
      obtain ⟨a, -, ha, rfl, -⟩ := works_of_step? hs
      obtain ⟨acts, hacts, hrun⟩ := ih (p.after a)
      exact ⟨a :: acts, List.forall_mem_cons.2 ⟨ha, hacts⟩, hrun⟩

/-- **A pool that is let go as far as it can is settled.** -/
theorem settled_settle (p : WorkerPool) : p.settle.Settled := settled_run (Nat.le_refl _)

/-- It has come there by acts of its workers. -/
theorem settle_eq_through (p : WorkerPool) :
    ∃ acts, (∀ a ∈ acts, a.byWorker = true) ∧ p.settle = p.through acts :=
  run_eq_through _ p

end Settling

/-! ## Sessions -/

theorem through_append (p : WorkerPool) (acts acts' : List Act) :
    p.through (acts ++ acts') = (p.through acts).through acts' := by
  induction acts generalizing p with
  | nil => rfl
  | cons a acts ih => exact ih (p.after a)

/-- The acts that a step of a session begins with. -/
def Step.acts : Step → List Act
  | .submit job => [.submit job]
  | .release gate => [.openGate gate]
  | .shutdown | .letGo => [.openAll, .shut]

/-- **A step of a session is made of acts,** its own and then those of the workers, and leaves the
pool settled. -/
theorem Session.step_pool (s : Session) (step : Step) :
    (s.step step).2.pool.Settled ∧ ∃ moves, (∀ a ∈ moves, a.byWorker = true) ∧
      (s.step step).2.pool = s.pool.through (step.acts ++ moves) := by
  have hacts : (s.act step).2.pool = s.pool.through step.acts := by
    cases step with
    | submit job =>
      simp only [act, Step.acts, through, after]
      cases s.pool.submit job <;> rfl
    | release gate => rfl
    | shutdown => rfl
    | letGo => rfl
  have hpool : (s.step step).2.pool = (s.act step).2.pool.settle := rfl
  obtain ⟨moves, hmoves, hsettle⟩ := (s.act step).2.pool.settle_eq_through
  rw [hpool]
  refine ⟨settled_settle _, moves, hmoves, ?_⟩
  rw [hsettle, through_append, hacts]

/-- A session after some steps. -/
def Session.after (s : Session) (steps : List Step) : Session :=
  steps.foldl (fun s step => (s.step step).2) s

/-- What shows after the last of some steps is what it shows of the session after those before. -/
theorem Session.run_append_singleton (s : Session) (steps : List Step) (step : Step) :
    s.run (steps ++ [step]) = s.run steps ++ [((s.after steps).step step).1] := by
  induction steps generalizing s with
  | nil => rfl
  | cons first steps ih => exact congrArg _ (ih (s.step first).2)

/-- The pool of a session was led there by acts, and a settled pool is settled after each step. -/
theorem Session.pool_after {s : Session} (hs : s.pool.Settled) (steps : List Step) :
    (s.after steps).pool.Settled ∧ ∃ acts, (s.after steps).pool = s.pool.through acts := by
  induction steps generalizing s with
  | nil => exact ⟨hs, [], rfl⟩
  | cons step steps ih =>
    obtain ⟨hstep, moves, -, hpool⟩ := s.step_pool step
    obtain ⟨hsettled, acts, hafter⟩ := ih hstep
    refine ⟨hsettled, step.acts ++ moves ++ acts, ?_⟩
    rw [through_append, ← hpool]
    exact hafter

end WorkerPool

end Evergreen
