import Mathlib.Data.List.Perm.Basic
import Evergreen.Proofs.PoolSteps

/-!
# The worker pool keeps its accounts

Whatever is done with a pool, and in whatever order its workers go on, a job that it has accepted
waits, is held by a worker or is finished. Each invariant is shown of one step by cases on
`ActStep`, and of any number of acts from there.

- `jobs_through_perm`: the jobs that wait, are held or are finished are those that were accepted;
- `jobs_through`: with a single worker they stand in the order they were accepted in;
- `sound_through`: the queue and the workers keep within their limits, and at most one job waits
  for the others;
- `refusal_through`: a pool refuses jobs as shut down once it was shut down;
- `through_mapJobs`: what a job ends with makes no difference to the pool;
- `Settled.drained`: a settled pool has nothing left to do unless a job waits at a gate;
- `pool_keeps_accounts`: so the `Accounts` of a pool are kept, and its workers come to rest.
-/

namespace Evergreen

/-- What becomes of a job that is held, as something else. -/
def HeldJob.mapJob (f : Job → Job) (h : HeldJob) : HeldJob := { h with job := f h.job }

/-- A job that does not panic. -/
def Job.calm (j : Job) : Job := { j with panic := none }

namespace WorkerPool

/-- All jobs of a pool, in the order in which a single worker deals with them: those that are
finished, that are held and that wait. -/
def jobs (p : WorkerPool) : List Job :=
  p.finished ++ p.crew.held.map (·.job) ++ p.crew.waiting

/-- A pool of a size: the limits are kept, and if a job waits for the others, it is the only one
and was the first to shut the pool down. -/
structure Sound (workers room : Nat) (p : WorkerPool) : Prop where
  size : p.workers = workers
  hands : p.crew.hands = some workers
  limit : p.crew.room = some room
  waiting_le : p.crew.waiting.length ≤ room
  held_le : p.crew.held.length ≤ workers
  joining_le : p.crew.held.countP (·.joining) ≤ if p.unjoined = 0 then 1 else 0

/-- A job is held at a gate. -/
def HeldAtGate (p : WorkerPool) (h : HeldJob) : Prop :=
  h.joining = false ∧ p.gates.pass h.job.gate = false

/-! ## Steps -/

section Steps

variable {p p' : WorkerPool} {accepted : List Job} {shuts : Bool} {workers room : Nat}

theorem Sound.idle_iff (h : p.Sound workers room) :
    p.crew.idle = true ↔ p.crew.held.length < workers := by
  simp [Crew.idle, h.hands]

theorem Sound.full_iff (h : p.Sound workers room) :
    p.crew.full = true ↔ room ≤ p.crew.waiting.length := by
  simp [Crew.full, h.limit]

/-- A job that waits for the others is the job that it was. -/
theorem map_job_set {place : Nat} {h : HeldJob} (held : p.crew.held[place]? = some h) :
    (p.crew.held.set place ⟨h.job, true⟩).map (·.job) = p.crew.held.map (·.job) := by
  rw [List.map_set]
  apply List.ext_getElem?
  intro i
  rw [List.getElem?_set, List.getElem?_map]
  split
  · next hi =>
    subst hi
    have hlt := (List.getElem?_eq_some_iff.1 held).1
    rw [held, List.length_map, if_pos hlt]
    rfl
  · rfl

/-- A held job that ends is still one of the jobs of the pool. -/
theorem jobs_finish {place : Nat} {h : HeldJob} (held : p.crew.held[place]? = some h) :
    (p.finish place h).jobs.Perm p.jobs := by
  have hperm : ([h.job] ++ (p.crew.held.eraseIdx place).map (·.job)).Perm
      (p.crew.held.map (·.job)) := (cons_eraseIdx_perm held).map HeldJob.job
  show (p.finished ++ [h.job] ++ _ ++ p.crew.waiting).Perm _
  rw [List.append_assoc p.finished]
  exact (hperm.append_left _).append_right _

/-- A step puts the job that it accepts behind all others, and leaves these where they are unless
one of them ends. -/
theorem ActStep.jobs_eq_or (h : ActStep p accepted shuts p') :
    p'.jobs = p.jobs ++ accepted ∨
      accepted = [] ∧ ∃ place held, p.crew.held[place]? = some held ∧
        p'.jobs = (p.finish place held).jobs := by
  cases h with
  | same | opened | shut => exact .inl (List.append_nil _).symm
  | queued j => exact .inl (List.append_assoc ..).symm
  | worked h =>
    rw [List.append_nil]
    cases h with
    | taken j rest waits _ =>
      left
      simp [jobs, waits]
    | joins place h held =>
      left
      show p.finished ++ _ ++ p.crew.waiting = _
      rw [map_job_set held]
      rfl
    | closes place h held | ends place h held => exact .inr ⟨rfl, place, h, held, rfl⟩

/-- **No step loses or doubles a job,** but for the one that it accepts. -/
theorem ActStep.jobs_perm (h : ActStep p accepted shuts p') :
    p'.jobs.Perm (p.jobs ++ accepted) := by
  rcases h.jobs_eq_or with hjobs | ⟨rfl, place, held, hheld, hjobs⟩
  · exact .of_eq hjobs
  · rw [hjobs, List.append_nil]
    exact jobs_finish hheld

theorem Sound.joining_le_one (hp : p.Sound workers room) :
    p.crew.held.countP (·.joining) ≤ 1 := by
  have hle := hp.joining_le
  split at hle <;> omega

theorem Sound.shut (hp : p.Sound workers room) : p.shut.Sound workers room :=
  ⟨hp.size, hp.hands, hp.limit, hp.waiting_le, hp.held_le, hp.joining_le_one⟩

theorem Sound.finish (hp : p.Sound workers room) (place : Nat) (h : HeldJob) :
    (p.finish place h).Sound workers room :=
  have hless := List.eraseIdx_sublist p.crew.held place
  ⟨hp.size, hp.hands, hp.limit, hp.waiting_le, Nat.le_trans hless.length_le hp.held_le,
    Nat.le_trans hless.countP_le hp.joining_le⟩

/-- **A pool keeps within its limits.** -/
theorem ActStep.sound (h : ActStep p accepted shuts p') (hp : p.Sound workers room) :
    p'.Sound workers room := by
  obtain ⟨hsize, hhands, hlimit, hwaiting, hheld, hjoining⟩ := id hp
  cases h with
  | same => exact hp
  | opened => exact ⟨hsize, hhands, hlimit, hwaiting, hheld, hjoining⟩
  | shut => exact hp.shut
  | queued j _ notFull =>
    have hroom : ¬ room ≤ p.crew.waiting.length := by
      rw [← hp.full_iff, notFull]
      exact Bool.false_ne_true
    refine ⟨hsize, hhands, hlimit, ?_, hheld, hjoining⟩
    simp only [List.length_append, List.length_singleton]
    omega
  | worked h =>
    cases h with
    | taken j rest waits idle =>
      have hfree := hp.idle_iff.1 idle
      refine ⟨hsize, hhands, hlimit, ?_, ?_, ?_⟩
      · rw [waits, List.length_cons] at hwaiting
        exact Nat.le_of_succ_le hwaiting
      · simpa using Nat.succ_le_of_lt hfree
      · simpa [List.countP_append] using hjoining
    | joins place h held _ _ _ first =>
      -- nobody waited for the others before
      rw [if_neg first] at hjoining
      have hset := (List.set_perm_cons_eraseIdx (List.getElem?_eq_some_iff.1 held).1
        (⟨h.job, true⟩ : HeldJob)).countP_eq (·.joining)
      have hrest := (List.eraseIdx_sublist p.crew.held place).countP_le (p := (·.joining))
      refine ⟨hsize, hhands, hlimit, hwaiting, ?_, ?_⟩
      · simpa using hheld
      · show (p.crew.held.set place ⟨h.job, true⟩).countP (·.joining) ≤ 1
        rw [hset, List.countP_cons]
        simp only [if_true]
        omega
    | closes place h => exact hp.shut.finish place h
    | ends place h => exact hp.finish place h

/-- A pool refuses all jobs from the step on that shuts it down. -/
theorem ActStep.refusal_eq (h : ActStep p accepted shuts p') :
    p'.crew.refusal = if shuts then some .shutdown else p.crew.refusal := by
  cases h with
  | worked h => cases h <;> rfl
  | _ => rfl

/-- What is finished stays so. -/
theorem ActStep.finished_eq (h : ActStep p accepted shuts p') :
    ∃ more, p'.finished = p.finished ++ more := by
  cases h with
  | worked h =>
    cases h with
    | closes place h | ends place h => exact ⟨[h.job], rfl⟩
    | _ => exact ⟨[], (List.append_nil _).symm⟩
  | _ => exact ⟨[], (List.append_nil _).symm⟩

/-- A job of a single worker is the only one that is held. -/
theorem Sound.held_eq (hp : p.Sound 1 room) {place : Nat} {h : HeldJob}
    (held : p.crew.held[place]? = some h) :
    place = 0 ∧ p.crew.held = [h] := by
  obtain ⟨hlt, -⟩ := List.getElem?_eq_some_iff.1 held
  have hle := hp.held_le
  obtain ⟨h', hone⟩ := List.length_eq_one_iff.1 (show p.crew.held.length = 1 by omega)
  obtain rfl : place = 0 := by omega
  rw [hone, List.getElem?_cons_zero, Option.some.injEq] at held
  exact ⟨rfl, held ▸ hone⟩

/-- **A single worker keeps the order** in which jobs are accepted. -/
theorem ActStep.jobs_eq (h : ActStep p accepted shuts p') (hp : p.Sound 1 room) :
    p'.jobs = p.jobs ++ accepted := by
  rcases h.jobs_eq_or with hjobs | ⟨rfl, place, held, hheld, hjobs⟩
  · exact hjobs
  · obtain ⟨rfl, hone⟩ := hp.held_eq hheld
    rw [hjobs]
    simp [jobs, finish, hone]

end Steps

/-! ## Any number of acts -/

section Runs

variable {p p₀ : WorkerPool} {workers room : Nat}

open scoped List in
/-- **The jobs that wait, are held or are finished are those that were accepted.** -/
theorem jobs_through_perm (p : WorkerPool) (acts : List Act) :
    (p.through acts).jobs.Perm (p.jobs ++ p.accepted acts) := by
  induction acts generalizing p with
  | nil => simp [through, accepted]
  | cons a acts ih =>
    calc ((p.after a).through acts).jobs
      _ ~ (p.after a).jobs ++ (p.after a).accepted acts := ih _
      _ ~ p.jobs ++ p.accepts a ++ (p.after a).accepted acts :=
        (actStep_after p a).jobs_perm.append_right _
      _ = p.jobs ++ p.accepted (a :: acts) := List.append_assoc ..

theorem sound_through (hp : p.Sound workers room) (acts : List Act) :
    (p.through acts).Sound workers room := by
  induction acts generalizing p with
  | nil => exact hp
  | cons a acts ih => exact ih ((actStep_after p a).sound hp)

/-- **A single worker deals with the jobs in the order in which they are accepted.** -/
theorem jobs_through (hp : p.Sound 1 room) (acts : List Act) :
    (p.through acts).jobs = p.jobs ++ p.accepted acts := by
  induction acts generalizing p with
  | nil => exact (List.append_nil _).symm
  | cons a acts ih =>
    have hstep := actStep_after p a
    calc ((p.after a).through acts).jobs
      _ = (p.after a).jobs ++ (p.after a).accepted acts := ih (hstep.sound hp)
      _ = p.jobs ++ p.accepts a ++ (p.after a).accepted acts := by rw [hstep.jobs_eq hp]
      _ = p.jobs ++ p.accepted (a :: acts) := List.append_assoc ..

/-- A pool refuses jobs as shut down once it was shut down. -/
theorem refusal_through (p : WorkerPool) (acts : List Act) :
    (p.through acts).crew.refusal = if p.wasShut acts then some .shutdown else p.crew.refusal := by
  induction acts generalizing p with
  | nil => rfl
  | cons a acts ih =>
    have hstep := (actStep_after p a).refusal_eq
    rw [through, ih, hstep, wasShut]
    cases p.shuts a <;> simp

/-- What is finished stays so. -/
theorem finished_through (p : WorkerPool) (acts : List Act) :
    p.finished <+: (p.through acts).finished := by
  induction acts generalizing p with
  | nil => exact List.prefix_rfl
  | cons a acts ih =>
    obtain ⟨more, hmore⟩ := (actStep_after p a).finished_eq
    exact (hmore ▸ List.prefix_append ..).trans (ih _)

end Runs

/-! ## What jobs end with -/

/-- The same act with other jobs. -/
def Act.mapJob (f : Job → Job) : Act → Act
  | .submit j => .submit (f j)
  | a => a

/-- The same pool with other jobs. -/
def mapJobs (f : Job → Job) (p : WorkerPool) : WorkerPool := { p with
  crew := { p.crew with
    waiting := p.crew.waiting.map f
    held := p.crew.held.map (·.mapJob f) }
  finished := p.finished.map f }

section Panics

variable {f : Job → Job} (hgate : ∀ j, (f j).gate = j.gate) (hcloses : ∀ j, (f j).closes = j.closes)
variable (p : WorkerPool)

theorem finish_mapJobs (place : Nat) (h : HeldJob) :
    (p.mapJobs f).finish place (h.mapJob f) = (p.finish place h).mapJobs f := by
  simp [finish, mapJobs, HeldJob.mapJob, List.eraseIdx_map]

theorem submit_mapJobs (j : Job) :
    (p.mapJobs f).submit (f j) = (p.submit j).map (mapJobs f) := by
  have hfull : (p.mapJobs f).crew.full = p.crew.full := by simp [Crew.full, mapJobs]
  have hrefusal : (p.mapJobs f).crew.refusal = p.crew.refusal := rfl
  rw [submit_eq, submit_eq]
  unfold Crew.offer
  rw [hfull, hrefusal]
  cases p.crew.refusal with
  | some why => rfl
  | none => cases p.crew.full <;> simp [mapJobs, Except.map]

include hgate in
theorem canMove_mapJobs (h : HeldJob) :
    (p.mapJobs f).canMove (h.mapJob f) = p.canMove h := by
  simp [canMove, mapJobs, HeldJob.mapJob, hgate]

include hcloses in
theorem move_mapJobs (place : Nat) (h : HeldJob) :
    (p.mapJobs f).move place (h.mapJob f) = (p.move place h).mapJobs f := by
  have hclosing : ((h.mapJob f).job.closes && !(h.mapJob f).joining) =
      (h.job.closes && !h.joining) := by simp [HeldJob.mapJob, hcloses]
  unfold move
  rw [hclosing]
  split
  · dsimp only
    show (if p.unjoined != 0 then _ else _) = _
    split
    · simp [mapJobs, HeldJob.mapJob, WorkerPool.shut, Crew.shut, List.map_set]
    · exact finish_mapJobs p.shut place h
  · exact finish_mapJobs p place h

include hgate hcloses in
/-- An act does with other jobs what it does with these, if they wait at the same gates and shut
the pool down alike. -/
theorem after_mapJobs (a : Act) : (p.mapJobs f).after (a.mapJob f) = (p.after a).mapJobs f := by
  cases a with
  | submit j =>
    simp only [Act.mapJob, after, submit_mapJobs]
    cases p.submit j <;> rfl
  | openGate name => rfl
  | openAll => rfl
  | shut => rfl
  | take =>
    have hidle : (p.mapJobs f).crew.idle = p.crew.idle := by simp [Crew.idle, mapJobs]
    have hwaiting : (p.mapJobs f).crew.waiting = p.crew.waiting.map f := rfl
    simp only [Act.mapJob, after, Crew.take?_zero, hidle, hwaiting]
    cases p.crew.waiting with
    | nil => rfl
    | cons j rest =>
      cases p.crew.idle <;> simp [mapJobs, Crew.hold, HeldJob.mapJob]
  | go place =>
    have hheld : (p.mapJobs f).crew.held[place]? = p.crew.held[place]?.map (·.mapJob f) :=
      List.getElem?_map ..
    simp only [Act.mapJob, after, hheld]
    cases p.crew.held[place]? with
    | none => rfl
    | some h =>
      simp only [Option.map_some, Option.elim_some, canMove_mapJobs hgate, move_mapJobs hcloses]
      split <;> rfl

include hgate hcloses in
theorem through_mapJobs (acts : List Act) :
    (p.mapJobs f).through (acts.map (·.mapJob f)) = (p.through acts).mapJobs f := by
  induction acts generalizing p with
  | nil => rfl
  | cons a acts ih =>
    rw [List.map_cons, through, after_mapJobs hgate hcloses, ih, through]

end Panics

/-! ## The accounts of a pool -/

section Accounts

variable {p p₀ : WorkerPool} {workers room : Nat}

/-- A pool that is made is empty and has all of its workers. -/
theorem create_eq_ok_iff : create workers room = .ok p ↔
    0 < workers ∧ 0 < room ∧
      p = { workers, room, crew := { room := some room, hands := some workers, inOrder := true },
            unjoined := workers } := by
  unfold create checkPool
  by_cases hw : workers = 0
  · simp [hw, bind, Except.bind]
  · by_cases hr : room = 0
    · simp [hw, hr, bind, Except.bind]
    · simp [hw, hr, bind, Except.bind, pure, Except.pure, eq_comm, Nat.pos_iff_ne_zero]

theorem sound_of_create (h : create workers room = .ok p) : p.Sound workers room := by
  obtain ⟨-, -, rfl⟩ := create_eq_ok_iff.1 h
  exact ⟨rfl, rfl, rfl, Nat.zero_le _, Nat.zero_le _, Nat.zero_le _⟩

/-- In a settled pool a job waits only if every worker has one. -/
theorem Settled.length_held (hset : p.Settled) (hp : p.Sound workers room)
    (hwait : p.crew.waiting ≠ []) : p.crew.held.length = workers := by
  have hbusy : p.crew.idle = false := hset.waiting.resolve_left hwait
  have hnot : ¬ p.crew.held.length < workers := by
    rw [← hp.idle_iff, hbusy]
    exact Bool.false_ne_true
  exact Nat.le_antisymm hp.held_le (Nat.le_of_not_lt hnot)

/-- **A settled pool has nothing left to do** unless a job is held at a gate: a job that waits for
the others has no other to wait for. -/
theorem Settled.drained (hset : p.Settled) (hp : p.Sound workers room) (hworkers : 0 < workers)
    (hgates : ∀ h ∈ p.crew.held, ¬ p.HeldAtGate h) :
    p.crew.waiting = [] ∧ p.crew.held = [] := by
  have hjoining : ∀ h ∈ p.crew.held, h.joining = true := by
    intro h hh
    by_contra hnot
    rw [Bool.not_eq_true] at hnot
    have hstuck := hset.held h hh
    rw [canMove, hnot, if_neg Bool.false_ne_true] at hstuck
    exact hgates h hh ⟨hnot, hstuck⟩
  have hone : p.crew.held.length ≤ 1 := by
    rw [← List.countP_eq_length.2 hjoining]
    exact hp.joining_le_one
  have hnone : p.crew.held = [] := by
    by_contra hsome
    obtain ⟨h, hh⟩ := List.exists_mem_of_ne_nil _ hsome
    have hlen : p.crew.held.length = 1 := by
      have hpos := List.length_pos_of_mem hh
      omega
    have hstuck := hset.held h hh
    rw [canMove, if_pos (hjoining h hh), hp.size, hlen] at hstuck
    simp only [Bool.or_eq_false_iff, Bool.and_eq_false_iff, beq_eq_false_iff_ne, ne_eq,
      List.isEmpty_eq_false_iff] at hstuck
    obtain ⟨hmany, hwait | hfalse⟩ := hstuck
    · exact hmany (hset.length_held hp hwait ▸ hlen)
    · exact hfalse trivial
  refine ⟨?_, hnone⟩
  by_contra hwait
  have hlen := hset.length_held hp hwait
  rw [hnone, List.length_nil] at hlen
  omega

section Refusals

variable {wasShut : Bool} (h : p.crew.refusal = if wasShut then some .shutdown else none)

include h in
theorem submit_eq_shutdown_iff (j : Job) : p.submit j = .error .shutdown ↔ wasShut = true := by
  rw [submit_eq_error_iff, Crew.offer, h]
  cases wasShut with
  | true => simp
  | false => cases p.crew.full <;> simp

include h in
theorem submit_eq_saturated_iff (hp : p.Sound workers room) (j : Job) :
    p.submit j = .error .saturated ↔ wasShut = false ∧ p.crew.waiting.length = room := by
  have hle := hp.waiting_le
  rw [submit_eq_error_iff, Crew.offer_eq_error_saturated_iff, h, hp.full_iff]
  cases wasShut with
  | true => simp
  | false =>
    simp only [Bool.false_eq_true, if_false, reduceCtorEq, true_and, false_or]
    omega

end Refusals

/-- What holds of a pool of a size that has accepted jobs, and may have been shut down. -/
structure Accounts (workers room : Nat) (p : WorkerPool) (accepted : List Job) (wasShut : Bool) :
    Prop where
  /-- Every job that was accepted waits, is held or is finished, and no other does. -/
  kept : p.jobs.Perm accepted
  /-- If the jobs differ, each of them does only one of these, and once. -/
  once : accepted.Nodup → p.jobs.Nodup
  waiting_le : p.crew.waiting.length ≤ room
  held_le : p.crew.held.length ≤ workers
  /-- No worker was lost. -/
  hands : p.crew.hands = some workers
  busy : p.Settled → p.crew.waiting ≠ [] → p.crew.held.length = workers
  shutdown_iff : ∀ j, p.submit j = .error .shutdown ↔ wasShut = true
  saturated_iff : ∀ j, p.submit j = .error .saturated ↔
    wasShut = false ∧ p.crew.waiting.length = room
  /-- When nothing is held at a gate any more, all jobs are finished. -/
  drained : p.Settled → (∀ h ∈ p.crew.held, ¬ p.HeldAtGate h) → p.finished.Perm accepted
  /-- With one worker, jobs are finished in the order in which they were accepted. -/
  order : workers = 1 → p.jobs = accepted

/-- The accounts of a pool are kept through any acts. -/
theorem accounts_through (hp : create workers room = .ok p₀) (acts : List Act) :
    Accounts workers room (p₀.through acts) (p₀.accepted acts) (p₀.wasShut acts) := by
  obtain ⟨hworkers, -, hempty⟩ := create_eq_ok_iff.1 hp
  have hsound := sound_through (sound_of_create hp) acts
  have hkept := jobs_through_perm p₀ acts
  have hrefusal := refusal_through p₀ acts
  have hnothing : p₀.jobs = [] := by rw [hempty]; rfl
  have hopen : p₀.crew.refusal = none := by rw [hempty]
  rw [hnothing, List.nil_append] at hkept
  rw [hopen] at hrefusal
  refine ⟨hkept, hkept.nodup_iff.2, hsound.waiting_le, hsound.held_le, hsound.hands,
    fun hset => hset.length_held hsound, submit_eq_shutdown_iff hrefusal,
    submit_eq_saturated_iff hrefusal hsound, ?_, ?_⟩
  · intro hset hgates
    obtain ⟨hwaiting, hheld⟩ := hset.drained hsound hworkers hgates
    rwa [jobs, hwaiting, hheld, List.map_nil, List.append_nil, List.append_nil] at hkept
  · rintro rfl
    have hjobs := jobs_through (sound_of_create hp) acts
    rwa [hnothing] at hjobs

theorem settled_of_create (hp : create workers room = .ok p) : p.Settled := by
  obtain ⟨-, -, rfl⟩ := create_eq_ok_iff.1 hp
  exact ⟨nofun, .inl rfl⟩

/-- **The worker pool keeps its accounts.** Let a pool be made with any number of workers and any
room, and let anything be done with it: jobs are handed over, gates are opened, it is shut down or
let go of, and its workers take jobs and go on with them, shutting it down themselves or panicking,
in any order.

1. Its `Accounts` are kept at each moment.
2. What is finished stays so.
3. Had no job panicked, the same jobs would wait, be held and be finished.
4. Its workers come to rest, whichever of them goes on first.
5. They have come to rest when the pool is settled.
6. Letting the pool go as far as it can is a way to get there.
7. Each session with the pool is such a course of things, and is settled after each step. -/
theorem pool_keeps_accounts (hp : create workers room = .ok p₀) (acts : List Act) :
    Accounts workers room (p₀.through acts) (p₀.accepted acts) (p₀.wasShut acts) ∧
      (∀ more, (p₀.through acts).finished <+: (p₀.through (acts ++ more)).finished) ∧
      p₀.through (acts.map (·.mapJob Job.calm)) = (p₀.through acts).mapJobs Job.calm ∧
      (∀ more, (p₀.through acts).Busy more → more.length ≤ (p₀.through acts).movesLeft) ∧
      ((p₀.through acts).Settled ↔
        ∀ a : Act, a.byWorker = true → (p₀.through acts).after a = p₀.through acts) ∧
      ((p₀.through acts).settle.Settled ∧ ∃ moves, (∀ a ∈ moves, a.byWorker = true) ∧
        (p₀.through acts).settle = p₀.through (acts ++ moves)) ∧
      ∀ steps, (Session.after { pool := p₀ } steps).pool.Settled ∧
        ∃ acts, (Session.after { pool := p₀ } steps).pool = p₀.through acts := by
  refine ⟨accounts_through hp acts, ?_, ?_, fun _ => length_le_movesLeft, settled_iff,
    ⟨settled_settle _, ?_⟩, Session.pool_after (settled_of_create hp)⟩
  · intro more
    rw [through_append]
    exact finished_through _ more
  · have hempty : p₀.mapJobs Job.calm = p₀ := by
      obtain ⟨-, -, rfl⟩ := create_eq_ok_iff.1 hp
      rfl
    have hcalm := through_mapJobs (f := Job.calm) (fun _ => rfl) (fun _ => rfl) p₀ acts
    rwa [hempty] at hcalm
  · obtain ⟨moves, hmoves, hsettle⟩ := (p₀.through acts).settle_eq_through
    exact ⟨moves, hmoves, by rw [hsettle, through_append]⟩

/-- Two workers, and room for one job. -/
def pair : WorkerPool :=
  { workers := 2, room := 1, crew := { room := some 1, hands := some 2, inOrder := true },
    unjoined := 2 }

/-- A job that waits at a gate. -/
def slow : Job := { name := "slow", gate := some "door" }

/-- A job that shuts the pool down. -/
def closer : Job := { name := "closer", closes := true }

/-- A job that panics. -/
def faulty : Job := { name := "faulty", panic := some "boom" }

/-- Both workers have a job and a third waits, so that a fourth is refused. Then one of the jobs
shuts the pool down and waits for the others, and a fifth is refused. -/
def closedInside : List Act :=
  [.submit slow, .take, .submit closer, .take, .submit faulty, .submit slow, .go 1, .submit slow,
    .openGate "door", .go 0, .take, .go 1, .go 0]

/-- The three jobs that were accepted are finished, the one that shut the pool down after the
others. -/
theorem pool_keeps_accounts_closedInside :
    create 2 1 = .ok pair ∧
      Accounts 2 1 (pair.through closedInside) [slow, closer, faulty] true ∧
      (pair.through closedInside).finished = [slow, faulty, closer] :=
  ⟨rfl, (pool_keeps_accounts rfl closedInside).1, rfl⟩

end Accounts

end WorkerPool

end Evergreen
