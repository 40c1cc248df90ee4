import Evergreen.Failure

/-!
# Crews

A crew runs tasks: those that wait for a hand stand in a queue, those that a hand has taken
up are held until they are finished. There may be limits to both. A crew that refuses takes no
task any more but goes on with the ones it has.

A task that is accepted is at each moment waiting or held, until it is finished or dropped.
`offer_eq_ok_iff` and `offer_eq_error_saturated_iff` say what becomes of an offer.
-/

namespace Evergreen

/-- Tasks of type `τ` waiting, tasks of type `η` under way. -/
structure Crew (τ η : Type) where
  /-- How many tasks may wait. -/
  room : Option Nat := none
  /-- How many tasks can be under way at once. -/
  hands : Option Nat := none
  /-- Whether tasks are taken up in the order they came. -/
  inOrder : Bool := false
  /-- Set on a crew that takes no more tasks, with what it answers. -/
  refusal : Option Refusal := none
  waiting : List τ := []
  held : List η := []

namespace Crew

variable {τ η : Type}

/-- Whether no further task may wait. -/
def full (c : Crew τ η) : Bool := c.room.any (· ≤ c.waiting.length)

/-- Whether a hand is free. -/
def idle (c : Crew τ η) : Bool := c.hands.all (c.held.length < ·)

/-- Puts a task at the end of the queue. A crew that refuses does so whether or not there is
room. -/
def offer (c : Crew τ η) (t : τ) : Except Refusal (Crew τ η) :=
  match c.refusal with
  | some why => .error why
  | none =>
    if c.full then .error .saturated else .ok { c with waiting := c.waiting ++ [t] }

/-- The task at a place of the queue, and the crew without it. -/
def remove? (c : Crew τ η) (i : Nat) : Option (τ × Crew τ η) :=
  c.waiting[i]?.map fun t => (t, { c with waiting := c.waiting.eraseIdx i })

/-- The task at a place of the queue, if a hand is free and may take it up. -/
def take? (c : Crew τ η) (i : Nat) : Option (τ × Crew τ η) :=
  if c.idle && (!c.inOrder || i == 0) then c.remove? i else none

/-- Holds a task that was taken up. -/
def hold (c : Crew τ η) (h : η) : Crew τ η := { c with held := c.held ++ [h] }

/-- Lets go of the held tasks that satisfy a condition. -/
def release (c : Crew τ η) (p : η → Bool) : Crew τ η :=
  { c with held := c.held.filter fun h => !p h }

/-- Takes no more tasks. -/
def shut (c : Crew τ η) : Crew τ η := { c with refusal := some .shutdown }

/-- A task is refused for want of room exactly when the crew takes tasks and its queue is
full, or when this is what the crew answers to every task. -/
theorem offer_eq_error_saturated_iff {c : Crew τ η} {t : τ} :
    c.offer t = .error .saturated ↔
      c.refusal = some .saturated ∨ c.refusal = none ∧ c.full = true := by
  unfold offer
  cases c.refusal with
  | none => cases c.full <;> simp
  | some why => simp

/-- An accepted task goes to the end of the queue, and nothing else changes. -/
theorem offer_eq_ok_iff {c c' : Crew τ η} {t : τ} :
    c.offer t = .ok c' ↔
      c.refusal = none ∧ c.full = false ∧ c' = { c with waiting := c.waiting ++ [t] } := by
  unfold offer
  cases c.refusal with
  | none => cases c.full <;> simp [eq_comm]
  | some why => simp

end Crew

end Evergreen
