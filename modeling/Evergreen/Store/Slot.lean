import Evergreen.Entry

/-!
# Slots

A memory store keeps an entry in a slot, with a deadline of its own: the 64-bit reading at
which the slot is dropped. It comes from a hint, the time the writer says is left. There is
none if the hint or the reading does not fit 64 bits, and none at reading zero.
-/

namespace Evergreen

/-- An entry and the 64-bit reading at which it is dropped. -/
structure Slot where
  entry : Entry
  deadline : Option Nat
  deriving DecidableEq, Repr

namespace Slot

/-- The deadline that a hint sets at `now`. -/
def deadline? (now : Nat) (hint : Option Nat) : Option Nat :=
  match hint with
  | none => none
  | some left =>
    let reading := Clock.wrap now + left
    if left < Clock.lap ∧ reading < Clock.lap ∧ 0 < reading then some reading else none

/-- An entry put in a slot at `now`. -/
def filled (now : Nat) (entry : Entry) (hint : Option Nat) : Slot :=
  ⟨entry, deadline? now hint⟩

/-- Whether the 64-bit clock has reached the deadline. -/
def expired (s : Slot) (now : Nat) : Bool :=
  match s.deadline with
  | none => false
  | some d => d ≤ Clock.wrap now

/-- A slot has expired when the 64-bit clock shows its deadline, if it has one, or more. -/
theorem expired_iff {s : Slot} {now : Nat} :
    s.expired now = true ↔ ∃ d, s.deadline = some d ∧ d ≤ Clock.wrap now := by
  unfold expired
  cases s.deadline <;> simp

/-- There is a deadline iff the hint, counted from what the clock shows, ends in the same lap; and
zero is none. -/
theorem deadline?_eq_some_iff {now : Nat} {hint : Option Nat} {d : Nat} :
    deadline? now hint = some d ↔
      ∃ left, hint = some left ∧ d = Clock.wrap now + left ∧ d < Clock.lap ∧ 0 < d := by
  unfold deadline?
  cases hint with
  | none => simp
  | some left =>
    simp only [Option.some.injEq, exists_eq_left']
    split
    · rename_i h
      simp only [Option.some.injEq]
      constructor
      · rintro rfl
        exact ⟨rfl, h.2⟩
      · rintro ⟨rfl, -⟩
        rfl
    · rename_i h
      simp only [reduceCtorEq, false_iff, not_and]
      rintro rfl h₁ h₂
      exact h ⟨by omega, h₁, h₂⟩

end Slot

end Evergreen
