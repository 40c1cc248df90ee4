/-!
# Words

Some numbers are kept in words of 64 bits: counts and the numbers of written durations are
refused where they do not fit, clock readings are cut off.
-/

namespace Evergreen

/-- How many numbers a word can hold. -/
def wordSize : Nat := 0x10000000000000000

/-- A number that fits a word. -/
def word? (n : Nat) : Option Nat := if n < wordSize then some n else none

/-- A number is its own word, if it fits one. -/
theorem word?_eq_some_iff {n m : Nat} : word? n = some m ↔ m = n ∧ n < wordSize := by
  unfold word?
  split
  · rename_i h
    simp only [Option.some.injEq, h, and_true]
    exact eq_comm
  · rename_i h
    simp [h]

end Evergreen
