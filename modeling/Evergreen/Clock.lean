import Evergreen.Word

/-!
# Clock readings and durations

Time is a natural number of nanoseconds. A *reading* counts from the epoch of the clock, a
*duration* is the distance between two readings; both may be larger than any machine word.
Two places keep time in a word, and there a reading is taken modulo its size (`Clock.wrap`).
-/

namespace Evergreen

namespace Clock

/-- One microsecond. -/
def microsecond : Nat := 1000

/-- One millisecond. -/
def millisecond : Nat := 1000000

/-- One second. -/
def second : Nat := 1000000000

/-- How many readings a 64-bit counter of nanoseconds can tell apart. -/
def lap : Nat := wordSize

/-- The longest duration: its seconds and its nanoseconds below a second are as many
as a word and a second hold. -/
def longest : Nat := wordSize * second - 1

/-- What a 64-bit counter of nanoseconds shows at reading `t`. -/
def wrap (t : Nat) : Nat := t % lap

/-- Whether a timer can be set to go off at reading `t`: its seconds fit a signed 64-bit
word. -/
def reachable (t : Nat) : Bool := t / second < wordSize / 2

/-- The clock shows less than a lap. -/
theorem wrap_lt (t : Nat) : wrap t < lap := Nat.mod_lt t (by decide)

/-- The clock never shows more than the time. -/
theorem wrap_le (t : Nat) : wrap t ≤ t := Nat.mod_le t lap

/-- In its first lap the clock shows the time. -/
theorem wrap_of_lt {t : Nat} (h : t < lap) : wrap t = t := Nat.mod_eq_of_lt h

end Clock

end Evergreen
