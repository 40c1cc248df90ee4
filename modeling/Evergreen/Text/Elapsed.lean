import Evergreen.Clock

/-!
# Durations in messages

A duration is written in the largest of the units `s`, `ms`, `µs` and `ns` of which it holds
at least one, with as many decimals as it takes and no trailing zero.
-/

namespace Evergreen.Text

/-- The decimals of `rest / unit`, where `unit` is a power of ten: a point and the digits, or
nothing for a rest of zero. -/
def decimals (rest unit : Nat) : String :=
  if rest = 0 then ""
  else
    -- The digit put in front keeps the zeros after the point; it is dropped again.
    let digits := (Nat.toDigits 10 (unit + rest)).drop 1
    "." ++ String.ofList (digits.reverse.dropWhile (· == '0')).reverse

/-- A duration `t` counted in `unit`, with the unit's name. -/
def inUnit (t unit : Nat) (name : String) : String :=
  toString (t / unit) ++ decimals (t % unit) unit ++ name

/-- The text of a duration. -/
def elapsed (t : Nat) : String :=
  if Clock.second ≤ t then inUnit t Clock.second "s"
  else if Clock.millisecond ≤ t then inUnit t Clock.millisecond "ms"
  else if Clock.microsecond ≤ t then inUnit t Clock.microsecond "µs"
  else inUnit t 1 "ns"

end Evergreen.Text
