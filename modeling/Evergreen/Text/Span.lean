import Evergreen.Clock
import Evergreen.Text.Blank

/-!
# Durations in settings

Settings give durations the way people write them, `1h 30m` or `2days`: a sum of items, each
a number and a unit. Spaces may stand before, between and after items, and inside a number.
A number may have decimals if they come to whole nanoseconds, or whole seconds for units from
the hour up. Numbers are read in words, and so are the seconds of the sum.

Writing splits a duration into the units of `Span.written`, largest first, and leaves out
those of which there is none.
-/

namespace Evergreen.Text.Span

/-- An amount of time that one of something lasts: seconds, or nanoseconds where it is not
a whole number of seconds. -/
structure Amount where
  seconds : Nat
  nanos : Nat

/-- A unit of time as it is read: its names, what one of it lasts, and what decimals are
measured in. -/
structure Measure where
  names : List String
  whole : Amount
  decimals : Option Amount

/-- The units that are read. A month is a twelfth of a year of 365.25 days, to the second
below. -/
def measures : List Measure := [
  ⟨["nanos", "nsec", "ns"], ⟨0, 1⟩, none⟩,
  ⟨["usec", "us", "µs"], ⟨0, 1000⟩, some ⟨0, 1000⟩⟩,
  ⟨["millis", "msec", "ms"], ⟨0, 1000000⟩, some ⟨0, 1000000⟩⟩,
  ⟨["seconds", "second", "secs", "sec", "s"], ⟨1, 0⟩, some ⟨0, 1000000000⟩⟩,
  ⟨["minutes", "minute", "min", "mins", "m"], ⟨60, 0⟩, some ⟨0, 60000000000⟩⟩,
  ⟨["hours", "hour", "hr", "hrs", "h"], ⟨3600, 0⟩, some ⟨3600, 0⟩⟩,
  ⟨["days", "day", "d"], ⟨86400, 0⟩, some ⟨86400, 0⟩⟩,
  ⟨["weeks", "week", "wk", "wks", "w"], ⟨604800, 0⟩, some ⟨604800, 0⟩⟩,
  ⟨["months", "month", "M"], ⟨2630016, 0⟩, some ⟨2630016, 0⟩⟩,
  ⟨["years", "year", "yr", "yrs", "y"], ⟨31557600, 0⟩, some ⟨31557600, 0⟩⟩]

/-- An amount `n` times over, in words. -/
def Amount.times? (a : Amount) (n : Nat) : Option Amount := do
  return ⟨← word? (n * a.seconds), ← word? (n * a.nanos)⟩

/-- An amount divided by `d`, if nothing is left over. -/
def Amount.divided? (a : Amount) (d : Nat) : Option Amount :=
  if a.seconds % d = 0 ∧ a.nanos % d = 0 then some ⟨a.seconds / d, a.nanos / d⟩ else none

/-- A sum so far, and an amount on top; the seconds must fit a word. -/
def plus? (total : Nat) (a : Amount) : Option Nat := do
  let nanos ← word? (total % Clock.second + a.nanos)
  let sum := (total / Clock.second + a.seconds) * Clock.second + nanos
  if sum ≤ Clock.longest then some sum else none

/-! ## Reading -/

/-- The decimals of a number: `digits / scale`, where `scale` is a power of ten. -/
structure Decimals where
  digits : Nat
  scale : Nat

/-- Where a reader stands inside the text. -/
inductive Phase where
  | between
  | number (n : Nat)
  | decimals (n : Nat) (d : Decimals)
  /-- In a unit; its letters so far, last first. -/
  | unit (n : Nat) (d : Option Decimals) (letters : List Char)

/-- A text being read: the sum of the items that are complete, and whether there are any. -/
structure Reader where
  total : Nat := 0
  started : Bool := false
  phase : Phase := .between

/-- The letters that units are made of. -/
def isLetter (c : Char) : Bool := c.isAlpha || c == 'µ'

/-- The value of a digit, put after those of `n`. -/
def digit? (n : Nat) (c : Char) : Option Nat := word? (10 * n + (c.toNat - '0'.toNat))

/-- Adds the item that is complete. -/
def Reader.close? (r : Reader) (n : Nat) (d : Option Decimals) (letters : List Char) :
    Option Reader := do
  let name := String.ofList letters.reverse
  let m ← measures.find? (·.names.contains name)
  let total ← plus? r.total (← m.whole.times? n)
  match d with
  | none => return ⟨total, true, .between⟩
  | some d =>
    let part ← (← (← m.decimals).times? d.digits).divided? d.scale
    return ⟨← plus? total part, true, .between⟩

/-- Takes one more character, unless it cannot stand there. -/
def Reader.step? (r : Reader) (c : Char) : Option Reader :=
  match r.phase with
  | .between =>
    if c.isDigit then do return { r with phase := .number (← digit? 0 c) }
    else if isSpace c then some r
    else none
  | .number n =>
    if c.isDigit then do return { r with phase := .number (← digit? n c) }
    else if isSpace c then some r
    else if isLetter c then some { r with phase := .unit n none [c] }
    else if c == '.' then some { r with phase := .decimals n ⟨0, 1⟩ }
    else none
  | .decimals n d =>
    if c.isDigit then do
      return { r with phase := .decimals n ⟨← digit? d.digits c, ← word? (10 * d.scale)⟩ }
    else if isSpace c then some r
    else if isLetter c && d.scale != 1 then some { r with phase := .unit n (some d) [c] }
    else none
  | .unit n d letters =>
    if c.isDigit then do
      let r ← r.close? n d letters
      return { r with phase := .number (← digit? 0 c) }
    else if isSpace c then r.close? n d letters
    else if isLetter c then some { r with phase := .unit n d (c :: letters) }
    else none

/-- What a text that ends here says, unless it ends inside an item. -/
def Reader.finish? (r : Reader) : Option Nat :=
  match r.phase with
  | .between => if r.started then some r.total else none
  | .unit n d letters => (r.close? n d letters).map (·.total)
  | _ => none

/-- The duration a text gives. A lone zero needs no unit. -/
def read? (s : String) : Option Nat :=
  if s = "0" then some 0
  else do (← s.toList.foldlM Reader.step? {}).finish?

/-! ## Writing -/

/-- The units that are written, largest first: one of it in nanoseconds, its name, and
whether several of it are named in the plural. -/
def written : List (Nat × String × Bool) := [
  (31557600 * Clock.second, "year", true),
  (2630016 * Clock.second, "month", true),
  (86400 * Clock.second, "day", true),
  (3600 * Clock.second, "h", false),
  (60 * Clock.second, "m", false),
  (Clock.second, "s", false),
  (Clock.millisecond, "ms", false),
  (Clock.microsecond, "us", false),
  (1, "ns", false)]

/-- One item. -/
def item (n : Nat) (name : String) (inflected : Bool) : String :=
  toString n ++ name ++ (if inflected && 1 < n then "s" else "")

/-- The items of a duration in the given units. -/
def items : List (Nat × String × Bool) → Nat → List String
  | [], _ => []
  | (size, name, inflected) :: units, t =>
    let rest := items units (t % size)
    if t / size = 0 then rest else item (t / size) name inflected :: rest

/-- The text of a duration. -/
def write (t : Nat) : String :=
  if t = 0 then "0s" else " ".intercalate (items written t)

end Evergreen.Text.Span
