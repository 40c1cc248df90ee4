import Evergreen.Failure

/-!
# Entries

An entry is a value, the time it was made and two lifetimes. Past the soft one it is stale:
it may still be served but should be refreshed. Past the hard one it must not be served at
all. Entries never change; a refresh makes a new one.

An entry that a failed load wrote back is marked `carried`: it is younger than the value it
holds, so its age says nothing about who loaded last.
-/

namespace Evergreen

/-- The name under which an entry is kept. -/
abbrev Key := String

/-- What is cached. -/
abbrev Value := String

/-- A cached value with its birth time and lifetimes. -/
structure Entry where
  value : Value
  since : Nat
  hard : Nat
  soft : Nat
  /-- Whether a failed load wrote the value back. -/
  carried : Bool := false
  deriving DecidableEq, Repr

/-- The shortest hard lifetime. -/
def minHardTtl : Nat := Clock.millisecond

/-- The rules for a pair of lifetimes; the hard one is looked at first. -/
def checkTtls (hard soft : Nat) : Except ConfigFault Unit :=
  if hard < minHardTtl then .error .zeroHardTtl
  else if hard < soft then .error (.softExceedsHard soft hard)
  else .ok ()

/-- The lifetimes pass iff the hard one is at least a millisecond and the soft one within
it. -/
theorem checkTtls_eq_ok_iff {hard soft : Nat} :
    checkTtls hard soft = .ok () ↔ minHardTtl ≤ hard ∧ soft ≤ hard := by
  unfold checkTtls
  split
  · simp; omega
  · split <;> simp <;> omega

namespace Entry

/-- An entry made at `now` with lifetimes that passed before. -/
def stamped (now : Nat) (value : Value) (hard soft : Nat) : Entry :=
  { value, since := now, hard, soft }

/-- An entry made at `now`, if its lifetimes pass. -/
def create (now : Nat) (value : Value) (hard soft : Nat) : Except ConfigFault Entry := do
  checkTtls hard soft
  return stamped now value hard soft

/-- The same value as if it were made at `now`, marked as carried over. -/
def carriedOver (e : Entry) (now hard soft : Nat) : Entry :=
  { stamped now e.value hard soft with carried := true }

/-- The time since the entry was made; zero where the clock is before that. -/
def age (e : Entry) (now : Nat) : Nat := now - e.since

/-- Whether the entry wants a refresh. -/
def softExpired (e : Entry) (now : Nat) : Bool := e.soft < e.age now

/-- Whether the entry must not be served. -/
def hardExpired (e : Entry) (now : Nat) : Bool := e.hard < e.age now

/-- The time left until the entry must not be served, if there is any. -/
def expiresIn (e : Entry) (now : Nat) : Option Nat :=
  if e.age now < e.hard then some (e.hard - e.age now) else none

/-- Everything an entry shows at one clock reading. -/
structure Reading where
  entry : Entry
  age : Nat
  softExpired : Bool
  hardExpired : Bool
  expiresIn : Option Nat
  deriving DecidableEq, Repr

/-- The entry read at `now`. -/
def read (e : Entry) (now : Nat) : Reading :=
  ⟨e, e.age now, e.softExpired now, e.hardExpired now, e.expiresIn now⟩

def inspect (e : Entry) : String :=
  Text.record "CacheEntry" [
    ("value", Text.quoted e.value),
    ("since", Text.elapsed e.since),
    ("hard_ttl", Text.elapsed e.hard),
    ("soft_ttl", Text.elapsed e.soft),
    ("carried_over", Text.ofBool e.carried)]

/-- An entry can be made iff its lifetimes pass, and it is made now. -/
theorem create_eq_ok_iff {now hard soft : Nat} {value : Value} {e : Entry} :
    create now value hard soft = .ok e ↔
      e = stamped now value hard soft ∧ minHardTtl ≤ hard ∧ soft ≤ hard := by
  rw [← checkTtls_eq_ok_iff]
  show (checkTtls hard soft >>= fun _ => pure (stamped now value hard soft)) = _ ↔ _
  cases checkTtls hard soft with
  | error fault => simp [bind, Except.bind]
  | ok u => simp [bind, Except.bind, pure, Except.pure, eq_comm]

/-! ## Expiry in plain arithmetic -/

/-- An entry is stale once its soft lifetime is over, not at its end. -/
theorem softExpired_iff {e : Entry} {now : Nat} :
    e.softExpired now = true ↔ e.since + e.soft < now := by
  unfold softExpired age; rw [decide_eq_true_eq]; omega

/-- An entry is dead once its hard lifetime is over, not at its end. -/
theorem hardExpired_iff {e : Entry} {now : Nat} :
    e.hardExpired now = true ↔ e.since + e.hard < now := by
  unfold hardExpired age; rw [decide_eq_true_eq]; omega

/-- No time is left from the end of the hard lifetime on. At that very end the entry is not dead
yet. -/
theorem expiresIn_eq_none_iff {e : Entry} {now : Nat} :
    e.expiresIn now = none ↔ e.hard + e.since ≤ now ∨ e.hard = 0 := by
  unfold expiresIn age
  split <;> simp <;> omega

end Entry

end Evergreen
