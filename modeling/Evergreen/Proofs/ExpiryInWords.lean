import Evergreen.Proofs.NativeExpiry
import Evergreen.Proofs.OneMap

/-!
# Expiry in machine words

Entries and slots reckon with natural numbers. A machine has words: a duration is a 64-bit
number of seconds and a 32-bit number of nanoseconds below a second (`Timespan`), and a slot
keeps its deadline in a 64-bit word, where zero stands for no deadline. The expiry arithmetic is
written here once more, in such words, and shown to be the same: nothing overflows on the way,
and nothing is lost but what the 64-bit clock loses.

- `Timespan.total_minus?`, `total_minus`: a subtraction that borrows a second is exact, with
  nothing where it goes below zero, or zero;
- `Timespan.toNat_asNanos`, `toNat_reading`: all nanoseconds fit 128 bits, and 64 bits show them
  modulo a lap;
- `Timespan.noOverflow`: no sum, difference or product on the way leaves its word;
- `Entry.exactAt`, `Dates.agreesAt`: expiry is the comparison with the end of the lifetime, as
  a number that need not fit a duration, and in words it is the same;
- `Slot.wordExpired_deadlineWord`: a slot expires as the word of its deadline says;
- `Slot.expired_filled_iff_laps`, `hint_over_of_expired`: a slot counts as expired when its hint
  has run out and some whole laps have gone by since, up to the end of that lap, so never before
  the hint has run out;
- `ShardedStore.get_through`: until then the store gives the entry, whatever else it is asked;
- `expiry_exact_and_never_early`: all of it.
-/

namespace Evergreen

/-! ## Durations in words -/

/-- A duration in words: whole seconds, and nanoseconds below a second. -/
structure Timespan where
  secs : UInt64
  nanos : UInt32
  nanos_lt : nanos.toNat < Clock.second
  deriving DecidableEq, Repr

namespace Timespan

/-- The nanoseconds that it lasts. -/
def total (t : Timespan) : Nat := t.secs.toNat * Clock.second + t.nanos.toNat

/-- No time at all. -/
def zero : Timespan := ⟨0, 0, by decide⟩

/-- A second in the word that keeps the nanoseconds. -/
def second : UInt32 := 1000000000

/-- The order: seconds first, nanoseconds where those are the same. -/
def before (a b : Timespan) : Bool :=
  a.secs < b.secs || (a.secs == b.secs && a.nanos < b.nanos)

/-- The nanoseconds of a span make less than a second. -/
theorem nanos_toNat_lt (t : Timespan) : t.nanos.toNat < 1000000000 := t.nanos_lt

/-- A second more fits the word of the nanoseconds. -/
theorem toNat_nanos_add_second (t : Timespan) :
    (t.nanos + second).toNat = t.nanos.toNat + Clock.second := by
  have h := t.nanos_toNat_lt
  rw [UInt32.toNat_add, show second.toNat = Clock.second from rfl, Clock.second]
  omega

/-- The nanoseconds of a difference for which a second has to be borrowed. -/
theorem nanos_borrowed (a b : Timespan) :
    (a.nanos + second - b.nanos).toNat = a.nanos.toNat + Clock.second - b.nanos.toNat := by
  have hb := b.nanos_lt
  rw [UInt32.toNat_sub_of_le _ _ ?_, toNat_nanos_add_second]
  rw [UInt32.le_iff_toNat_le, toNat_nanos_add_second]
  omega

/-- The nanoseconds of a difference for which none has to be borrowed. -/
theorem nanos_unborrowed {a b : Timespan} (h : ¬ a.nanos < b.nanos) :
    (a.nanos - b.nanos).toNat = a.nanos.toNat - b.nanos.toNat :=
  UInt32.toNat_sub_of_le _ _ (UInt32.not_lt.1 h)

/-- The difference where no second is borrowed. -/
def plainly (a b : Timespan) (h : ¬ a.nanos < b.nanos) : Timespan where
  secs := a.secs - b.secs
  nanos := a.nanos - b.nanos
  nanos_lt := by
    rw [nanos_unborrowed h]
    exact Nat.lt_of_le_of_lt (Nat.sub_le ..) a.nanos_lt

/-- The difference where one is. -/
def borrowing (a b : Timespan) (h : a.nanos < b.nanos) : Timespan where
  secs := a.secs - b.secs - 1
  nanos := a.nanos + second - b.nanos
  nanos_lt := by
    rw [nanos_borrowed]
    rw [UInt32.lt_iff_toNat_lt] at h
    have hb := b.nanos_lt
    omega

/-- The difference, if it is not below zero: there may be fewer seconds, or none to borrow. -/
def minus? (a b : Timespan) : Option Timespan :=
  if a.secs < b.secs then none
  else if h : a.nanos < b.nanos then
    if a.secs - b.secs = 0 then none else some (a.borrowing b h)
  else some (a.plainly b h)

/-- The difference, or zero where it would be below. -/
def minus (a b : Timespan) : Timespan := (a.minus? b).getD zero

def isZero (t : Timespan) : Bool := t.secs == 0 && t.nanos == 0

/-- All nanoseconds in 128 bits. -/
def asNanos (t : Timespan) : BitVec 128 :=
  t.secs.toBitVec.setWidth 128 * 1000000000 + t.nanos.toBitVec.setWidth 128

/-- The nanoseconds that a 64-bit counter shows: the upper half is dropped. -/
def reading (t : Timespan) : UInt64 := .ofBitVec (t.asNanos.setWidth 64)

/-- The nanoseconds in 64 bits, if they fit. -/
def narrow? (t : Timespan) : Option UInt64 :=
  if t.asNanos ≤ 0xffffffffffffffff then some t.reading else none

/-- The sum of two words, if it fits a word: one that does not comes out less. -/
def checkedAdd? (a b : UInt64) : Option UInt64 := if a + b < a then none else some (a + b)

section Exact

variable {a b t : Timespan}

/-- Two words hold nothing beyond the longest span. -/
theorem total_le_longest (t : Timespan) : t.total ≤ Clock.longest := by
  have hs := t.secs.toNat_lt
  have hn := t.nanos_toNat_lt
  simp only [total, Clock.longest, Clock.second, wordSize]
  omega

/-- The durations are the numbers up to the longest one. -/
theorem exists_total_eq_iff {n : Nat} : (∃ t : Timespan, t.total = n) ↔ n ≤ Clock.longest := by
  constructor
  · rintro ⟨t, rfl⟩
    exact t.total_le_longest
  · intro h
    have hs : n / Clock.second < wordSize := by
      rw [Nat.div_lt_iff_lt_mul (by decide)]
      simp only [Clock.longest, Clock.second, wordSize] at h ⊢
      omega
    have hn : n % Clock.second < Clock.second := Nat.mod_lt n (by decide)
    have secs : (UInt64.ofNat (n / Clock.second)).toNat = n / Clock.second :=
      UInt64.toNat_ofNat_of_lt' hs
    have nanos : (UInt32.ofNat (n % Clock.second)).toNat = n % Clock.second :=
      UInt32.toNat_ofNat_of_lt' (Nat.lt_trans hn (by decide))
    refine ⟨⟨.ofNat (n / Clock.second), .ofNat (n % Clock.second), by rwa [nanos]⟩, ?_⟩
    rw [total, secs, nanos]
    exact Nat.div_add_mod' n Clock.second

/-- Spans compare as their lengths do. -/
theorem before_iff : a.before b = true ↔ a.total < b.total := by
  have ha := a.nanos_toNat_lt
  have hb := b.nanos_toNat_lt
  simp only [before, Bool.or_eq_true, Bool.and_eq_true, decide_eq_true_eq, beq_iff_eq,
    UInt64.lt_iff_toNat_lt, UInt32.lt_iff_toNat_lt, ← UInt64.toNat_inj, total, Clock.second]
  omega

theorem isZero_iff : t.isZero = true ↔ t.total = 0 := by
  simp only [isZero, Bool.and_eq_true, beq_iff_eq, ← UInt64.toNat_inj, ← UInt32.toNat_inj,
    total, Clock.second, UInt64.toNat_zero, UInt32.toNat_zero]
  omega

/-- Whole seconds do not go below zero where there are as many. -/
theorem toNat_secs_sub (hs : ¬ a.secs < b.secs) :
    (a.secs - b.secs).toNat = a.secs.toNat - b.secs.toNat :=
  UInt64.toNat_sub_of_le _ _ (UInt64.not_lt.1 hs)

theorem secs_sub_eq_zero_iff (hs : ¬ a.secs < b.secs) :
    a.secs - b.secs = 0 ↔ a.secs.toNat = b.secs.toNat := by
  rw [← UInt64.toNat_inj, toNat_secs_sub hs, UInt64.toNat_zero]
  rw [UInt64.not_lt, UInt64.le_iff_toNat_le] at hs
  omega

/-- A difference without a borrow is exact. -/
theorem total_plainly (hs : ¬ a.secs < b.secs) (hn : ¬ a.nanos < b.nanos) :
    b.total ≤ a.total ∧ (a.plainly b hn).total = a.total - b.total := by
  have secs := toNat_secs_sub hs
  have nanos := nanos_unborrowed hn
  rw [UInt64.not_lt, UInt64.le_iff_toNat_le] at hs
  rw [UInt32.not_lt, UInt32.le_iff_toNat_le] at hn
  simp only [total, plainly, secs, nanos, Clock.second]
  omega

/-- A difference that borrows a second is exact as well. -/
theorem total_borrowing (hs : ¬ a.secs < b.secs) (hzero : a.secs - b.secs ≠ 0)
    (hn : a.nanos < b.nanos) :
    b.total ≤ a.total ∧ (a.borrowing b hn).total = a.total - b.total := by
  have nanos := nanos_borrowed a b
  have hb := b.nanos_toNat_lt
  rw [Ne, secs_sub_eq_zero_iff hs] at hzero
  have secs : (a.secs - b.secs - 1).toNat = a.secs.toNat - b.secs.toNat - 1 := by
    rw [UInt64.toNat_sub_of_le _ _ ?_, toNat_secs_sub hs, UInt64.toNat_one]
    rw [UInt64.le_iff_toNat_le, UInt64.toNat_one, toNat_secs_sub hs]
    rw [UInt64.not_lt, UInt64.le_iff_toNat_le] at hs
    omega
  rw [UInt64.not_lt, UInt64.le_iff_toNat_le] at hs
  rw [UInt32.lt_iff_toNat_lt] at hn
  simp only [total, borrowing, secs, nanos, Clock.second]
  omega

/-- **A subtraction that borrows** is exact: there is a difference unless it is below zero. -/
theorem total_minus? (a b : Timespan) :
    (a.minus? b).map total = if b.total ≤ a.total then some (a.total - b.total) else none := by
  have ha := a.nanos_toNat_lt
  have hb := b.nanos_toNat_lt
  unfold minus?
  by_cases hs : a.secs < b.secs
  · rw [if_pos hs, if_neg, Option.map_none]
    rw [UInt64.lt_iff_toNat_lt] at hs
    simp only [total, Clock.second]
    omega
  · rw [if_neg hs]
    by_cases hn : a.nanos < b.nanos
    · rw [dif_pos hn]
      by_cases hzero : a.secs - b.secs = 0
      · rw [if_pos hzero, if_neg, Option.map_none]
        rw [secs_sub_eq_zero_iff hs] at hzero
        rw [UInt32.lt_iff_toNat_lt] at hn
        simp only [total, Clock.second]
        omega
      · obtain ⟨hle, heq⟩ := total_borrowing hs hzero hn
        rw [if_neg hzero, if_pos hle, Option.map_some, heq]
    · obtain ⟨hle, heq⟩ := total_plainly hs hn
      rw [dif_neg hn, if_pos hle, Option.map_some, heq]

/-- A subtraction that stops at zero is that of natural numbers. -/
theorem total_minus (a b : Timespan) : (a.minus b).total = a.total - b.total := by
  have h := total_minus? a b
  unfold minus
  cases hd : a.minus? b with
  | none =>
    rw [hd] at h
    split at h
    · cases h
    · rename_i hlt
      have hzero : zero.total = 0 := rfl
      show zero.total = _
      omega
  | some d =>
    rw [hd] at h
    split at h
    · exact Option.some.inj h
    · cases h

/-! ### Nanoseconds in one word -/

theorem toNat_wide_secs (t : Timespan) :
    (t.secs.toBitVec.setWidth 128).toNat = t.secs.toNat := by
  have h := t.secs.toNat_lt
  rw [BitVec.toNat_setWidth, UInt64.toNat_toBitVec]
  omega

theorem toNat_wide_nanos (t : Timespan) :
    (t.nanos.toBitVec.setWidth 128).toNat = t.nanos.toNat := by
  have h := t.nanos_toNat_lt
  rw [BitVec.toNat_setWidth, UInt32.toNat_toBitVec]
  omega

theorem toNat_wide_product (t : Timespan) :
    (t.secs.toBitVec.setWidth 128 * 1000000000).toNat = t.secs.toNat * Clock.second := by
  have hs := t.secs.toNat_lt
  rw [BitVec.toNat_mul, toNat_wide_secs, Clock.second,
    show (1000000000 : BitVec 128).toNat = 1000000000 from rfl]
  omega

/-- All nanoseconds fit 128 bits. -/
theorem toNat_asNanos (t : Timespan) : t.asNanos.toNat = t.total := by
  have hs := t.secs.toNat_lt
  have hn := t.nanos_toNat_lt
  rw [asNanos, BitVec.toNat_add, toNat_wide_product, toNat_wide_nanos, total, Clock.second]
  omega

/-- A 64-bit counter shows them modulo a lap. -/
theorem toNat_reading (t : Timespan) : t.reading.toNat = Clock.wrap t.total := by
  rw [reading, UInt64.toNat_ofBitVec, BitVec.toNat_setWidth, toNat_asNanos]
  rfl

/-- A length narrows to a word if it is below one lap, and else not at all. -/
theorem narrow?_eq (t : Timespan) :
    t.narrow?.map UInt64.toNat = if t.total < Clock.lap then some t.total else none := by
  have hfits : t.asNanos ≤ 0xffffffffffffffff ↔ t.total < Clock.lap := by
    rw [BitVec.le_def, toNat_asNanos]
    exact Nat.lt_succ_iff.symm
  unfold narrow?
  by_cases h : t.total < Clock.lap
  · rw [if_pos (hfits.2 h), if_pos h, Option.map_some, toNat_reading, Clock.wrap_of_lt h]
  · rw [if_neg (mt hfits.1 h), if_neg h, Option.map_none]

/-- A checked sum is the sum, if that fits a word. -/
theorem checkedAdd?_eq (a b : UInt64) :
    (checkedAdd? a b).map UInt64.toNat =
      if a.toNat + b.toNat < Clock.lap then some (a.toNat + b.toNat) else none := by
  have ha := a.toNat_lt
  have hb := b.toNat_lt
  unfold checkedAdd?
  have hless : a + b < a ↔ ¬ a.toNat + b.toNat < Clock.lap := by
    rw [UInt64.lt_iff_toNat_lt, UInt64.toNat_add, Clock.lap, wordSize]
    omega
  by_cases h : a.toNat + b.toNat < Clock.lap
  · rw [if_neg (fun hl => hless.1 hl h), if_pos h, Option.map_some, UInt64.toNat_add]
    exact congrArg some (Clock.wrap_of_lt h)
  · rw [if_pos (hless.2 h), if_neg h, Option.map_none]

/-- No word overflows where a duration is subtracted from another or counted in nanoseconds. -/
structure NoOverflow (a b : Timespan) : Prop where
  seconds : ¬ a.secs < b.secs → BitVec.usubOverflow a.secs.toBitVec b.secs.toBitVec = false
  nanos : ¬ a.nanos < b.nanos → BitVec.usubOverflow a.nanos.toBitVec b.nanos.toBitVec = false
  taken : a.secs - b.secs ≠ 0 → BitVec.usubOverflow (a.secs - b.secs).toBitVec 1 = false
  lent : BitVec.uaddOverflow a.nanos.toBitVec second.toBitVec = false
  repaid : BitVec.usubOverflow (a.nanos + second).toBitVec b.nanos.toBitVec = false
  product : BitVec.umulOverflow (a.secs.toBitVec.setWidth 128) 1000000000 = false
  sum : BitVec.uaddOverflow (a.secs.toBitVec.setWidth 128 * 1000000000)
    (a.nanos.toBitVec.setWidth 128) = false

/-- None of the operations on the way overflows. -/
theorem noOverflow (a b : Timespan) : a.NoOverflow b where
  seconds hs := decide_eq_false (mt UInt64.lt_iff_toNat_lt.2 hs)
  nanos hn := decide_eq_false (mt UInt32.lt_iff_toNat_lt.2 hn)
  taken hzero := by
    rw [Ne, ← UInt64.toNat_inj, UInt64.toNat_zero] at hzero
    exact decide_eq_false (Nat.not_lt.2 (Nat.one_le_iff_ne_zero.2 hzero))
  lent := by
    have ha := a.nanos_toNat_lt
    have hsum : a.nanos.toNat + Clock.second < 2 ^ 32 := by
      rw [Clock.second]
      omega
    exact decide_eq_false (Nat.not_le.2 hsum)
  repaid := by
    have hb := b.nanos_lt
    have hle : b.nanos.toNat ≤ (a.nanos + second).toNat := by
      rw [toNat_nanos_add_second]
      omega
    exact decide_eq_false (Nat.not_lt.2 hle)
  product := by
    have hs := a.secs.toNat_lt
    have hprod : (a.secs.toBitVec.setWidth 128).toNat * 1000000000 < 2 ^ 128 := by
      rw [toNat_wide_secs]
      omega
    exact decide_eq_false (Nat.not_le.2 hprod)
  sum := by
    have hs := a.secs.toNat_lt
    have hn := a.nanos_toNat_lt
    have hsum : (a.secs.toBitVec.setWidth 128 * 1000000000).toNat +
        (a.nanos.toBitVec.setWidth 128).toNat < 2 ^ 128 := by
      rw [toNat_wide_product, toNat_wide_nanos, Clock.second]
      omega
    exact decide_eq_false (Nat.not_le.2 hsum)

end Exact

end Timespan

/-! ## Entries -/

namespace Entry

/-- Expiry at a reading, as the comparison with the ends of the two lifetimes. Those are natural
numbers, and need not be the length of any duration. Before the entry is made, all of its
lifetime is left. -/
structure ExactAt (e : Entry) (now : Nat) : Prop where
  soft : e.softExpired now = true ↔ e.since + e.soft < now
  hard : e.hardExpired now = true ↔ e.since + e.hard < now
  left_before : now < e.since → 0 < e.hard → e.expiresIn now = some e.hard
  left_between : e.since ≤ now → now < e.since + e.hard →
    e.expiresIn now = some (e.since + e.hard - now)
  left_over : e.since + e.hard ≤ now → e.expiresIn now = none

/-- **What an entry says of its age** is exact at every reading of the clock. -/
theorem exactAt (e : Entry) (now : Nat) : e.ExactAt now where
  soft := softExpired_iff
  hard := hardExpired_iff
  left_before hbefore hhard := by
    have hage : e.age now = 0 := Nat.sub_eq_zero_of_le (Nat.le_of_lt hbefore)
    rw [expiresIn, hage, if_pos hhard, Nat.sub_zero]
  left_between hsince hlt := by
    have hage : e.age now < e.hard := by
      unfold age
      omega
    rw [expiresIn, if_pos hage, Option.some.injEq]
    unfold age
    omega
  left_over hover := expiresIn_eq_none_iff.2 (.inl (Nat.add_comm _ _ ▸ hover))

/-- No entry is made without a lifetime. -/
theorem hard_pos_of_create {now hard soft : Nat} {value : Value} {e : Entry}
    (h : create now value hard soft = .ok e) : 0 < e.hard := by
  obtain ⟨rfl, hmin, -⟩ := create_eq_ok_iff.1 h
  exact Nat.lt_of_lt_of_le (by decide) hmin

end Entry

/-- The birth and the lifetimes of an entry, in words. -/
structure Dates where
  since : Timespan
  hard : Timespan
  soft : Timespan
  deriving DecidableEq, Repr

namespace Dates

/-- The time since the birth; zero where the clock is before that. -/
def age (d : Dates) (now : Timespan) : Timespan := now.minus d.since

def softExpired (d : Dates) (now : Timespan) : Bool := d.soft.before (d.age now)

def hardExpired (d : Dates) (now : Timespan) : Bool := d.hard.before (d.age now)

/-- The time left, if there is any. -/
def expiresIn (d : Dates) (now : Timespan) : Option Timespan :=
  (d.hard.minus? (d.age now)).filter fun left => !left.isZero

/-- An entry with these dates. -/
def entry (d : Dates) (value : Value) (carried : Bool) : Entry :=
  { value, since := d.since.total, hard := d.hard.total, soft := d.soft.total, carried }

/-- What an entry shows at a reading, it shows in words. -/
structure AgreesAt (d : Dates) (e : Entry) (now : Timespan) : Prop where
  age : (d.age now).total = e.age now.total
  soft : d.softExpired now = e.softExpired now.total
  hard : d.hardExpired now = e.hardExpired now.total
  left : (d.expiresIn now).map Timespan.total = e.expiresIn now.total

/-- The remainder of a hard lifetime is exact, and there is none once it is used up. -/
theorem total_expiresIn (d : Dates) (now : Timespan) :
    (d.expiresIn now).map Timespan.total =
      if (d.age now).total < d.hard.total then some (d.hard.total - (d.age now).total)
      else none := by
  have hdiff := d.hard.total_minus? (d.age now)
  unfold expiresIn
  cases hd : d.hard.minus? (d.age now) with
  | none =>
    rw [hd] at hdiff
    by_cases hle : (d.age now).total ≤ d.hard.total
    · rw [if_pos hle] at hdiff
      cases hdiff
    · rw [if_neg (fun hlt => hle (Nat.le_of_lt hlt))]
      rfl
  | some left =>
    rw [hd] at hdiff
    by_cases hle : (d.age now).total ≤ d.hard.total
    · rw [if_pos hle, Option.map_some, Option.some.injEq] at hdiff
      -- a difference of zero is filtered out, and only that
      by_cases hlt : (d.age now).total < d.hard.total
      · have hleft : left.isZero = false := by
          rw [Bool.eq_false_iff, Ne, Timespan.isZero_iff]
          omega
        simp [hleft, hdiff, hlt]
      · have hleft : left.isZero = true := by
          rw [Timespan.isZero_iff]
          omega
        simp [hleft, hlt]
    · rw [if_neg hle] at hdiff
      cases hdiff

/-- Dates and the entry made of them say the same. -/
theorem agreesAt (d : Dates) (value : Value) (carried : Bool) (now : Timespan) :
    d.AgreesAt (d.entry value carried) now := by
  have hage : (d.age now).total = (d.entry value carried).age now.total :=
    Timespan.total_minus now d.since
  refine ⟨hage, ?_, ?_, ?_⟩
  · rw [Bool.eq_iff_iff, softExpired, Timespan.before_iff, hage, Entry.softExpired,
      decide_eq_true_eq]
    rfl
  · rw [Bool.eq_iff_iff, hardExpired, Timespan.before_iff, hage, Entry.hardExpired,
      decide_eq_true_eq]
    rfl
  · rw [total_expiresIn, hage]
    rfl

end Dates

/-! ## Slots -/

namespace Slot

/-- The deadline that the time left sets, if it fits a word: that time after what the 64-bit clock
shows. -/
def deadlineWord? (now left : Timespan) : Option UInt64 :=
  left.narrow?.bind (Timespan.checkedAdd? now.reading)

/-- The word that keeps the deadline a hint sets; zero where there is none. -/
def deadlineWord (now : Timespan) (hint : Option Timespan) : UInt64 :=
  (hint.bind (deadlineWord? now)).getD 0

/-- Whether the 64-bit clock has reached a deadline that is one. -/
def wordExpired (deadline : UInt64) (now : Timespan) : Bool :=
  0 < deadline && deadline ≤ now.reading

/-- The deadline in words is the one in numbers, unless the lap ends before it. -/
theorem map_deadlineWord? (now left : Timespan) :
    (deadlineWord? now left).map UInt64.toNat =
      if left.total < Clock.lap ∧ Clock.wrap now.total + left.total < Clock.lap
      then some (Clock.wrap now.total + left.total) else none := by
  have hnarrow := left.narrow?_eq
  unfold deadlineWord?
  by_cases hleft : left.total < Clock.lap
  · rw [if_pos hleft, Option.map_eq_some_iff] at hnarrow
    obtain ⟨nanos, hnanos, hvalue⟩ := hnarrow
    rw [hnanos, Option.bind_some, Timespan.checkedAdd?_eq, now.toNat_reading, hvalue]
    simp only [hleft, true_and]
  · rw [if_neg hleft, Option.map_eq_none_iff] at hnarrow
    rw [hnarrow, if_neg (fun h => hleft h.1), Option.bind_none, Option.map_none]

/-- The word is the deadline, and zero where there is none. -/
theorem toNat_deadlineWord (now : Timespan) (hint : Option Timespan) :
    (deadlineWord now hint).toNat =
      (deadline? now.total (hint.map Timespan.total)).getD 0 := by
  cases hint with
  | none => rfl
  | some left =>
    have hword : (deadlineWord now (some left)).toNat =
        ((deadlineWord? now left).map UInt64.toNat).getD 0 := by
      rw [deadlineWord, Option.bind_some]
      cases deadlineWord? now left <;> rfl
    rw [hword, map_deadlineWord?, Option.map_some]
    -- a deadline of zero is kept as if there were none
    by_cases hzero : Clock.wrap now.total + left.total = 0
    · have hnone : deadline? now.total (some left.total) = none := by
        rw [deadline?, if_neg]
        omega
      rw [hnone, hzero]
      split <;> rfl
    · simp only [deadline?, Nat.pos_of_ne_zero hzero, and_true]

/-- A slot expires as its word says. -/
theorem wordExpired_deadlineWord (e : Entry) (now late : Timespan) (hint : Option Timespan) :
    wordExpired (deadlineWord now hint) late =
      (filled now.total e (hint.map Timespan.total)).expired late.total := by
  have hexpired : wordExpired (deadlineWord now hint) late = true ↔
      0 < (deadline? now.total (hint.map Timespan.total)).getD 0 ∧
        (deadline? now.total (hint.map Timespan.total)).getD 0 ≤ Clock.wrap late.total := by
    rw [← toNat_deadlineWord, ← late.toNat_reading, ← UInt64.le_iff_toNat_le,
      ← UInt64.toNat_zero, ← UInt64.lt_iff_toNat_lt, wordExpired, Bool.and_eq_true,
      decide_eq_true_eq, decide_eq_true_eq]
  rw [Bool.eq_iff_iff, hexpired, expired_iff]
  constructor
  · rintro ⟨hpos, hcome⟩
    cases hd : deadline? now.total (hint.map Timespan.total) with
    | none =>
      rw [hd] at hpos
      exact absurd hpos (Nat.lt_irrefl 0)
    | some d =>
      rw [hd] at hcome
      exact ⟨d, hd, hcome⟩
  · rintro ⟨d, hd, hcome⟩
    obtain ⟨-, -, -, -, hpos⟩ := deadline?_eq_some_iff.1 hd
    rw [show deadline? now.total (hint.map Timespan.total) = some d from hd]
    exact ⟨hpos, hcome⟩

/-- **Going round only delays:** at a reading from the write on, a slot counts as expired when
its hint has run out and the clock has gone round some whole number of times since, from then up
to the end of that lap. -/
theorem expired_filled_iff_laps {e : Entry} {now late : Nat} {hint : Option Nat}
    (hle : now ≤ late) :
    (filled now e hint).expired late = true ↔
      ∃ left laps, hint = some left ∧ 0 < Clock.wrap now + left ∧
        now + laps * Clock.lap + left ≤ late ∧
        late < now - Clock.wrap now + (laps + 1) * Clock.lap := by
  rw [expired_iff]
  constructor
  · rintro ⟨d, hd, hcome⟩
    obtain ⟨left, rfl, rfl, hlap, hpos⟩ := deadline?_eq_some_iff.1 hd
    refine ⟨left, late / Clock.lap - now / Clock.lap, rfl, hpos, ?_, ?_⟩
    · simp only [Clock.wrap, Clock.lap, wordSize] at *
      omega
    · simp only [Clock.wrap, Clock.lap, wordSize] at *
      omega
  · rintro ⟨left, laps, rfl, hpos, hfrom, hto⟩
    refine ⟨Clock.wrap now + left, deadline?_eq_some_iff.2 ⟨left, rfl, rfl, ?_, hpos⟩, ?_⟩
    · simp only [Clock.wrap, Clock.lap, wordSize] at *
      omega
    · simp only [Clock.wrap, Clock.lap, wordSize] at *
      omega

/-- So it never does before its hint has run out. -/
theorem hint_over_of_expired {e : Entry} {now late : Nat} {hint : Option Nat}
    (hle : now ≤ late) (hx : (filled now e hint).expired late = true) :
    ∃ left, hint = some left ∧ now + left ≤ late := by
  obtain ⟨left, laps, hhint, -, hfrom, -⟩ := (expired_filled_iff_laps hle).1 hx
  refine ⟨left, hhint, ?_⟩
  calc now + left ≤ now + laps * Clock.lap + left := Nat.add_le_add_right (Nat.le_add_right ..) _
    _ ≤ late := hfrom

/-- Not read until the next lap, a slot counts as unexpired until its hint runs out once more. -/
example :
    let slot := filled 3 (Entry.stamped 3 "v" 10 10) (some 5)
    slot.expired 7 = false ∧ slot.expired 8 = true ∧
      slot.expired (Clock.lap + 7) = false ∧ slot.expired (Clock.lap + 8) = true := by
  decide

/-- A hint has not run out at a reading: there is none, or the reading is before its end. -/
def Outlasts (hint : Option Nat) (now late : Nat) : Prop :=
  now ≤ late ∧ ∀ left, hint = some left → late < now + left

/-- A slot does not expire while its hint has not run out. -/
theorem Outlasts.not_expired {e : Entry} {now late : Nat} {hint : Option Nat}
    (h : Outlasts hint now late) : (filled now e hint).expired late = false := by
  rw [Bool.eq_false_iff]
  intro hx
  obtain ⟨left, hhint, hover⟩ := hint_over_of_expired h.1 hx
  have hlt := h.2 left hhint
  omega

end Slot

/-! ## Stores -/

namespace ShardedStore

/-- A call that neither writes nor removes what is under a key. -/
def Call.Spares (k : Key) : Call → Prop
  | .set k' _ _ => k' ≠ k
  | .remove k' => k' ≠ k
  | .clear => False
  | .get _ => True
  | .size => True
  | .isEmpty => True
  | .purge => True

/-- The store after calls, each made at its reading of the clock. -/
def through (s : ShardedStore) : List (Nat × Call) → ShardedStore
  | [] => s
  | (now, c) :: calls => (s.call now c).2.through calls

section Spared

variable {s : ShardedStore} {k : Key} {slot : Slot} {now : Nat}

/-- A slot stays that has not expired, if its key is spared. -/
theorem slot?_call {c : Call} (hs : s.slot? k = some slot) (hc : c.Spares k)
    (hx : slot.expired now = false) : (s.call now c).2.slot? k = some slot := by
  cases c with
  | set k' e hint =>
    show (s.onShard k' _).slot? k = _
    rw [slot?_insert, if_neg (Ne.symm hc), hs]
  | get k' =>
    show (s.get now k').2.slot? k = _
    by_cases hk : k = k'
    · subst hk
      rw [slot?_get_self, hs]
      simp [Option.filter, hx]
    · rw [slot?_get_other s now hk, hs]
  | remove k' =>
    show (s.onShard k' _).slot? k = _
    rw [slot?_erase, if_neg (Ne.symm hc), hs]
  | clear => exact hc.elim
  | size => exact hs
  | isEmpty => exact hs
  | purge =>
    show (s.purge now).2.slot? k = _
    rw [slot?_purge, hs]
    simp [Option.filter, hx]

/-- A slot is there after calls that are not about it and do not find it expired. -/
theorem slot?_through {calls : List (Nat × Call)} (hs : s.slot? k = some slot)
    (hcalls : ∀ p ∈ calls, p.2.Spares k ∧ slot.expired p.1 = false) :
    (s.through calls).slot? k = some slot := by
  induction calls generalizing s with
  | nil => exact hs
  | cons p calls ih =>
    obtain ⟨⟨hc, hx⟩, hcalls⟩ := List.forall_mem_cons.1 hcalls
    exact ih (slot?_call hs hc hx) hcalls

/-- A get finds the entry of a slot that has not expired. -/
theorem get_slot (hs : s.slot? k = some slot) (hx : slot.expired now = false) :
    (s.get now k).1 = some slot.entry := by
  unfold get
  rw [hs]
  simp [hx]

end Spared

/-- **Until the hint has run out** a get finds what was set, whatever the store was asked in
between but to write or remove under the key. -/
theorem get_through (s : ShardedStore) {k : Key} {e : Entry} {hint : Option Nat} {now late : Nat}
    {calls : List (Nat × Call)}
    (hcalls : ∀ p ∈ calls, p.2.Spares k ∧ Slot.Outlasts hint now p.1)
    (hlate : Slot.Outlasts hint now late) :
    (((s.set now k e hint).through calls).get late k).1 = some e := by
  have hset : (s.set now k e hint).slot? k = some (Slot.filled now e hint) := by
    show (s.onShard k _).slot? k = _
    rw [slot?_insert, if_pos rfl]
  have hslot := slot?_through hset fun p hp => (hcalls p hp).imp_right Slot.Outlasts.not_expired
  exact get_slot hslot hlate.not_expired

end ShardedStore

/-! ## All of it -/

/-- **Expiry is exact, and the store is never early.** The durations in words are the numbers up
to the longest one, and no word overflows where one is subtracted from another or counted in
nanoseconds. At every reading, before the birth of an entry as well, an entry is stale or past
its hard lifetime exactly if the reading is past the end of that lifetime, as a natural number,
and the time it says is left is exact; the same dates in words give the same, and no entry is
made without a lifetime. A slot in words expires as the slot does. At every reading from the
write on, however often the 64-bit clock has gone round, a slot of any hint counts as expired
only when the hint has run out, and so a store gives what was set until then, whatever it is
asked before, at whatever readings, that leaves the key alone. -/
theorem expiry_exact_and_never_early :
    (∀ n, (∃ t : Timespan, t.total = n) ↔ n ≤ Clock.longest) ∧
    (∀ a b : Timespan, a.NoOverflow b) ∧
    (∀ (e : Entry) (now : Nat), e.ExactAt now) ∧
    (∀ (now hard soft : Nat) (value : Value) (e : Entry),
      Entry.create now value hard soft = .ok e → 0 < e.hard) ∧
    (∀ (d : Dates) (value : Value) (carried : Bool) (now : Timespan),
      d.AgreesAt (d.entry value carried) now) ∧
    (∀ (e : Entry) (now late : Timespan) (hint : Option Timespan),
      Slot.wordExpired (Slot.deadlineWord now hint) late =
        (Slot.filled now.total e (hint.map Timespan.total)).expired late.total) ∧
    (∀ (e : Entry) (hint : Option Nat) (now late : Nat), now ≤ late →
      (Slot.filled now e hint).expired late = true →
        ∃ left, hint = some left ∧ now + left ≤ late) ∧
    (∀ (s : ShardedStore) (k : Key) (e : Entry) (hint : Option Nat) (now late : Nat)
      (calls : List (Nat × ShardedStore.Call)),
      (∀ p ∈ calls, p.2.Spares k ∧ Slot.Outlasts hint now p.1) → Slot.Outlasts hint now late →
        (((s.set now k e hint).through calls).get late k).1 = some e) :=
  ⟨fun _ => Timespan.exists_total_eq_iff, Timespan.noOverflow, Entry.exactAt,
    fun _ _ _ _ _ => Entry.hard_pos_of_create, Dates.agreesAt, Slot.wordExpired_deadlineWord,
    fun _ _ _ _ => Slot.hint_over_of_expired, fun s _ _ _ _ _ _ => s.get_through⟩

/-- An entry made five nanoseconds before the last reading there is, for as long as can be. -/
def lateborn : Entry := Entry.stamped (Clock.longest - 5) "v" Clock.longest Clock.second

/-- Its end is no duration, and is reckoned with all the same. In a store it is set with a hint
of five, two nanoseconds before the clock starts again: it is found in the next lap, two before
the hint runs out. -/
theorem expiry_exact_and_never_early_lateborn :
    let s := ShardedStore.create String.length 3
    let calls := [(Clock.lap, ShardedStore.Call.purge), (Clock.lap, .remove "other")]
    Clock.longest < lateborn.since + lateborn.hard ∧
      lateborn.hardExpired Clock.longest = false ∧
      lateborn.expiresIn 3 = some Clock.longest ∧
      lateborn.expiresIn Clock.longest = some (Clock.longest - 5) ∧
      (((s.set (Clock.lap - 2) "k" lateborn (some 5)).through calls).get (Clock.lap + 1) "k").1 =
        some lateborn := by
  intro s calls
  obtain ⟨-, -, hexact, hcreate, -, -, -, hstore⟩ := expiry_exact_and_never_early
  have hhard : 0 < lateborn.hard :=
    hcreate (Clock.longest - 5) Clock.longest Clock.second "v" lateborn rfl
  have houtlasts : ∀ late, Clock.lap - 2 ≤ late → late < Clock.lap - 2 + 5 →
      Slot.Outlasts (some 5) (Clock.lap - 2) late := by
    rintro late hle hlt
    refine ⟨hle, fun left hleft => ?_⟩
    cases hleft
    exact hlt
  refine ⟨by decide, ?_, (hexact lateborn 3).left_before (by decide) hhard,
    (hexact lateborn Clock.longest).left_between (by decide) (by decide), ?_⟩
  · rw [Bool.eq_false_iff, Ne, (hexact lateborn Clock.longest).hard]
    decide
  · refine hstore s "k" lateborn (some 5) _ _ calls ?_ (houtlasts _ (by decide) (by decide))
    intro p hp
    have hlap := houtlasts Clock.lap (by decide) (by decide)
    rcases List.mem_pair.1 hp with rfl | rfl
    · exact ⟨trivial, hlap⟩
    · exact ⟨(by decide : "other" ≠ "k"), hlap⟩

end Evergreen
