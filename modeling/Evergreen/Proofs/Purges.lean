import Evergreen.Proofs.Lifetimes
import Evergreen.Proofs.NativeExpiry

/-!
# What a purge leaves

A memory store purges by the deadlines of its slots, which are set when something is put there,
from the time that is left to it then. An entry with no time left gets no deadline, as one that
never expires would, so no purge ever drops it. Sets and loads put in entries with time left; it
is only an entry made earlier, and handed to the cache when its time is over, that stays.

- `undated_after_takesDead`: such an entry stands in a slot without a deadline;
- `Undated.run`: and goes on doing so, whatever is put there later;
- `Timed.run`: an entry that was never put under a key too late has its deadline in time, or none
  that the clock can come to;
- `purge_leaves_dead_iff`: so a purge leaves a dead entry exactly if it was put there dead;
- `no_dead_after_purge`, `dead_entry_survives_purge`: both ends of it.
-/

namespace Evergreen

namespace Cache

/-- An entry that has no time left is handed to the cache under a key, and taken. -/
structure TakesDead (k : Key) (e : Entry) (c : Cache) (m : Move) : Prop where
  move : m = .setEntry k e
  taken : (c.setEntry k e).1 = .ok true
  dead : e.since + e.hard ≤ c.now

/-- Under a key, an entry stands in no slot with a deadline. -/
def Undated (k : Key) (e : Entry) (c : Cache) : Prop :=
  ∀ slot, c.backing.slot? k = some slot → slot.entry = e → slot.deadline = none

/-- Under a key, an entry stands in no slot without a deadline by the end of its hard lifetime,
if that comes before the 64-bit clock starts again. -/
def Timed (k : Key) (e : Entry) (c : Cache) : Prop :=
  ∀ slot, c.backing.slot? k = some slot → slot.entry = e → e.since + e.hard < Clock.lap →
    ∃ d, slot.deadline = some d ∧ d ≤ e.since + e.hard

section Moves

variable {c : Cache} {m : Move} {k : Key} {e : Entry}

/-- Sets and loads put in entries that have time left. -/
theorem takesDead_iff (hc : c.Sane) :
    TakesDead k e c m ↔ c.Puts k e m ∧ e.since + e.hard ≤ c.now := by
  constructor
  · rintro ⟨rfl, taken, dead⟩
    exact ⟨.setEntry e taken, dead⟩
  · rintro ⟨hput, dead⟩
    have hmin : 0 < minHardTtl := by decide
    cases hput with
    | setEntry e taken => exact ⟨rfl, taken, dead⟩
    | set v ttl h =>
      have hbuilt := Entry.built_of_create (create_of_set h)
      have hle := hbuilt.min_le_hard
      simp only [Entry.stamped] at hle dead
      omega
    | ended l o e hl hk hr hg hv =>
      have hle := ((Puts.ended l o e hl hk hr hg hv).built hc trivial).min_le_hard
      have hsince := since_of_result? hr
      omega

/-- In an empty store no entry stands without a deadline. -/
theorem timed_of_empty {s : ShardedStore} (hs : c.backing.store = .memory s)
    (hempty : ∀ k, s.slot? k = none) : Timed k e c := by
  intro slot hslot
  rw [Backing.slot?, hs, Store.slot?, hempty k] at hslot
  cases hslot

/-- What is put under a key has a deadline, unless its time is over or the clock starts again
before. -/
theorem deadline_of_puts (hmem : c.backing.store.isMemory = true) (hput : c.Puts k e m)
    (hm : c.Allows m) (hn : c.now < Clock.lap) {d : Nat} :
    (c.backing.store.filled c.now e (e.expiresIn c.now)).deadline = some d ↔
      c.now < e.since + e.hard ∧ e.since + e.hard < Clock.lap ∧ d = e.since + e.hard := by
  obtain ⟨s, hs⟩ := Store.isMemory_iff.1 hmem
  rw [hs]
  show (Slot.filled c.now e (e.expiresIn c.now)).deadline = some d ↔ _
  rw [Slot.deadline_filled (hput.since_le_now hm), Entry.HasDeadline, Clock.wrap_of_lt hn]
  omega

/-- What is put under a key when its time is over has no deadline. -/
theorem deadline_of_puts_over (hmem : c.backing.store.isMemory = true) (hput : c.Puts k e m)
    (hm : c.Allows m) (hn : c.now < Clock.lap) (hover : e.since + e.hard ≤ c.now) :
    (c.backing.store.filled c.now e (e.expiresIn c.now)).deadline = none := by
  rw [Option.eq_none_iff_forall_ne_some]
  intro d hd
  have hlt := ((deadline_of_puts hmem hput hm hn).1 hd).1
  omega

/-- An entry that is taken dead stands in a slot without a deadline. -/
theorem undated_after_takesDead (hmem : c.backing.store.isMemory = true)
    (h : TakesDead k e c m) (hm : c.Allows m) (hn : c.now < Clock.lap) :
    Undated k e (c.after m) := by
  obtain ⟨rfl, taken, dead⟩ := h
  have hput : c.Puts k e (.setEntry k e) := .setEntry e taken
  obtain ⟨s, hs⟩ := Store.isMemory_iff.1 hmem
  have hnone := deadline_of_puts_over hmem hput hm hn dead
  rw [hs] at hnone
  intro slot hslot _
  rw [slot?_of_puts hs hput, Option.some.injEq] at hslot
  rw [← hslot]
  exact hnone

/-- Once its time is over, no move gives an entry a deadline. -/
theorem Undated.after (h : Undated k e c) (hmem : c.backing.store.isMemory = true)
    (hm : c.Allows m) (hn : c.now < Clock.lap) (hover : e.since + e.hard ≤ c.now) :
    Undated k e (c.after m) := by
  intro slot hslot hentry
  rcases slot?_after_from hslot with hbefore | ⟨e', hput, rfl⟩
  · exact h slot hbefore hentry
  · rw [Store.filled_entry] at hentry
    subst hentry
    exact deadline_of_puts_over hmem hput hm hn hover

/-- An entry has its deadline in time after every move that does not take it dead. -/
theorem Timed.after (h : Timed k e c) (hc : c.Sane) (hmem : c.backing.store.isMemory = true)
    (hm : c.Allows m) (hn : c.now < Clock.lap) (hx : ¬ TakesDead k e c m) :
    Timed k e (c.after m) := by
  intro slot hslot hentry hlap
  rcases slot?_after_from hslot with hbefore | ⟨e', hput, rfl⟩
  · exact h slot hbefore hentry hlap
  · rw [Store.filled_entry] at hentry
    subst hentry
    have hleft : c.now < e'.since + e'.hard := by
      by_contra hover
      exact hx ((takesDead_iff hc).2 ⟨hput, Nat.le_of_not_lt hover⟩)
    exact ⟨_, (deadline_of_puts hmem hput hm hn).2 ⟨hleft, hlap, rfl⟩, Nat.le_refl _⟩

end Moves

section Runs

variable {c : Cache} {ms : List Move} {k : Key} {e : Entry}

theorem Undated.run (h : Undated k e c) (hmem : c.backing.store.isMemory = true)
    (hms : Along Allows c ms) (hn : (c.run ms).now < Clock.lap)
    (hover : e.since + e.hard ≤ c.now) : Undated k e (c.run ms) := by
  induction ms generalizing c with
  | nil => exact h
  | cons m ms ih =>
    have hstep := c.now_le_after m
    have hrest := (c.after m).now_le_run ms
    rw [run_cons] at hn
    exact ih (h.after hmem hms.1 (by omega) hover) ((c.isMemory_after m).trans hmem) hms.2 hn
      (by omega)

/-- An entry that was once taken dead has no deadline from then on. -/
theorem undated_run_of_sometime (hmem : c.backing.store.isMemory = true)
    (hms : Along Allows c ms) (hn : (c.run ms).now < Clock.lap)
    (h : Sometime (TakesDead k e) c ms) : Undated k e (c.run ms) := by
  induction ms generalizing c with
  | nil => exact h.elim
  | cons m ms ih =>
    have hstep := c.now_le_after m
    have hrest := (c.after m).now_le_run ms
    have hmem' := (c.isMemory_after m).trans hmem
    rw [run_cons] at hn
    rcases h with htaken | hlater
    · have hover := htaken.dead
      exact (undated_after_takesDead hmem htaken hms.1 (by omega)).run hmem' hms.2 hn
        (by omega)
    · exact ih hmem' hms.2 hn hlater

/-- An entry that was never taken dead has its deadline in time. -/
theorem Timed.run (h : Timed k e c) (hc : c.Sane) (hmem : c.backing.store.isMemory = true)
    (hms : Along Allows c ms) (hn : (c.run ms).now < Clock.lap)
    (hx : ¬ Sometime (TakesDead k e) c ms) : Timed k e (c.run ms) := by
  induction ms generalizing c with
  | nil => exact h
  | cons m ms ih =>
    have hstep := c.now_le_after m
    have hrest := (c.after m).now_le_run ms
    rw [run_cons] at hn
    refine ih (h.after hc hmem hms.1 (by omega) fun hm => hx (.inl hm)) (hc.after hms.1)
      ((c.isMemory_after m).trans hmem) hms.2 hn fun hlater => hx (.inr hlater)

end Runs

/-! ## Purges -/

section Purges

variable {c : Cache} {k : Key} {e : Entry}

/-- A purge leaves what stands in a slot whose deadline has not come. -/
theorem kept?_after_purge (hmem : c.backing.store.isMemory = true) :
    (c.after .purge).backing.kept? k = some e ↔
      ∃ slot, c.backing.slot? k = some slot ∧ slot.entry = e ∧ slot.expired c.now = false := by
  obtain ⟨s, hs⟩ := Store.isMemory_iff.1 hmem
  have hpurge : c.backing.store.purge? c.now =
      some ((s.purge c.now).1, .memory (s.purge c.now).2) := by rw [hs]; rfl
  have hafter : (c.after .purge).backing.kept? k = c.backing.store.find? c.now k := by
    rw [← Store.kept?_purge hpurge k]
    simp only [after, purged, hpurge]
    rfl
  rw [hafter, Store.find?_eq_slot?, Option.map_eq_some_iff]
  constructor
  · rintro ⟨slot, hslot, rfl⟩
    obtain ⟨hs, hx⟩ := Option.filter_eq_some_iff.1 hslot
    exact ⟨slot, hs, rfl, by simpa using hx⟩
  · rintro ⟨slot, hslot, rfl, hx⟩
    exact ⟨slot, Option.filter_eq_some_iff.2 ⟨hslot, by simpa using hx⟩, rfl⟩

/-- What has no deadline, a purge leaves. -/
theorem Undated.kept?_after_purge (h : Undated k e c) (hmem : c.backing.store.isMemory = true)
    (hkept : c.backing.kept? k = some e) : (c.after .purge).backing.kept? k = some e := by
  rw [Backing.kept?, Store.kept?_eq_slot?, Option.map_eq_some_iff] at hkept
  obtain ⟨slot, hslot, hentry⟩ := hkept
  refine (Cache.kept?_after_purge hmem).2 ⟨slot, hslot, hentry, ?_⟩
  simp [Slot.expired, h slot hslot hentry]

/-- What has its deadline in time, a purge drops when it is dead. -/
theorem Timed.kept?_after_purge (h : Timed k e c) (hmem : c.backing.store.isMemory = true)
    (hn : c.now < Clock.lap) (hdead : e.hardExpired c.now = true) :
    (c.after .purge).backing.kept? k ≠ some e := by
  rw [Ne, Cache.kept?_after_purge hmem]
  rintro ⟨slot, hslot, hentry, hx⟩
  rw [Entry.hardExpired_iff] at hdead
  obtain ⟨d, hd, hle⟩ := h slot hslot hentry (by omega)
  rw [Bool.eq_false_iff, Ne, Slot.expired_iff, Clock.wrap_of_lt hn] at hx
  exact hx ⟨d, hd, by omega⟩

end Purges

section Histories

variable {c : Cache} {s : ShardedStore} {ms : List Move} {k : Key} {e : Entry}

theorem isMemory_run (hs : c.backing.store = .memory s) (ms : List Move) :
    (c.run ms).backing.store.isMemory = true :=
  run_preserves (fun c m h => (c.isMemory_after m).trans h) (Store.isMemory_iff.2 ⟨s, hs⟩) ms

/-- A purge leaves nothing that is dead and was never handed to the cache so. -/
theorem live_of_never_takesDead (hc : c.Launched) (hs : c.backing.store = .memory s)
    (hempty : ∀ k, s.slot? k = none) (hms : Along Allows c ms) (hn : (c.run ms).now < Clock.lap)
    (hx : ¬ Sometime (TakesDead k e) c ms)
    (hleft : ((c.run ms).after .purge).backing.kept? k = some e) :
    e.hardExpired (c.run ms).now = false := by
  rw [Bool.eq_false_iff]
  intro hdead
  have htimed := (timed_of_empty hs hempty).run (sane_of_launched hc) (isMemory_run hs []) hms hn hx
  exact htimed.kept?_after_purge (isMemory_run hs ms) hn hdead hleft

/-- **A purge leaves nothing that is dead,** if the cache was handed nothing that was. -/
theorem no_dead_after_purge (hc : c.Launched) (hs : c.backing.store = .memory s)
    (hempty : ∀ k, s.slot? k = none) (hms : Along Allows c ms) (hn : (c.run ms).now < Clock.lap)
    (hx : Along (fun c m => ∀ k e, ¬ TakesDead k e c m) c ms) (k : Key) (e : Entry)
    (hleft : ((c.run ms).after .purge).backing.kept? k = some e) :
    e.hardExpired (c.run ms).now = false := by
  refine live_of_never_takesDead hc hs hempty hms hn ?_ hleft
  exact not_sometime_iff.2 (hx.mono fun _ _ hm => hm k e)

end Histories

/-- **What a purge leaves.** Let a cache be built over an empty memory store, and let anything
happen to it while the clock stays within its first lap. A purge then leaves an entry that is past
its hard lifetime exactly if the entry is there and was handed to the cache, at some time, when
its lifetime was over already. -/
theorem purge_leaves_dead_iff {c : Cache} {s : ShardedStore} {ms : List Move} {k : Key} {e : Entry}
    (hc : c.Launched) (hs : c.backing.store = .memory s) (hempty : ∀ k, s.slot? k = none)
    (hms : Along Allows c ms) (hn : (c.run ms).now < Clock.lap)
    (hdead : e.hardExpired (c.run ms).now = true) :
    ((c.run ms).after .purge).backing.kept? k = some e ↔
      (c.run ms).backing.kept? k = some e ∧ Sometime (TakesDead k e) c ms := by
  constructor
  · intro hleft
    obtain ⟨slot, hslot, hentry, -⟩ := (kept?_after_purge (isMemory_run hs ms)).1 hleft
    refine ⟨?_, ?_⟩
    · rw [Backing.kept?, Store.kept?_eq_slot?, Option.map_eq_some_iff]
      exact ⟨slot, hslot, hentry⟩
    · by_contra hnever
      rw [live_of_never_takesDead hc hs hempty hms hn hnever hleft] at hdead
      cases hdead
  · rintro ⟨hkept, htaken⟩
    have hundated := undated_run_of_sometime (isMemory_run hs []) hms hn htaken
    exact hundated.kept?_after_purge (isMemory_run hs ms) hkept

/-- Two seconds after an entry was made for one, it is handed to the cache. -/
def takenDead : List Move := [.tick (2 * Clock.second), .setEntry "profile" secondLong]

theorem allows_takenDead : Along Allows (overMemory .threads) takenDead :=
  ⟨trivial, ⟨by decide, by decide, by decide⟩, trivial⟩

theorem sometime_takesDead_takenDead :
    Sometime (TakesDead "profile" secondLong) (overMemory .threads) takenDead :=
  .inr (.inl ⟨rfl, rfl, by decide⟩)

/-- A purge leaves it. -/
theorem purge_leaves_dead_takenDead :
    (((overMemory .threads).run takenDead).after .purge).backing.kept? "profile" =
      some secondLong :=
  (purge_leaves_dead_iff (launched_overMemory .threads) rfl (by simp) allows_takenDead
    (by decide) (by decide)).2 ⟨rfl, sometime_takesDead_takenDead⟩

/-- **A dead entry can survive a purge:** there is a run of allowed moves over an empty memory
store, within the first lap of the clock, after which a purge leaves an entry that is past its
hard lifetime. -/
theorem dead_entry_survives_purge :
    ¬ ∀ (c : Cache) (s : ShardedStore) (ms : List Move) (k : Key) (e : Entry), c.Launched →
      c.backing.store = .memory s → (∀ k, s.slot? k = none) → Along Allows c ms →
      (c.run ms).now < Clock.lap → ((c.run ms).after .purge).backing.kept? k = some e →
      e.hardExpired (c.run ms).now = false := by
  intro h
  have hlive := h (overMemory .threads) _ takenDead "profile" secondLong
    (launched_overMemory .threads) rfl (by simp) allows_takenDead (by decide) rfl
  revert hlive
  decide

end Cache

end Evergreen
