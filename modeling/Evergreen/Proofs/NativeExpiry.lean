import Evergreen.Proofs.Deadlines
import Evergreen.Proofs.ModeTable

/-!
# Two notions of expiry

An entry says itself when it must not be served any more: when the clock is past the end of its
hard lifetime. The memory store keeps a deadline beside it, which the write sets from the time
the entry has left then, and lets go of the entry when the clock has come to the deadline. The
two agree at every reading but one.

- `deadline_filled`: the deadline of an entry is the end of its hard lifetime in the lap of the
  clock in which it was written, unless there was no time left or the lap ends before;
- `slot?_run`, `slot?_run_eq_or`: while nobody touches a key, its slot stays as it was filled
  until its deadline has come;
- `lookup_iff_before_deadline`: a lookup finds a usable entry exactly if the clock has not come
  to the deadline;
- `usable_entry_lost`: at the very end of its hard lifetime an entry is usable and gone.
-/

namespace Evergreen

/-! ## Deadlines -/

/-- Within a lap the wrapped clock runs on with the clock. -/
theorem Clock.wrap_eq_add {t t' : Nat} (h : t ≤ t') (hlap : wrap t + (t' - t) < lap) :
    wrap t' = wrap t + (t' - t) := by
  have hsplit : lap * (t / lap) + wrap t = t := Nat.div_add_mod t lap
  have ht' : t' = wrap t + (t' - t) + lap * (t / lap) := by omega
  calc wrap t' = (wrap t + (t' - t) + lap * (t / lap)) % lap := congrArg wrap ht'
    _ = (wrap t + (t' - t)) % lap := Nat.add_mul_mod_self_left ..
    _ = wrap t + (t' - t) := Nat.mod_eq_of_lt hlap

/-- An entry that is put in a slot at `now` gets a deadline: it has time left, and its time ends
in the lap that the 64-bit clock is in. -/
def Entry.HasDeadline (e : Entry) (now : Nat) : Prop :=
  now < e.since + e.hard ∧ Clock.wrap now + (e.since + e.hard - now) < Clock.lap

/-- **The deadline of an entry** is the end of its hard lifetime, as the 64-bit clock will show
it. -/
theorem Slot.deadline_filled {e : Entry} {now d : Nat} (he : e.since ≤ now) :
    (Slot.filled now e (e.expiresIn now)).deadline = some d ↔
      e.HasDeadline now ∧ d = Clock.wrap now + (e.since + e.hard - now) := by
  have hleft : ∀ left, e.expiresIn now = some left ↔
      now < e.since + e.hard ∧ left = e.since + e.hard - now := by
    intro left
    unfold Entry.expiresIn Entry.age
    split
    · rw [Option.some.injEq]
      omega
    · simp only [reduceCtorEq, false_iff, not_and]
      omega
  show deadline? now (e.expiresIn now) = some d ↔ _
  rw [Slot.deadline?_eq_some_iff]
  constructor
  · rintro ⟨left, hl, rfl, hlap, -⟩
    obtain ⟨hlt, rfl⟩ := (hleft left).1 hl
    exact ⟨⟨hlt, hlap⟩, rfl⟩
  · rintro ⟨⟨hlt, hlap⟩, rfl⟩
    exact ⟨_, (hleft _).2 ⟨hlt, rfl⟩, rfl, hlap, by omega⟩

/-- Of a usable entry the deadline has come exactly at the end of the hard lifetime. -/
theorem Slot.expired_filled_iff {e : Entry} {now late : Nat} (he : e.since ≤ now)
    (hle : now ≤ late) (hlate : late ≤ e.since + e.hard) :
    (Slot.filled now e (e.expiresIn now)).expired late = true ↔
      late = e.since + e.hard ∧ e.HasDeadline now := by
  rw [expired_iff]
  constructor
  · rintro ⟨d, hd, hcome⟩
    obtain ⟨hhas, rfl⟩ := (deadline_filled he).1 hd
    have hlap := hhas.2
    rw [Clock.wrap_eq_add hle (by omega)] at hcome
    exact ⟨by omega, hhas⟩
  · rintro ⟨rfl, hhas⟩
    exact ⟨_, (deadline_filled he).2 ⟨hhas, rfl⟩,
      Nat.le_of_eq (Clock.wrap_eq_add hle hhas.2).symm⟩

/-! ## Slots that nobody touches -/

section Calls

variable {P : Backing.Effect → Prop} {now : Nat} {b b' : Backing} {k : Key} {slot : Slot}

/-- A slot stays whose deadline has not come, unless its key is written, removed or cleared. -/
theorem Backing.Calls.slot?_eq (h : Calls P now b b') (hb : b.slot? k = some slot)
    (hx : slot.expired now = false) (hset : ∀ e, ¬ P (.set k e)) (hremove : ¬ P (.remove k))
    (hclear : ¬ P .clear) : b'.slot? k = some slot := by
  refine h.preserves (I := fun b => b.slot? k = some slot) hb ?_ ?_ ?_ ?_
  · intro b k' hb
    rw [slot?_get, hb]
    simp [Option.filter, hx]
  · intro b k' e hb he
    rw [slot?_set, if_neg, hb]
    rintro ⟨hv, rfl⟩
    exact hset e (he hv)
  · intro b k' hb hk
    rw [slot?_remove, if_neg, hb]
    rintro ⟨hv, rfl⟩
    exact hremove (hk hv)
  · intro b hb hc
    rw [slot?_clear, if_neg, hb]
    exact fun hv => hclear (hc hv)

end Calls

namespace Cache

/-- A move that neither writes nor removes what is under a key. -/
structure LeavesAlone (k : Key) (c : Cache) (m : Move) : Prop where
  unwritten : ∀ e, ¬ c.Puts k e m
  unremoved : ¬ c.Removes k m

section Moves

variable {c : Cache} {m : Move} {k : Key} {slot : Slot}

theorem LeavesAlone.not_set (h : LeavesAlone k c m) (e : Entry) :
    ¬ c.Causes m (.set k e) := by
  intro hcause
  cases hcause with
  | put hput => exact h.unwritten e hput

/-- A move that leaves a key alone leaves its slot, while the entry there is usable and its
deadline has not come. -/
theorem slot?_after (h : LeavesAlone k c m) (hs : c.backing.slot? k = some slot)
    (hx : slot.expired c.now = false) (hh : slot.entry.hardExpired c.now = false) :
    (c.after m).backing.slot? k = some slot := by
  rcases c.backing_after m with hcalls | ⟨-, n, store, hp, hb⟩ | ⟨f, -, hb⟩
  · refine hcalls.slot?_eq hs hx h.not_set ?_ ?_
    · intro hcause
      cases hcause with
      | removed hr => exact h.unremoved hr
      | evicted hfind he =>
        -- what a lookup finds under the key is the entry of this slot, and that is usable
        have hslot : c.backing.store.slot? k = some slot := hs
        rw [Store.find?_eq_slot?, hslot] at hfind
        simp only [Option.filter, hx, Bool.not_false, if_true, Option.map_some,
          Option.some.injEq] at hfind
        rw [hfind, he] at hh
        cases hh
    · intro hcause
      cases hcause with
      | cleared hr => exact h.unremoved (hr k)
  · rw [hb]
    show store.slot? k = _
    rw [Store.slot?_purge hp, show c.backing.store.slot? k = some slot from hs]
    simp [Option.filter, hx]
  · rw [hb]
    exact hs

/-- A move that leaves a key alone leaves its slot or drops it. -/
theorem slot?_after_eq_or (h : LeavesAlone k c m) :
    (c.after m).backing.slot? k = c.backing.slot? k ∨
      (c.after m).backing.slot? k = none := by
  cases hs : (c.after m).backing.slot? k with
  | none => exact .inr rfl
  | some slot =>
    rcases slot?_after_from hs with hbefore | ⟨e, hput, -⟩
    · exact .inl hbefore.symm
    · exact absurd hput (h.unwritten e)

end Moves

section Runs

variable {c : Cache} {ms : List Move} {k : Key} {slot : Slot}

/-- **While nobody touches its key,** a slot stays as long as its entry is usable and its
deadline has not come. -/
theorem slot?_run (h : Along (LeavesAlone k) c ms) (hs : c.backing.slot? k = some slot)
    (hx : ∀ t, c.now ≤ t → t ≤ (c.run ms).now →
      slot.expired t = false ∧ slot.entry.hardExpired t = false) :
    (c.run ms).backing.slot? k = some slot := by
  induction ms generalizing c with
  | nil => exact hs
  | cons m ms ih =>
    obtain ⟨hm, hms⟩ := h
    have hstep := c.now_le_after m
    have hrest := (c.after m).now_le_run ms
    obtain ⟨hexp, hhard⟩ := hx c.now (Nat.le_refl _) (Nat.le_trans hstep hrest)
    exact ih hms (slot?_after hm hs hexp hhard)
      fun t ht => hx t (Nat.le_trans hstep ht)

/-- While nobody touches its key, a slot is never filled with anything else. -/
theorem slot?_run_eq_or (h : Along (LeavesAlone k) c ms) :
    (c.run ms).backing.slot? k = c.backing.slot? k ∨
      (c.run ms).backing.slot? k = none := by
  induction ms generalizing c with
  | nil => exact .inl rfl
  | cons m ms ih =>
    obtain ⟨hm, hms⟩ := h
    rcases ih hms with hrest | hrest
    · rcases slot?_after_eq_or hm with hstep | hstep
      · exact .inl (hrest.trans hstep)
      · exact .inr (hrest.trans hstep)
    · exact .inr hrest

end Runs

/-! ## An entry in its slot -/

section Entries

variable {c : Cache} {m : Move} {k : Key} {e : Entry}

/-- A write fills the slot of its key. -/
theorem slot?_write (c : Cache) (k : Key) (e : Entry) (hv : c.backing.verdict .set = .pass) :
    (c.write k e).2.backing.slot? k =
      some (c.backing.store.filled c.now e (e.expiresIn c.now)) := by
  rw [backing_write, Backing.slot?_set, if_pos ⟨hv, rfl⟩]

/-- Whatever puts an entry under a key, the entry stands in a slot filled by the clock of the
move. -/
theorem slot?_of_puts {s : ShardedStore} (hs : c.backing.store = .memory s)
    (h : c.Puts k e m) :
    (c.after m).backing.slot? k = some (Slot.filled c.now e (e.expiresIn c.now)) := by
  have hwrite (e : Entry) (hv : c.backing.verdict .set = .pass) :
      (c.write k e).2.backing.slot? k = some (Slot.filled c.now e (e.expiresIn c.now)) := by
    rw [slot?_write c k e hv, hs]
    rfl
  cases h with
  | set v ttl h =>
    rcases c.set_eq_or k v ttl with ⟨fault, hset⟩ | hset
    · rw [hset] at h
      cases h
    · rw [hset] at h
      show (c.set k v ttl).2.backing.slot? k = _
      rw [hset]
      exact hwrite _ ((c.write_fst k _).1 (by simpa using h))
  | setEntry e h =>
    rcases c.setEntry_eq_or k e with ⟨fault, hset⟩ | hset
    · rw [hset] at h
      cases h
    · rw [hset] at h
      show (c.setEntry k e).2.backing.slot? k = _
      rw [hset]
      exact hwrite _ ((c.write_fst k e).1 (by simpa using h))
  | ended l o e hl hk hr hg hv =>
    subst hk
    -- the guard has read the store before, which leaves it a memory store
    have hget : ∃ s', (c.backing.get c.now l.key).2.store = .memory s' := by
      unfold Backing.get
      split <;> rw [hs] <;> exact ⟨_, rfl⟩
    obtain ⟨s', hs'⟩ := hget
    have hv' : (c.backing.get c.now l.key).2.verdict .set = .pass :=
      (c.verdict_fetch l.key).trans hv
    rw [after_finish hl, backing_finish, hr]
    dsimp only
    rw [backing_writeLoaded, hg, if_neg (by simp), Backing.slot?_set, if_pos ⟨hv', rfl⟩, hs']
    rfl

/-- What puts an entry somewhere takes no time. -/
theorem Puts.now_eq (h : c.Puts k e m) : (c.after m).now = c.now := by
  rw [now_after]
  cases h <;> rfl

/-- A lookup finds the usable entry of a slot exactly if its deadline has not come. -/
theorem lookup_slot {slot : Slot} (hs : c.backing.slot? k = some slot)
    (hv : c.backing.verdict .get = .pass) (hh : slot.entry.hardExpired c.now = false) :
    (c.lookup k).1 = some slot.entry ↔ slot.expired c.now = false := by
  rw [lookup_fst, yields_eq_some_iff, Store.find?_eq_slot?,
    show c.backing.store.slot? k = some slot from hs]
  cases hx : slot.expired c.now <;> simp [Option.filter, hx, hv, hh]

end Entries

/-- **The memory store never takes away a usable entry before its last instant.** In a cache
over a memory store, let an entry be put under a key, by a set, as it is or by a load, and let
a run of any moves follow that neither writes nor removes the key. At a clock reading at which
the entry must still be served, a lookup that can read the store finds the entry, except at the
end of its hard lifetime to the nanosecond, where the entry had time left when it was written
and the 64-bit clock has not gone round since: the deadline has come then. -/
theorem lookup_iff_before_deadline {c : Cache} {m : Move} {k : Key} {e : Entry}
    {s : ShardedStore} {ms : List Move} (hs : c.backing.store = .memory s)
    (hput : c.Puts k e m) (hm : c.Allows m) (hms : Along (LeavesAlone k) (c.after m) ms)
    (hv : ((c.after m).run ms).backing.verdict .get = .pass)
    (hlate : e.hardExpired ((c.after m).run ms).now = false) :
    (((c.after m).run ms).lookup k).1 = some e ↔
      ¬ (((c.after m).run ms).now = e.since + e.hard ∧ e.HasDeadline c.now) := by
  have hsince := hput.since_le_now hm
  have hnow : c.now ≤ ((c.after m).run ms).now :=
    hput.now_eq ▸ (c.after m).now_le_run ms
  have hend : ((c.after m).run ms).now ≤ e.since + e.hard := by
    rw [Bool.eq_false_iff, Ne, Entry.hardExpired_iff] at hlate
    omega
  have hslot := slot?_of_puts hs hput
  rw [← Slot.expired_filled_iff hsince hnow hend, Bool.not_eq_true]
  constructor
  · -- the slot has stayed or was dropped; found, it has stayed
    intro hfound
    rcases slot?_run_eq_or hms with hstay | hgone
    · exact (lookup_slot (hstay.trans hslot) hv hlate).1 hfound
    · rw [lookup_fst, yields_eq_some_iff, Store.find?_eq_slot?,
        show ((c.after m).run ms).backing.store.slot? k = none from hgone] at hfound
      cases hfound.2.1
  · intro hx
    -- if the deadline has not come by now, it had not come at any reading before
    have hstay : ((c.after m).run ms).backing.slot? k =
        some (Slot.filled c.now e (e.expiresIn c.now)) := by
      refine slot?_run hms hslot fun t ht hle => ?_
      rw [hput.now_eq] at ht
      refine ⟨?_, ?_⟩
      · rw [Bool.eq_false_iff, Ne, Slot.expired_filled_iff hsince ht (by omega)]
        rw [Bool.eq_false_iff, Ne, Slot.expired_filled_iff hsince hnow hend] at hx
        rintro ⟨rfl, hhas⟩
        exact hx ⟨by omega, hhas⟩
      · show e.hardExpired t = false
        rw [Bool.eq_false_iff, Ne, Entry.hardExpired_iff]
        omega
    exact (lookup_slot hstay hv hlate).2 hx

/-- A cache just built over an empty memory store, at time zero. -/
def overMemory (executor : Executor) : Cache :=
  { overMap executor with
    backing := { store := .memory (ShardedStore.create (fun _ => 0) 1) } }

theorem launched_overMemory (executor : Executor) : (overMemory executor).Launched := by
  have hb : Blueprint.build
      { store := some (.memory (ShardedStore.create (fun _ => 0) 1))
        executor := some executor } 0 = .ok (overMemory executor) := rfl
  refine launched_of_build hb ?_
  rintro s hs k
  cases hs
  simp [Store.kept?]

theorem reachable_overMemory (executor : Executor) : (overMemory executor).Reachable :=
  .launched (launched_overMemory executor)

/-- A value is set for a second. -/
def setForSecond : Move := .set "profile" "new" Clock.second

/-- What it puts in the store. -/
def secondLong : Entry := Entry.stamped 0 "new" Clock.second Clock.second

theorem puts_secondLong (executor : Executor) :
    (overMemory executor).Puts "profile" secondLong setForSecond :=
  .set "new" Clock.second rfl

theorem leavesAlone_tick (k : Key) (c : Cache) (now : Nat) : LeavesAlone k c (.tick now) where
  unwritten := by rintro e ⟨⟩
  unremoved := by rintro ⟨⟩

/-- A nanosecond before its time is over, the entry is found. -/
theorem lookup_iff_before_deadline_justBefore :
    ((((overMemory .threads).after setForSecond).run
      [.tick (Clock.second - 1)]).lookup "profile").1 = some secondLong := by
  have hms : Along (LeavesAlone "profile") ((overMemory .threads).after setForSecond)
      [.tick (Clock.second - 1)] := ⟨leavesAlone_tick _ _ _, trivial⟩
  refine (lookup_iff_before_deadline rfl (puts_secondLong .threads) trivial hms rfl
    (by decide)).2 ?_
  rintro ⟨hend, -⟩
  revert hend
  decide

/-- **A usable entry can be lost:** when its time is over to the nanosecond, it must still be
served, and the store has let go of it. -/
theorem usable_entry_lost :
    ¬ ∀ (c : Cache) (m : Move) (k : Key) (e : Entry) (s : ShardedStore) (ms : List Move),
      c.Reachable → c.backing.store = .memory s → c.Puts k e m →
      Along Allows c (m :: ms) → Along (LeavesAlone k) (c.after m) ms →
      ((c.after m).run ms).backing.verdict .get = .pass →
      e.hardExpired ((c.after m).run ms).now = false →
      (((c.after m).run ms).lookup k).1 = some e := by
  intro h
  have hfound := h (overMemory .threads) setForSecond "profile" secondLong _
    [.tick Clock.second] (reachable_overMemory .threads) rfl (puts_secondLong .threads)
    ⟨trivial, trivial, trivial⟩ ⟨leavesAlone_tick _ _ _, trivial⟩ rfl (by decide)
  have hlost : ((((overMemory .threads).after setForSecond).run
      [.tick Clock.second]).lookup "profile").1 = none := rfl
  rw [hlost] at hfound
  cases hfound

end Cache

end Evergreen
