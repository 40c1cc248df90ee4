import Evergreen.Proofs.BackingSteps

/-!
# Deadlines of what is kept

The memory store lets go of an entry at the deadline of its slot, and the cache of one past its
hard lifetime. What the store keeps of a deadline is in the slot under the key (`Store.slot?`),
and every operation is described by what it does to that view: `slot?_get`, `slot?_set`,
`slot?_remove`, `slot?_purge`.

The deadline comes from the hint of the write, the time the entry has left; so while the clock
has not gone round, it is the end of the hard lifetime, to the nanosecond (`lasts_filled`).
`Lasts` says that the store keeps an entry at least that long:

- `find?_of_lasts`: what lasts is found until the end of its hard lifetime;
- `slot?_after_from`: a slot that stands under a key after a move stood there before, or the move
  has put its entry there;
- `lasts_after`: so whatever lasts, lasts after every move, and so do all entries that a move
  puts there.
-/

namespace Evergreen

namespace Store

/-- The slot under a key; a plain map has no deadlines. -/
def slot? (s : Store) (k : Key) : Option Slot :=
  match s with
  | memory s => s.slot? k
  | plain t => (t.find? k).map (⟨·, none⟩)

/-- The slot that an entry is put in at `now`. -/
def filled (s : Store) (now : Nat) (e : Entry) (hint : Option Nat) : Slot :=
  match s with
  | memory _ => Slot.filled now e hint
  | plain _ => ⟨e, none⟩

/-- Whether a store gives what it is handed a deadline. -/
def isMemory : Store → Bool
  | memory _ => true
  | plain _ => false

theorem isMemory_iff {s : Store} : s.isMemory = true ↔ ∃ t, s = memory t := by
  cases s <;> simp [isMemory]

theorem filled_congr {s s' : Store} (h : s'.isMemory = s.isMemory) : s'.filled = s.filled := by
  cases s <;> cases s' <;> first | rfl | cases h

@[simp] theorem filled_entry (s : Store) (now : Nat) (e : Entry) (hint : Option Nat) :
    (s.filled now e hint).entry = e := by
  cases s <;> rfl

/-- What is kept under a key has no deadline before the end of its hard lifetime. -/
def Lasts (s : Store) (k : Key) : Prop :=
  ∀ slot, s.slot? k = some slot → ∀ d, slot.deadline = some d →
    slot.entry.since + slot.entry.hard ≤ d

/-! ## The view -/

/-- A read finds what stands in a slot whose deadline has not come. -/
theorem find?_eq_slot? (s : Store) (now : Nat) (k : Key) :
    s.find? now k = ((s.slot? k).filter fun slot => !slot.expired now).map (·.entry) := by
  cases s with
  | memory s => rfl
  | plain t =>
    simp only [find?, slot?]
    cases t.find? k <;> simp [Option.filter, Slot.expired]

/-- What is kept is what stands in a slot. -/
theorem kept?_eq_slot? (s : Store) (k : Key) : s.kept? k = (s.slot? k).map (·.entry) := by
  cases s with
  | memory s => rfl
  | plain t =>
    simp only [kept?, slot?]
    cases t.find? k <;> rfl

/-- A read drops an expired slot of its key and leaves any other. -/
theorem slot?_get (s : Store) (now : Nat) (k k' : Key) :
    (s.get now k').2.slot? k =
      if k = k' then (s.slot? k).filter (fun slot => !slot.expired now) else s.slot? k := by
  cases s with
  | plain t =>
    simp only [get, slot?]
    cases t.find? k <;> simp [Option.filter, Slot.expired]
  | memory s =>
    by_cases hk : k = k'
    · subst hk
      rw [if_pos rfl]
      exact s.slot?_get_self now k
    · rw [if_neg hk]
      exact s.slot?_get_other now hk

/-- A write puts its own slot there, with the deadline that the kind of store makes of the hint. -/
theorem slot?_set (s : Store) (now : Nat) (k k' : Key) (e : Entry) (hint : Option Nat) :
    (s.set now k' e hint).slot? k =
      if k = k' then some (s.filled now e hint) else s.slot? k := by
  cases s with
  | plain t =>
    simp only [set, slot?, filled, Table.find?_insert]
    split <;> rfl
  | memory s =>
    simp only [set, slot?, filled, ShardedStore.set, ShardedStore.slot?_insert]

/-- A removal takes away one slot. -/
theorem slot?_remove (s : Store) (k k' : Key) :
    (s.remove k').2.slot? k = if k = k' then none else s.slot? k := by
  cases s with
  | plain t =>
    simp only [remove, slot?, Table.find?_erase]
    split <;> rfl
  | memory s =>
    simp only [remove, slot?, ShardedStore.remove, ShardedStore.slot?_erase]

/-- After a clear there are no slots. -/
@[simp] theorem slot?_clear (s : Store) (k : Key) : s.clear.slot? k = none := by
  cases s <;> simp [clear, slot?]

/-- A purge drops every expired slot. -/
theorem slot?_purge {s s' : Store} {now n : Nat} (h : s.purge? now = some (n, s')) (k : Key) :
    s'.slot? k = (s.slot? k).filter fun slot => !slot.expired now := by
  cases s with
  | plain t => simp [purge?] at h
  | memory s =>
    simp only [purge?, Option.some.injEq, Prod.mk.injEq] at h
    obtain ⟨-, rfl⟩ := h
    exact s.slot?_purge now k

/-! ## What lasts -/

/-- What lasts is found until the end of its hard lifetime. -/
theorem find?_of_lasts {s : Store} {now : Nat} {k : Key} {e : Entry} (h : s.Lasts k)
    (he : s.kept? k = some e) (hn : now < e.since + e.hard) : s.find? now k = some e := by
  cases s with
  | plain t => exact he
  | memory s =>
    simp only [kept?, Option.map_eq_some_iff] at he
    obtain ⟨slot, hs, rfl⟩ := he
    have hx : slot.expired now = false := by
      rw [Bool.eq_false_iff, Ne, Slot.expired_iff]
      rintro ⟨d, hd, hle⟩
      -- deadlines are compared with the wrapped clock, which is never ahead
      have hlast := h slot hs d hd
      have hwrap := Clock.wrap_le now
      omega
    simp only [find?, hs, Option.map_eq_some_iff, Option.filter_eq_some_iff]
    exact ⟨slot, ⟨rfl, by simpa using hx⟩, rfl⟩

/-- A slot is kept to the end of its entry's hard lifetime: the time left is counted from the
clock that the deadline is set by. -/
theorem lasts_filled (s : Store) {e : Entry} {now d : Nat} (he : e.since ≤ now)
    (hn : now < Clock.lap) (hd : (s.filled now e (e.expiresIn now)).deadline = some d) :
    e.since + e.hard ≤ d := by
  cases s with
  | plain t => cases hd
  | memory s =>
    obtain ⟨left, hleft, rfl, -⟩ := Slot.deadline?_eq_some_iff.1 hd
    unfold Entry.expiresIn Entry.age at hleft
    split at hleft
    · cases hleft
      rw [Clock.wrap_of_lt hn]
      omega
    · cases hleft

end Store

namespace Backing

/-- The slot under a key. -/
def slot? (b : Backing) (k : Key) : Option Slot := b.store.slot? k

/-- What is kept under a key has no deadline before the end of its hard lifetime. -/
def Lasts (b : Backing) (k : Key) : Prop := b.store.Lasts k

section Calls

variable {b : Backing} {k : Key} {now : Nat}

/-! ## Calls of a store that may fail -/

/-- A read drops the slot that it asks for, if that is past its deadline, and changes no other. -/
theorem slot?_get (b : Backing) (now : Nat) (k k' : Key) :
    (b.get now k').2.slot? k =
      if b.verdict .get = .pass ∧ k = k' then (b.slot? k).filter (fun slot => !slot.expired now)
      else b.slot? k := by
  unfold get
  split
  · rename_i hv
    simp only [hv, true_and]
    exact b.store.slot?_get now k k'
  · rename_i hv
    simp [hv, slot?, called]
  · rename_i hv
    simp [hv, slot?, called]

/-- A call that fails writes nothing. -/
theorem slot?_set (b : Backing) (now : Nat) (k k' : Key) (e : Entry) (hint : Option Nat) :
    (b.set now k' e hint).2.slot? k =
      if b.verdict .set = .pass ∧ k = k' then some (b.store.filled now e hint)
      else b.slot? k := by
  unfold set
  split
  · rename_i hv
    simp only [hv, true_and]
    exact b.store.slot?_set now k k' e hint
  · rename_i hv
    simp [hv, slot?, called]
  · rename_i hv
    simp [hv, slot?, called]

/-- A call that fails removes nothing. -/
theorem slot?_remove (b : Backing) (k k' : Key) :
    (b.remove k').2.slot? k =
      if b.verdict .remove = .pass ∧ k = k' then none else b.slot? k := by
  unfold remove
  split
  · rename_i hv
    simp only [hv, true_and]
    exact b.store.slot?_remove k k'
  · rename_i hv
    simp [hv, slot?, called]
  · rename_i hv
    simp [hv, slot?, called]

/-- A call that fails clears nothing. -/
theorem slot?_clear (b : Backing) (k : Key) :
    b.clear.2.slot? k = if b.verdict .clear = .pass then none else b.slot? k := by
  unfold clear
  split
  · rename_i hv
    rw [if_pos hv]
    exact b.store.slot?_clear k
  · rename_i hv
    simp [hv, slot?, called]
  · rename_i hv
    simp [hv, slot?, called]

/-! ## What stands in a slot -/

theorem isMemory_get (b : Backing) (now : Nat) (k : Key) :
    (b.get now k).2.store.isMemory = b.store.isMemory := by
  have hstore : (b.store.get now k).2.isMemory = b.store.isMemory := by
    cases b.store <;> rfl
  unfold get
  split
  · exact hstore
  · rfl
  · rfl

theorem isMemory_set (b : Backing) (now : Nat) (k : Key) (e : Entry) (hint : Option Nat) :
    (b.set now k e hint).2.store.isMemory = b.store.isMemory := by
  have hstore : (b.store.set now k e hint).isMemory = b.store.isMemory := by
    cases b.store <;> rfl
  unfold set
  split
  · exact hstore
  · rfl
  · rfl

theorem isMemory_remove (b : Backing) (k : Key) :
    (b.remove k).2.store.isMemory = b.store.isMemory := by
  have hstore : (b.store.remove k).2.isMemory = b.store.isMemory := by
    cases b.store <;> rfl
  unfold remove
  split
  · exact hstore
  · rfl
  · rfl

theorem isMemory_clear (b : Backing) : b.clear.2.store.isMemory = b.store.isMemory := by
  have hstore : b.store.clear.isMemory = b.store.isMemory := by
    cases b.store <;> rfl
  unfold clear
  split
  · exact hstore
  · rfl
  · rfl

/-- Whatever is called, a store stays of the kind that it is. -/
theorem Calls.isMemory {P : Effect → Prop} {b' : Backing} (h : Calls P now b b') :
    b'.store.isMemory = b.store.isMemory :=
  h.preserves (I := fun b' => b'.store.isMemory = b.store.isMemory) rfl
    (fun _ _ hb => (isMemory_get ..).trans hb) (fun _ _ _ hb _ => (isMemory_set ..).trans hb)
    (fun _ _ hb _ => (isMemory_remove ..).trans hb) (fun _ hb _ => (isMemory_clear _).trans hb)

/-- A slot that stands under a key after calls stood there before, or one of them has put its
entry there. -/
theorem Calls.slot?_from {P : Effect → Prop} {b' : Backing} (h : Calls P now b b') {slot : Slot}
    (hs : b'.slot? k = some slot) :
    b.slot? k = some slot ∨
      ∃ e, P (.set k e) ∧ slot = b.store.filled now e (e.expiresIn now) := by
  -- the store stays of its kind, and that is what a deadline depends on
  have both := h.preserves
    (I := fun b' => b'.store.isMemory = b.store.isMemory ∧
      ∀ slot, b'.slot? k = some slot → b.slot? k = some slot ∨
        ∃ e, P (.set k e) ∧ slot = b.store.filled now e (e.expiresIn now))
    ⟨rfl, fun _ => .inl⟩ ?_ ?_ ?_ ?_
  · exact both.2 slot hs
  · rintro b' k' ⟨hm, hb⟩
    refine ⟨(isMemory_get ..).trans hm, fun slot hslot => ?_⟩
    rw [slot?_get] at hslot
    split at hslot
    · exact hb slot (Option.filter_eq_some_iff.1 hslot).1
    · exact hb slot hslot
  · rintro b' k' e ⟨hm, hb⟩ he
    refine ⟨(isMemory_set ..).trans hm, fun slot hslot => ?_⟩
    rw [slot?_set] at hslot
    split at hslot
    · rename_i hput
      obtain ⟨hv, rfl⟩ := hput
      rw [Store.filled_congr hm, Option.some.injEq] at hslot
      exact .inr ⟨e, he hv, hslot.symm⟩
    · exact hb slot hslot
  · rintro b' k' ⟨hm, hb⟩ -
    refine ⟨(isMemory_remove ..).trans hm, fun slot hslot => ?_⟩
    rw [slot?_remove] at hslot
    split at hslot
    · cases hslot
    · exact hb slot hslot
  · rintro b' ⟨hm, hb⟩ -
    refine ⟨(isMemory_clear _).trans hm, fun slot hslot => ?_⟩
    rw [slot?_clear] at hslot
    split at hslot
    · cases hslot
    · exact hb slot hslot

/-! ## What lasts -/

/-- An entry that the store accepts lasts, whatever was there before. -/
theorem lasts_set (hv : b.verdict .set = .pass) {e : Entry} (he : e.since ≤ now)
    (hn : now < Clock.lap) : (b.set now k e (e.expiresIn now)).2.Lasts k := by
  intro slot hslot d hd
  rw [← slot?, slot?_set, if_pos ⟨hv, rfl⟩] at hslot
  cases hslot
  rw [Store.filled_entry]
  exact b.store.lasts_filled he hn hd

end Calls

end Backing

namespace Cache

variable {c : Cache} {m : Move} {k : Key} {slot : Slot}

/-- A store stays of its kind. -/
theorem isMemory_after (c : Cache) (m : Move) :
    (c.after m).backing.store.isMemory = c.backing.store.isMemory := by
  rcases c.backing_after m with hcalls | ⟨-, n, store, hp, hb⟩ | ⟨f, -, hb⟩
  · exact hcalls.isMemory
  · rw [hb]
    cases hs : c.backing.store with
    | plain t => simp [hs, Store.purge?] at hp
    | memory s =>
      simp only [hs, Store.purge?, Option.some.injEq, Prod.mk.injEq] at hp
      rw [← hp.2]
      rfl
  · rw [hb]

/-- **What stands in a slot after a move** stood there before, or is what the move has put under
the key, with the deadline that it got then. -/
theorem slot?_after_from (h : (c.after m).backing.slot? k = some slot) :
    c.backing.slot? k = some slot ∨
      ∃ e, c.Puts k e m ∧ slot = c.backing.store.filled c.now e (e.expiresIn c.now) := by
  rcases c.backing_after m with hcalls | ⟨-, n, store, hp, hb⟩ | ⟨f, -, hb⟩
  · refine (hcalls.slot?_from h).imp_right ?_
    rintro ⟨e, hcause, rfl⟩
    cases hcause with
    | put hput => exact ⟨e, hput, rfl⟩
  · rw [hb] at h
    have hslot : store.slot? k = some slot := h
    rw [Store.slot?_purge hp] at hslot
    exact .inl (Option.filter_eq_some_iff.1 hslot).1
  · rw [hb] at h
    exact .inl h

/-- **What lasts, lasts after every move,** and so does what a move puts there, while the clock
has not gone round. -/
theorem lasts_after (h : c.backing.Lasts k) (hm : c.Allows m) (hn : c.now < Clock.lap) :
    (c.after m).backing.Lasts k := by
  intro slot hslot d hd
  rcases slot?_after_from hslot with hbefore | ⟨e, hput, rfl⟩
  · exact h slot hbefore d hd
  · rw [Store.filled_entry]
    exact c.backing.store.lasts_filled (hput.since_le_now hm) hn hd

end Cache

end Evergreen
