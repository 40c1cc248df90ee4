import Evergreen.Store.Forecast

/-!
# What a store keeps

`Store.find?` says what a read finds, and that changes with the clock: the memory store lets go
of an entry at its deadline. `Store.kept?` says what is kept under a key whether its deadline
has come or not, so it changes with the operations alone:

- `kept?_set`, `kept?_remove`, `kept?_clear`: a write, a removal and a clear do to it what
  they say;
- `kept?_get_eq_or`, `kept?_purge_eq_or`: a read and a purge leave it or let it go;
- `kept?_get_of_find?`: a read that finds what is kept lets nothing go.

The same facts are restated for a backing, where a call may fail instead.
-/

namespace Evergreen

namespace ShardedStore

/-- A read changes no slot but the one it reads. -/
theorem slot?_get_other (s : ShardedStore) (now : Nat) {k k' : Key} (h : k' ≠ k) :
    (s.get now k).2.slot? k' = s.slot? k' := by
  unfold get
  cases hs : s.slot? k with
  | none => rfl
  | some slot =>
    cases he : slot.expired now with
    | false => simp [he]
    | true => simp [he, slot?_erase, h]

/-- A read lets go of an expired slot and leaves any other. -/
theorem slot?_get_self (s : ShardedStore) (now : Nat) (k : Key) :
    (s.get now k).2.slot? k = (s.slot? k).filter fun slot => !slot.expired now := by
  unfold get
  cases hs : s.slot? k with
  | none => simp [hs]
  | some slot =>
    cases he : slot.expired now with
    | false => simp [he, hs, Option.filter]
    | true => simp [he, slot?_erase, Option.filter]

end ShardedStore

namespace Store

/-- The entry kept under a key, past its deadline or not. -/
def kept? (s : Store) (k : Key) : Option Entry :=
  match s with
  | memory s => (s.slot? k).map (·.entry)
  | plain t => t.find? k

/-- What a read finds is kept. -/
theorem kept?_of_find? {s : Store} {now : Nat} {k : Key} {e : Entry}
    (h : s.find? now k = some e) : s.kept? k = some e := by
  cases s with
  | plain t => exact h
  | memory s =>
    simp only [find?, Option.map_eq_some_iff, Option.filter_eq_some_iff] at h
    obtain ⟨slot, ⟨hs, -⟩, rfl⟩ := h
    simp [kept?, hs]

/-- What was set last is kept. -/
theorem kept?_set (s : Store) (now : Nat) (k k' : Key) (e : Entry) (hint : Option Nat) :
    (s.set now k e hint).kept? k' = if k' = k then some e else s.kept? k' := by
  cases s with
  | plain t => exact Table.find?_insert t k k' e
  | memory s =>
    simp only [set, kept?, ShardedStore.set, ShardedStore.slot?_insert]
    split
    · rfl
    · rfl

/-- A removal takes away what is kept under its key, and nothing else. -/
theorem kept?_remove (s : Store) (k k' : Key) :
    (s.remove k).2.kept? k' = if k' = k then none else s.kept? k' := by
  cases s with
  | plain t => exact Table.find?_erase t k k'
  | memory s =>
    simp only [remove, kept?, ShardedStore.remove, ShardedStore.slot?_erase]
    split
    · rfl
    · rfl

/-- A cleared store keeps nothing. -/
@[simp] theorem kept?_clear (s : Store) (k : Key) : s.clear.kept? k = none := by
  cases s <;> simp [clear, kept?]

/-- A read changes nothing that is kept under another key. -/
theorem kept?_get_other (s : Store) (now : Nat) {k k' : Key} (h : k' ≠ k) :
    (s.get now k).2.kept? k' = s.kept? k' := by
  cases s with
  | plain t => rfl
  | memory s => simp [get, kept?, ShardedStore.slot?_get_other s now h]

/-- What is kept under a key after reading it is what the read found. -/
theorem kept?_get_self (s : Store) (now : Nat) (k : Key) :
    (s.get now k).2.kept? k = s.find? now k := by
  cases s with
  | plain t => rfl
  | memory s => simp [get, kept?, find?, ShardedStore.slot?_get_self]

/-- A read that finds what is kept lets nothing go. -/
theorem kept?_get_of_find? {s : Store} {now : Nat} {k : Key} (k' : Key)
    (h : s.find? now k = s.kept? k) : (s.get now k).2.kept? k' = s.kept? k' := by
  by_cases hk : k' = k
  · subst hk
    rw [kept?_get_self, h]
  · exact kept?_get_other s now hk

/-- A read leaves what is kept, or lets it go. -/
theorem kept?_get_eq_or (s : Store) (now : Nat) (k k' : Key) :
    (s.get now k).2.kept? k' = s.kept? k' ∨ (s.get now k).2.kept? k' = none := by
  by_cases hk : k' = k
  · subst hk
    rw [kept?_get_self]
    cases h : s.find? now k' with
    | none => exact .inr rfl
    | some e => exact .inl (kept?_of_find? h).symm
  · exact .inl (kept?_get_other s now hk)

/-- A purge leaves what a read would find and lets the rest go. -/
theorem kept?_purge {s s' : Store} {now n : Nat} (h : s.purge? now = some (n, s'))
    (k : Key) : s'.kept? k = s.find? now k := by
  cases s with
  | plain t => simp [purge?] at h
  | memory s =>
    simp only [purge?, Option.some.injEq, Prod.mk.injEq] at h
    obtain ⟨-, rfl⟩ := h
    simp [kept?, find?, ShardedStore.slot?_purge]

/-- A purge leaves what is kept, or lets it go. -/
theorem kept?_purge_eq_or {s s' : Store} {now n : Nat} (h : s.purge? now = some (n, s'))
    (k : Key) : s'.kept? k = s.kept? k ∨ s'.kept? k = none := by
  rw [kept?_purge h]
  cases hf : s.find? now k with
  | none => exact .inr rfl
  | some e => exact .inl (kept?_of_find? hf).symm

end Store

/-- No call of the store fails. It may still decline to keep an entry. -/
def Forecast.Reliable (f : Forecast) : Prop :=
  ∀ op n, f op n = .pass ∨ op = .set ∧ f op n = .ignore

namespace Backing

/-- A read of a store none of whose calls fails passes. -/
theorem verdict_get_of_reliable {b : Backing} (h : b.forecast.Reliable) :
    b.verdict .get = .pass := by
  rcases h .get (b.calls .get) with hv | ⟨ho, -⟩
  · exact hv
  · cases ho

/-- The entry kept under a key. -/
def kept? (b : Backing) (k : Key) : Option Entry := b.store.kept? k

/-! ## Calls and the forecast -/

/-- A call does not change the weather. -/
@[simp] theorem forecast_get (b : Backing) (now : Nat) (k : Key) :
    (b.get now k).2.forecast = b.forecast := by
  unfold get
  split <;> rfl

@[simp] theorem forecast_set (b : Backing) (now : Nat) (k : Key) (e : Entry)
    (hint : Option Nat) : (b.set now k e hint).2.forecast = b.forecast := by
  unfold set
  split <;> rfl

@[simp] theorem forecast_remove (b : Backing) (k : Key) :
    (b.remove k).2.forecast = b.forecast := by
  unfold remove
  split <;> rfl

@[simp] theorem forecast_clear (b : Backing) : b.clear.2.forecast = b.forecast := by
  unfold clear
  split <;> rfl

/-! ## What is kept -/

/-- A read leaves what is kept, or lets it go. -/
theorem kept?_get_eq_or (b : Backing) (now : Nat) (k k' : Key) :
    (b.get now k).2.kept? k' = b.kept? k' ∨ (b.get now k).2.kept? k' = none := by
  unfold get
  split
  · exact b.store.kept?_get_eq_or now k k'
  · exact .inl rfl
  · exact .inl rfl

/-- A read that would find what is kept lets nothing go, whether it fails or not. -/
theorem kept?_get_of_find? {b : Backing} {now : Nat} {k : Key} (k' : Key)
    (h : b.store.find? now k = b.kept? k) : (b.get now k).2.kept? k' = b.kept? k' := by
  unfold get
  split
  · exact Store.kept?_get_of_find? k' h
  · rfl
  · rfl

/-- A read changes nothing that is kept under another key. -/
theorem kept?_get_other (b : Backing) (now : Nat) {k k' : Key} (h : k' ≠ k) :
    (b.get now k).2.kept? k' = b.kept? k' := by
  unfold get
  split
  · exact b.store.kept?_get_other now h
  · rfl
  · rfl

/-- A write puts its entry under its key or changes nothing, and passes exactly in the first
case. -/
theorem kept?_set (b : Backing) (now : Nat) (k k' : Key) (e : Entry) (hint : Option Nat) :
    (b.set now k e hint).2.kept? k' =
      if b.verdict .set = .pass ∧ k' = k then some e else b.kept? k' := by
  unfold set
  split
  · rename_i h
    rw [h]
    simp only [true_and]
    exact b.store.kept?_set now k k' e hint
  · rename_i h
    simp [h, kept?, called]
  · rename_i h
    simp [h, kept?, called]

/-- A removal leaves what is kept, or removes it. -/
theorem kept?_remove_eq_or (b : Backing) (k k' : Key) :
    (b.remove k).2.kept? k' = b.kept? k' ∨ (b.remove k).2.kept? k' = none := by
  unfold remove
  split
  · show (b.store.remove k).2.kept? k' = _ ∨ (b.store.remove k).2.kept? k' = _
    rw [Store.kept?_remove]
    split
    · exact .inr rfl
    · exact .inl rfl
  · exact .inl rfl
  · exact .inl rfl

/-- A removal changes nothing that is kept under another key. -/
theorem kept?_remove_other (b : Backing) {k k' : Key} (h : k' ≠ k) :
    (b.remove k).2.kept? k' = b.kept? k' := by
  unfold remove
  split
  · show (b.store.remove k).2.kept? k' = _
    rw [Store.kept?_remove, if_neg h]
    rfl
  · rfl
  · rfl

/-- A clear leaves what is kept, or removes it. -/
theorem kept?_clear_eq_or (b : Backing) (k : Key) :
    b.clear.2.kept? k = b.kept? k ∨ b.clear.2.kept? k = none := by
  unfold clear
  split
  · exact .inr (Store.kept?_clear ..)
  · exact .inl rfl
  · exact .inl rfl

end Backing

end Evergreen
