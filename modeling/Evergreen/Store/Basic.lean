import Evergreen.Store.Sharded

/-!
# Stores

A cache keeps its entries in a store: the memory store, which drops an entry at its deadline,
or a plain map, which pays no heed to hints and keeps what it has until told otherwise.
-/

namespace Evergreen

/-- Where entries are kept. -/
inductive Store where
  | memory (s : ShardedStore)
  | plain (t : Table Entry)

namespace Store

/-- What a read at `now` finds under a key. -/
def find? (s : Store) (now : Nat) (k : Key) : Option Entry :=
  match s with
  | memory s => ((s.slot? k).filter fun slot => !slot.expired now).map (·.entry)
  | plain t => t.find? k

/-- Whether there is anything to remove under a key. -/
def holds (s : Store) (k : Key) : Bool :=
  match s with
  | memory s => (s.slot? k).isSome
  | plain t => t.contains k

/-- Reads a key; a slot past its deadline is dropped. -/
def get (s : Store) (now : Nat) (k : Key) : Option Entry × Store :=
  match s with
  | memory s => let (e, s) := s.get now k; (e, memory s)
  | plain t => (t.find? k, plain t)

/-- Puts an entry under a key; the hint is the time it has left. -/
def set (s : Store) (now : Nat) (k : Key) (e : Entry) (hint : Option Nat) : Store :=
  match s with
  | memory s => memory (s.set now k e hint)
  | plain t => plain (t.insert k e)

/-- Whether something was under a key, and the store without it. -/
def remove (s : Store) (k : Key) : Bool × Store :=
  match s with
  | memory s => let (b, s) := s.remove k; (b, memory s)
  | plain t => (t.contains k, plain (t.erase k))

/-- The store without anything in it. -/
def clear : Store → Store
  | memory s => memory s.clear
  | plain _ => plain Table.empty

/-- How many keys there is something to remove under. -/
def size : Store → Nat
  | memory s => s.size
  | plain t => t.size

/-- Drops what is past its deadline and counts it; a plain map has no deadlines. -/
def purge? (s : Store) (now : Nat) : Option (Nat × Store) :=
  match s with
  | memory s => let (n, s) := s.purge now; some (n, memory s)
  | plain _ => none

/-! ## The view -/

/-- A read answers with what the store yields at that time. -/
theorem get_fst (s : Store) (now : Nat) (k : Key) : (s.get now k).1 = s.find? now k := by
  cases s with
  | plain t => rfl
  | memory s =>
    simp only [get, find?, ShardedStore.get]
    cases h : s.slot? k with
    | none => simp
    | some slot => cases h' : slot.expired now <;> simp [Option.filter, h']

/-- A read changes nothing that a read at the same time can find. -/
theorem find?_get (s : Store) (now : Nat) (k k' : Key) :
    (s.get now k).2.find? now k' = s.find? now k' := by
  cases s with
  | plain t => rfl
  | memory s =>
    simp only [get, find?, ShardedStore.get]
    cases h : s.slot? k with
    | none => rfl
    | some slot =>
      cases h' : slot.expired now with
      | false => simp [h']
      | true =>
        simp only [h', if_true, ShardedStore.slot?_erase]
        by_cases hk : k' = k
        · subst hk
          simp [h, Option.filter, h']
        · rw [if_neg hk]

/-- A removal takes away what is under its key, and nothing else. -/
theorem find?_remove (s : Store) (now : Nat) (k k' : Key) :
    (s.remove k).2.find? now k' = if k' = k then none else s.find? now k' := by
  cases s with
  | plain t => simp [remove, find?, Table.find?_erase]
  | memory s =>
    simp only [remove, find?, ShardedStore.remove, ShardedStore.slot?_erase]
    split <;> simp

/-- A cleared store yields nothing. -/
@[simp] theorem find?_clear (s : Store) (now : Nat) (k : Key) :
    s.clear.find? now k = none := by
  cases s <;> simp [clear, find?]

end Store

end Evergreen
