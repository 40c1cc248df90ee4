import Evergreen.Store.Slot
import Evergreen.Table

/-!
# The memory store

Slots are spread over shards by a hash of the key, so that work on different keys rarely
meets. The number of shards is a power of two. A slot past its deadline is dropped when it is
next read or when the store is purged; until then it still counts.

Which shard a key lives in shows nowhere: what is found under a key depends on the operations
on that key alone (`slot?_insert`, `slot?_erase`, `slot?_purge`).
-/

namespace Evergreen

/-- Slots in shards, and the hash that spreads keys over them. -/
structure ShardedStore where
  hash : Key → Nat
  shards : List (Table Slot)
  nonempty : 0 < shards.length

namespace ShardedStore

/-- The smallest power of two that is at least `n`. It is a natural number without bound: above
`2 ^ 63` there is none that fits a 64-bit word, and no store of so many shards fits a memory. -/
def powerOfTwoFrom (n : Nat) : Nat := if n ≤ 1 then 1 else 1 <<< ((n - 1).log2 + 1)

/-- There is at least one shard. -/
theorem powerOfTwoFrom_pos (n : Nat) : 0 < powerOfTwoFrom n := by
  unfold powerOfTwoFrom
  split
  · decide
  · rw [Nat.one_shiftLeft]
    exact Nat.pow_pos (by decide)

/-- An empty store with at least the requested number of shards. -/
def create (hash : Key → Nat) (requested : Nat) : ShardedStore where
  hash
  shards := List.replicate (powerOfTwoFrom requested) Table.empty
  nonempty := by simpa using powerOfTwoFrom_pos requested

/-- Where the shard of a key stands. -/
def index (s : ShardedStore) (k : Key) : Nat := s.hash k % s.shards.length

/-- A key has its shard, whatever its hash. -/
theorem index_lt (s : ShardedStore) (k : Key) : s.index k < s.shards.length :=
  Nat.mod_lt _ s.nonempty

/-- The shard of a key. -/
def shard (s : ShardedStore) (k : Key) : Table Slot := s.shards.get ⟨s.index k, s.index_lt k⟩

/-- The slot under a key, dropped or not. -/
def slot? (s : ShardedStore) (k : Key) : Option Slot := (s.shard k).find? k

/-- Changes the shard of a key. -/
def onShard (s : ShardedStore) (k : Key) (f : Table Slot → Table Slot) : ShardedStore :=
  { s with
    shards := s.shards.set (s.index k) (f (s.shard k))
    nonempty := by simpa using s.nonempty }

/-- Changes every shard. -/
def onEveryShard (s : ShardedStore) (f : Table Slot → Table Slot) : ShardedStore :=
  { s with shards := s.shards.map f, nonempty := by simpa using s.nonempty }

/-- The entry under a key; a slot past its deadline is dropped instead. -/
def get (s : ShardedStore) (now : Nat) (k : Key) : Option Entry × ShardedStore :=
  match s.slot? k with
  | none => (none, s)
  | some slot =>
    if slot.expired now then (none, s.onShard k (·.erase k)) else (some slot.entry, s)

/-- Puts an entry under a key. -/
def set (s : ShardedStore) (now : Nat) (k : Key) (e : Entry) (hint : Option Nat) :
    ShardedStore :=
  s.onShard k (·.insert k (Slot.filled now e hint))

/-- Whether there is a slot under a key, and the store without it. -/
def remove (s : ShardedStore) (k : Key) : Bool × ShardedStore :=
  ((s.slot? k).isSome, s.onShard k (·.erase k))

/-- The store without any slot. -/
def clear (s : ShardedStore) : ShardedStore := s.onEveryShard fun _ => Table.empty

/-- How many slots there are, also past their deadlines. -/
def size (s : ShardedStore) : Nat := s.shards.foldr (fun t n => t.size + n) 0

/-- The store without the slots past their deadlines. -/
def kept (s : ShardedStore) (now : Nat) : ShardedStore :=
  s.onEveryShard (·.filter fun _ slot => !slot.expired now)

/-- Drops every slot past its deadline and counts them. -/
def purge (s : ShardedStore) (now : Nat) : Nat × ShardedStore :=
  (s.size - (s.kept now).size, s.kept now)

def inspect (s : ShardedStore) : String :=
  Text.record "MemoryStore" [("num_shards", toString s.shards.length)]

/-! ## The view -/

/-- No key moves to another shard. -/
@[simp] theorem index_onShard (s : ShardedStore) (k k' : Key) (f : Table Slot → Table Slot) :
    (s.onShard k f).index k' = s.index k' := by simp [index, onShard]

/-- A change of a shard shows in that shard alone. -/
theorem shard_onShard (s : ShardedStore) (k k' : Key) (f : Table Slot → Table Slot) :
    (s.onShard k f).shard k' = if s.index k = s.index k' then f (s.shard k) else s.shard k' := by
  simp only [shard, index_onShard, List.get_eq_getElem]
  simp only [onShard, List.getElem_set]
  rfl

/-- Keys with the same index share a shard. -/
theorem shard_congr (s : ShardedStore) {k k' : Key} (h : s.index k = s.index k') :
    s.shard k = s.shard k' := by simp only [shard, List.get_eq_getElem, h]

/-- **The view of an insertion:** the slot is under its key, and elsewhere all is as before, also in
the same shard. -/
theorem slot?_insert (s : ShardedStore) (k k' : Key) (slot : Slot) :
    (s.onShard k (·.insert k slot)).slot? k' = if k' = k then some slot else s.slot? k' := by
  simp only [slot?, shard_onShard]
  split
  · rename_i h
    rw [Table.find?_insert, s.shard_congr h]
  · rename_i h
    rw [if_neg]
    rintro rfl
    exact h rfl

/-- **The view of a removal:** nothing is under the key, and elsewhere all is as before. -/
theorem slot?_erase (s : ShardedStore) (k k' : Key) :
    (s.onShard k (·.erase k)).slot? k' = if k' = k then none else s.slot? k' := by
  simp only [slot?, shard_onShard]
  split
  · rename_i h
    rw [Table.find?_erase, s.shard_congr h]
  · rename_i h
    rw [if_neg]
    rintro rfl
    exact h rfl

/-- What is done with every shard is done with the shard of each key. -/
theorem slot?_onEveryShard (s : ShardedStore) (k : Key) (f : Table Slot → Table Slot) :
    (s.onEveryShard f).slot? k = (f (s.shard k)).find? k := by
  simp [slot?, shard, index, onEveryShard]

/-- **The view of a purge:** every slot stays but those past their deadlines. -/
theorem slot?_purge (s : ShardedStore) (now : Nat) (k : Key) :
    (s.purge now).2.slot? k = (s.slot? k).filter fun slot => !slot.expired now := by
  show (s.kept now).slot? k = _
  rw [kept, slot?_onEveryShard, Table.find?_filter]
  rfl

/-- A cleared store has no slot. -/
@[simp] theorem slot?_clear (s : ShardedStore) (k : Key) : s.clear.slot? k = none := by
  simp [clear, slot?_onEveryShard]

/-- A new store has no slot. -/
@[simp] theorem slot?_create (hash : Key → Nat) (requested : Nat) (k : Key) :
    (create hash requested).slot? k = none := by
  simp [create, slot?, shard]

end ShardedStore

end Evergreen
