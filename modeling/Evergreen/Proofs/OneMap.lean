import Mathlib.Algebra.Group.Nat.Defs
import Mathlib.Data.List.Nodup
import Mathlib.Data.List.Perm.Basic
import Evergreen.Proofs.Kept

/-!
# The memory store is one map

Shards, the hash that spreads keys over them and the moment at which an expired slot is let go
are matters of the memory store alone. Its answers are those of one plain table from keys to
entries with deadlines, whose rules are written out here (`OneMap`).

- `ShardedStore.index_create`: the shard of a key is the hash masked by the number of shards;
- `Refines.size_eq`, `Refines.purged`: the sizes of the shards add up to the size of the table, so
  a purge counts the slots past their deadlines;
- `call_refines`, `answers_refines`: one call and any sequence of calls;
- `found_answers_of_more`: on one table, purges put in between change nothing that a get finds
  while the clock is within its first lap;
- `answers_eq_oneMap`: both, for every store that is created.
-/

namespace Evergreen

namespace ShardedStore

/-- What can be asked of a memory store. -/
inductive Call where
  | set (k : Key) (e : Entry) (hint : Option Nat)
  | get (k : Key)
  | remove (k : Key)
  | clear
  | size
  | isEmpty
  | purge

/-- What it answers. -/
inductive Answer where
  | done
  | found (e : Option Entry)
  | flag (b : Bool)
  | number (n : Nat)
  deriving DecidableEq

/-- What a get found. -/
def Answer.found? : Answer → Option (Option Entry)
  | found e => some e
  | _ => none

/-- One call at a reading of the clock. -/
def call (s : ShardedStore) (now : Nat) : Call → Answer × ShardedStore
  | .set k e hint => (.flag true, s.set now k e hint)
  | .get k => (.found (s.get now k).1, (s.get now k).2)
  | .remove k => (.flag (s.remove k).1, (s.remove k).2)
  | .clear => (.done, s.clear)
  | .size => (.number s.size, s)
  | .isEmpty => (.flag (s.size == 0), s)
  | .purge => (.number (s.purge now).1, (s.purge now).2)

/-- The answers to calls, each made at its reading of the clock. -/
def answers (s : ShardedStore) : List (Nat × Call) → List Answer
  | [] => []
  | (now, c) :: calls => (s.call now c).1 :: (s.call now c).2.answers calls

end ShardedStore

open ShardedStore (Call Answer)

/-! ## The plain table -/

/-- Entries with the 64-bit readings at which they are dropped, in one table. -/
abbrev OneMap := Table (Entry × Option Nat)

namespace OneMap

/-- The deadline of what is set at `now`: the hint after what a 64-bit clock shows. There is none
without a hint, none where the hint or the sum does not fit 64 bits, and none at zero. -/
def deadline (now : Nat) : Option Nat → Option Nat
  | none => none
  | some left =>
    if 2 ^ 64 ≤ left ∨ 2 ^ 64 ≤ now % 2 ^ 64 + left ∨ now % 2 ^ 64 + left = 0 then none
    else some (now % 2 ^ 64 + left)

/-- Whether a 64-bit clock has reached the deadline. -/
def past (now : Nat) (v : Entry × Option Nat) : Bool := v.2.any (· ≤ now % 2 ^ 64)

/-- One call: a get of an entry past its deadline deletes it, a removal and the size count it as
still there, and a purge deletes all of them. -/
def call (t : OneMap) (now : Nat) : Call → Answer × OneMap
  | .set k e hint => (.flag true, t.insert k (e, deadline now hint))
  | .get k =>
    match t.find? k with
    | none => (.found none, t)
    | some v => if past now v then (.found none, t.erase k) else (.found (some v.1), t)
  | .remove k => (.flag (t.contains k), t.erase k)
  | .clear => (.done, Table.empty)
  | .size => (.number t.size, t)
  | .isEmpty => (.flag (t.size == 0), t)
  | .purge =>
    (.number (t.filter fun _ v => past now v).size, t.filter fun _ v => !past now v)

/-- The answers to calls, each made at its reading of the clock. -/
def answers (t : OneMap) : List (Nat × Call) → List Answer
  | [] => []
  | (now, c) :: calls => (t.call now c).1 :: (OneMap.answers (t.call now c).2 calls)

end OneMap

/-- `more` is `calls` with purges put in, at any places and readings. -/
inductive MorePurges : List (Nat × Call) → List (Nat × Call) → Prop
  | nil : MorePurges [] []
  | same (p : Nat × Call) {calls more : List (Nat × Call)} :
      MorePurges calls more → MorePurges (p :: calls) (p :: more)
  | purge (now : Nat) {calls more : List (Nat × Call)} :
      MorePurges calls more → MorePurges calls ((now, .purge) :: more)

/-! ## A slot as a row of the table -/

namespace Slot

/-- A slot as it stands in the table. -/
def row (s : Slot) : Entry × Option Nat := (s.entry, s.deadline)

/-- A slot just filled is a row with its deadline. -/
theorem row_filled (now : Nat) (e : Entry) (hint : Option Nat) :
    (filled now e hint).row = (e, OneMap.deadline now hint) := by
  refine Prod.ext rfl ?_
  cases hint with
  | none => rfl
  | some left =>
    change (if left < 2 ^ 64 ∧ now % 2 ^ 64 + left < 2 ^ 64 ∧ 0 < now % 2 ^ 64 + left
      then some (now % 2 ^ 64 + left) else none) = OneMap.deadline now (some left)
    rw [OneMap.deadline]
    by_cases fits : left < 2 ^ 64 ∧ now % 2 ^ 64 + left < 2 ^ 64 ∧ 0 < now % 2 ^ 64 + left
    · rw [if_pos fits, if_neg (by omega)]
    · rw [if_neg fits, if_pos (by omega)]

theorem past_row (s : Slot) (now : Nat) : OneMap.past now s.row = s.expired now := by
  obtain ⟨e, deadline⟩ := s
  cases deadline <;> rfl

end Slot

namespace ShardedStore

/-! ## Where the slots stand -/

/-- The shard of a key in a created store is its hash masked by the number of shards, since that
is a power of two. -/
theorem index_create (hash : Key → Nat) (requested : Nat) (k : Key) :
    (create hash requested).index k =
      hash k &&& ((create hash requested).shards.length - 1) := by
  have power : ∃ n, powerOfTwoFrom requested = 2 ^ n := by
    unfold powerOfTwoFrom
    split
    · exact ⟨0, rfl⟩
    · exact ⟨_, Nat.one_shiftLeft _⟩
  obtain ⟨n, hn⟩ := power
  simp only [index, create, List.length_replicate, hn, Nat.and_two_pow_sub_one_eq_mod]

/-- Every slot stands in the shard of its key. -/
def Placed (s : ShardedStore) : Prop :=
  ∀ i (h : i < s.shards.length), ∀ p ∈ (s.shards.get ⟨i, h⟩).pairs, s.index p.1 = i

/-- All slots of all shards. -/
def allPairs (s : ShardedStore) : List (Key × Slot) := s.shards.flatMap (·.pairs)

/-- A store that is empty has nothing out of place. -/
theorem placed_create (hash : Key → Nat) (requested : Nat) : (create hash requested).Placed := by
  intro i h p hp
  simp [create, Table.empty] at hp

/-- What is done to the shard of a key leaves the slots in place, if it adds only to that key. -/
theorem Placed.onShard {s : ShardedStore} (h : s.Placed) (k : Key) {f : Table Slot → Table Slot}
    (hf : ∀ p ∈ (f (s.shard k)).pairs, p.1 = k ∨ p ∈ (s.shard k).pairs) :
    (s.onShard k f).Placed := by
  intro i hi p hp
  rw [index_onShard]
  simp only [ShardedStore.onShard, List.get_eq_getElem, List.getElem_set] at hp
  split at hp
  · rename_i hk
    rcases hf p hp with rfl | hp
    · exact hk
    · exact hk ▸ h (s.index k) (s.index_lt k) p hp
  · exact h i (by simpa [ShardedStore.onShard] using hi) p hp

/-- What is done to every shard leaves the slots in place, if it only takes away. -/
theorem Placed.onEveryShard {s : ShardedStore} (h : s.Placed) {f : Table Slot → Table Slot}
    (hf : ∀ t, ∀ p ∈ (f t).pairs, p ∈ t.pairs) : (s.onEveryShard f).Placed := by
  intro i hi p hp
  have hi' : i < s.shards.length := by simpa [ShardedStore.onEveryShard] using hi
  have hp' : p ∈ (s.shards.get ⟨i, hi'⟩).pairs :=
    hf _ p (by simpa [ShardedStore.onEveryShard] using hp)
  simpa [index, ShardedStore.onEveryShard] using h i hi' p hp'

theorem Placed.erase {s : ShardedStore} (h : s.Placed) (k : Key) :
    (s.onShard k (·.erase k)).Placed :=
  h.onShard k fun p hp => .inr (by simp [Table.erase, Table.filter] at hp; exact hp.1)

/-- A call leaves the slots in place. -/
theorem Placed.call {s : ShardedStore} (h : s.Placed) (now : Nat) (c : Call) :
    (s.call now c).2.Placed := by
  cases c with
  | set k e hint =>
    refine h.onShard k fun p hp => ?_
    simp only [Table.insert, Table.erase, Table.filter, List.mem_cons, List.mem_filter] at hp
    exact hp.imp (congrArg Prod.fst) And.left
  | get k =>
    show (s.get now k).2.Placed
    unfold ShardedStore.get
    split
    · exact h
    · split
      · exact h.erase k
      · exact h
  | remove k => exact h.erase k
  | clear => exact h.onEveryShard fun t p hp => by simp [Table.empty] at hp
  | size => exact h
  | isEmpty => exact h
  | purge => exact h.onEveryShard fun t p hp => (List.mem_filter.mp hp).1

/-- While the slots are in place, all that is stored is found. -/
theorem mem_allPairs {s : ShardedStore} (h : s.Placed) {k : Key} {slot : Slot} :
    (k, slot) ∈ s.allPairs ↔ s.slot? k = some slot := by
  rw [slot?, Table.find?_eq_some_iff, allPairs, List.mem_flatMap]
  constructor
  · rintro ⟨t, ht, hp⟩
    obtain ⟨i, hi, rfl⟩ := List.mem_iff_getElem.mp ht
    have hk : s.index k = i := h i hi _ hp
    subst hk
    exact hp
  · exact fun hp => ⟨s.shard k, List.get_mem _ _, hp⟩

/-- No key stands in two shards. -/
theorem nodup_allPairs {s : ShardedStore} (h : s.Placed) : s.allPairs.Nodup := by
  refine List.nodup_flatMap.mpr ⟨fun t _ => t.distinct.of_map _, ?_⟩
  rw [List.pairwise_iff_getElem]
  intro i j hi hj hij p hp hp'
  have at_i := h i hi p hp
  have at_j := h j hj p hp'
  omega

theorem size_eq_length (s : ShardedStore) : s.size = s.allPairs.length := by
  unfold size allPairs
  induction s.shards with
  | nil => rfl
  | cons t ts ih =>
    rw [List.foldr_cons, ih, List.flatMap_cons, List.length_append, Table.size]

/-! ## Refinement -/

/-- The store and the table hold the same under every key. -/
structure Refines (s : ShardedStore) (t : OneMap) : Prop where
  placed : s.Placed
  same : ∀ k, t.find? k = (s.slot? k).map Slot.row

section Refines

variable {s : ShardedStore} {t : OneMap}

/-- The sizes of the shards add up. -/
theorem Refines.size_eq (h : s.Refines t) : s.size = t.size := by
  have rows : (s.allPairs.map fun p => (p.1, p.2.row)).Nodup := by
    refine (nodup_allPairs h.placed).map ?_
    rintro ⟨k, e, d⟩ ⟨k', e', d'⟩ heq
    simpa [Slot.row] using heq
  have perm : (s.allPairs.map fun p => (p.1, p.2.row)).Perm t.pairs := by
    rw [List.perm_ext_iff_of_nodup rows (t.distinct.of_map _)]
    rintro ⟨k, v⟩
    rw [← Table.find?_eq_some_iff, h.same k, Option.map_eq_some_iff, List.mem_map]
    constructor
    · rintro ⟨⟨k', slot⟩, hp, heq⟩
      simp only [Prod.mk.injEq] at heq
      obtain ⟨rfl, rfl⟩ := heq
      exact ⟨slot, (mem_allPairs h.placed).mp hp, rfl⟩
    · rintro ⟨slot, hs, rfl⟩
      exact ⟨(k, slot), (mem_allPairs h.placed).mpr hs, rfl⟩
  rw [size_eq_length, Table.size, ← perm.length_eq, List.length_map]

/-- What a purge leaves is what the table keeps. -/
theorem Refines.kept (h : s.Refines t) (now : Nat) :
    (s.kept now).Refines (t.filter fun _ v => !OneMap.past now v) where
  placed := h.placed.call now .purge
  same k := by
    rw [Table.find?_filter, h.same k]
    show _ = ((s.purge now).2.slot? k).map _
    rw [slot?_purge]
    cases s.slot? k with
    | none => rfl
    | some slot => simp [Option.filter, Slot.past_row, apply_ite (Option.map Slot.row)]

/-- A purge drops as many slots as are past their deadlines. -/
theorem Refines.purged (h : s.Refines t) (now : Nat) :
    (s.purge now).1 = (t.filter fun _ v => OneMap.past now v).size := by
  have all : (t.filter fun _ v => OneMap.past now v).size +
      (t.filter fun _ v => !OneMap.past now v).size = t.size :=
    (List.length_eq_length_filter_add (fun p : Key × _ => OneMap.past now p.2)).symm
  have before := h.size_eq
  have after := (h.kept now).size_eq
  show s.size - (s.kept now).size = _
  omega

theorem Refines.erase (h : s.Refines t) (k : Key) :
    (s.onShard k (·.erase k)).Refines (t.erase k) where
  placed := h.placed.erase k
  same k' := by
    rw [Table.find?_erase, slot?_erase, h.same k']
    split <;> rfl

/-- One call: the same answer, and what is held stays the same. -/
theorem call_refines (h : s.Refines t) (now : Nat) (c : Call) :
    (s.call now c).1 = (t.call now c).1 ∧ (s.call now c).2.Refines (t.call now c).2 := by
  cases c with
  | set k e hint =>
    refine ⟨rfl, h.placed.call now _, fun k' => ?_⟩
    show (t.insert k _).find? k' = ((s.onShard k _).slot? k').map _
    rw [Table.find?_insert, slot?_insert, h.same k', ← Slot.row_filled]
    split <;> rfl
  | get k =>
    simp only [call, OneMap.call, get, h.same k]
    cases hs : s.slot? k with
    | none => exact ⟨rfl, h⟩
    | some slot =>
      simp only [Option.map_some, Slot.past_row]
      cases slot.expired now with
      | true => exact ⟨rfl, h.erase k⟩
      | false => exact ⟨rfl, h⟩
  | remove k =>
    refine ⟨?_, h.erase k⟩
    show Answer.flag (s.slot? k).isSome = .flag (t.find? k).isSome
    rw [h.same k, Option.isSome_map]
  | clear => exact ⟨rfl, h.placed.call now .clear, fun k => by simp [call, OneMap.call]⟩
  | size => exact ⟨congrArg Answer.number h.size_eq, h⟩
  | isEmpty => exact ⟨congrArg (fun n => Answer.flag (n == 0)) h.size_eq, h⟩
  | purge => exact ⟨congrArg Answer.number (h.purged now), h.kept now⟩

/-- Any sequence of calls. -/
theorem answers_refines (h : s.Refines t) (calls : List (Nat × Call)) :
    s.answers calls = t.answers calls := by
  induction calls generalizing s t with
  | nil => rfl
  | cons p calls ih =>
    obtain ⟨same, h⟩ := call_refines h p.1 p.2
    simp only [answers, OneMap.answers, same, ih h]

end Refines

/-- An empty store is an empty table. -/
theorem refines_create (hash : Key → Nat) (requested : Nat) :
    (create hash requested).Refines Table.empty where
  placed := placed_create hash requested
  same k := by simp

end ShardedStore

/-! ## Purges in between -/

namespace OneMap

variable {t t' : OneMap} {now now' : Nat}

/-- What is held under a key and not past its deadline. -/
def living (t : OneMap) (now : Nat) (k : Key) : Option (Entry × Option Nat) :=
  (t.find? k).filter fun v => !past now v

/-- Nothing comes back to life before the 64-bit clock starts again. -/
theorem past_mono (h : now ≤ now') (hlap : now' < 2 ^ 64) {v : Entry × Option Nat}
    (hp : past now v = true) : past now' v = true := by
  obtain ⟨e, deadline⟩ := v
  cases deadline with
  | none => exact hp
  | some d =>
    simp only [past, Option.any_some, decide_eq_true_eq] at hp ⊢
    omega

/-- Tables that agree on the living go on doing so. -/
theorem living_later (h : ∀ k, t.living now k = t'.living now k) (hle : now ≤ now')
    (hlap : now' < 2 ^ 64) (k : Key) : t.living now' k = t'.living now' k := by
  have through (t : OneMap) :
      t.living now' k = (t.living now k).filter fun v => !past now' v := by
    rw [living, living, Option.filter_filter]
    congr 1
    funext v
    cases hv : past now v with
    | false => simp
    | true => simp [past_mono hle hlap hv]
  rw [through t, through t', h k]

/-- What a get answers depends on the living alone. -/
theorem found?_call_get (t : OneMap) (now : Nat) (k : Key) :
    (t.call now (.get k)).1.found? = some ((t.living now k).map Prod.fst) := by
  simp only [call, living]
  cases t.find? k with
  | none => rfl
  | some v => cases hv : past now v <;> simp [Option.filter, hv, Answer.found?]

/-- What a call makes of the living under a key. -/
theorem living_call (t : OneMap) (now : Nat) (c : Call) (k : Key) :
    (t.call now c).2.living now k =
      match c with
      | .set k' e hint =>
        if k = k' then (some (e, deadline now hint)).filter fun v => !past now v
        else t.living now k
      | .remove k' => if k = k' then none else t.living now k
      | .clear => none
      | _ => t.living now k := by
  cases c with
  | set k' e hint =>
    simp only [call, living, Table.find?_insert]
    split <;> rfl
  | get k' =>
    simp only [call]
    cases hf : t.find? k' with
    | none => rfl
    | some v =>
      cases hv : past now v with
      | false => simp [hv]
      | true =>
        simp only [hv, if_true, living, Table.find?_erase]
        split
        · rename_i hk
          simp [hk, hf, Option.filter, hv]
        · rfl
  | remove k' =>
    simp only [call, living, Table.find?_erase]
    split <;> rfl
  | clear => rfl
  | size => rfl
  | isEmpty => rfl
  | purge => simp [call, living, Table.find?_filter, Option.filter_filter]

/-- The same call keeps tables that agree on the living so, and finds the same. -/
theorem call_of_living (h : ∀ k, t.living now k = t'.living now k) (c : Call) :
    (t.call now c).1.found? = (t'.call now c).1.found? ∧
      ∀ k, (t.call now c).2.living now k = (t'.call now c).2.living now k := by
  refine ⟨?_, fun k => by rw [living_call, living_call, h k]⟩
  cases c with
  | get k => rw [found?_call_get, found?_call_get, h k]
  | set | remove | clear | size | isEmpty | purge => rfl

/-- Purges put in between change nothing that is found. The induction is on where they are put;
it carries two tables that agree on the living at the last reading. -/
theorem found_answers_of_more {calls more : List (Nat × Call)} (hm : MorePurges calls more)
    (h : ∀ k, t.living now k = t'.living now k)
    (sorted : (now :: more.map Prod.fst).Pairwise (· ≤ ·))
    (lap : ∀ reading ∈ more.map Prod.fst, reading < 2 ^ 64) :
    (t'.answers more).filterMap Answer.found? = (t.answers calls).filterMap Answer.found? := by
  induction hm generalizing t t' now with
  | nil => rfl
  | same p hm ih =>
    simp only [List.map_cons, List.pairwise_cons, List.forall_mem_cons] at sorted lap
    have agree := living_later h sorted.1.1 lap.1
    obtain ⟨found, agree⟩ := call_of_living agree p.2
    have rest := ih agree (List.pairwise_cons.mpr sorted.2) lap.2
    simp only [answers, List.filterMap_cons, found, rest]
  | purge reading hm ih =>
    simp only [List.map_cons, List.pairwise_cons, List.forall_mem_cons] at sorted lap
    have agree := living_later h sorted.1.1 lap.1
    have agree' (k : Key) :
        t.living reading k = (t'.call reading .purge).2.living reading k :=
      (agree k).trans (living_call t' reading .purge k).symm
    have rest := ih agree' (List.pairwise_cons.mpr sorted.2) lap.2
    simpa only [answers, List.filterMap_cons, call, Answer.found?] using rest

end OneMap

namespace ShardedStore

/-- **The memory store is one map.** Whatever number of shards is requested and however keys are
hashed, the answers to any calls at any readings of the clock are those of one plain table. And
while the readings go up and stay below 2⁶⁴, purges put in anywhere change nothing that a get
finds. -/
theorem answers_eq_oneMap (hash : Key → Nat) (requested : Nat) (calls : List (Nat × Call)) :
    (create hash requested).answers calls = OneMap.answers Table.empty calls ∧
      ∀ more, MorePurges calls more → (more.map Prod.fst).Pairwise (· ≤ ·) →
        (∀ reading ∈ more.map Prod.fst, reading < 2 ^ 64) →
          ((create hash requested).answers more).filterMap Answer.found? =
            ((create hash requested).answers calls).filterMap Answer.found? := by
  have refines := answers_refines (refines_create hash requested)
  refine ⟨refines calls, fun more hm sorted lap => ?_⟩
  rw [refines more, refines calls]
  have from_zero : (0 :: more.map Prod.fst).Pairwise (· ≤ ·) :=
    List.pairwise_cons.mpr ⟨fun _ _ => Nat.zero_le _, sorted⟩
  exact OneMap.found_answers_of_more hm (fun _ => rfl) from_zero lap

/-- An entry with a hint of five, read at its deadline: a purge just before finds nothing to
drop, one at the deadline drops it, and neither shows. -/
theorem purges_do_not_show :
    let e := Entry.stamped 3 "v" 10 10
    let calls := [(3, Call.set "k" e (some 5)), (7, .get "k"), (8, .get "k")]
    let more := [(3, Call.set "k" e (some 5)), (7, .purge), (7, .get "k"), (8, .purge),
      (8, .get "k")]
    (create String.length 3).answers calls = [.flag true, .found (some e), .found none] ∧
      (create String.length 3).answers more =
        [.flag true, .number 0, .found (some e), .number 1, .found none] ∧
      ((create String.length 3).answers more).filterMap Answer.found? =
        ((create String.length 3).answers calls).filterMap Answer.found? := by
  intro e calls more
  refine ⟨by decide, by decide, ?_⟩
  refine (answers_eq_oneMap String.length 3 calls).2 more ?_ (by decide) (by decide)
  exact .same _ (.purge 7 (.same _ (.purge 8 (.same _ .nil))))

/-- A lap later the entry would have been there again, had it not been purged. -/
example :
    let e := Entry.stamped 3 "v" 10 10
    let back := 2 ^ 64 + 7
    (create String.length 3).answers
        [(3, .set "k" e (some 5)), (8, .purge), (back, .get "k")] =
      [.flag true, .number 1, .found none] ∧
    (create String.length 3).answers [(3, .set "k" e (some 5)), (back, .get "k")] =
      [.flag true, .found (some e)] := by
  decide

end ShardedStore

end Evergreen
