import Evergreen.Entry

/-!
# Tables

A table holds at most one value for each key. Reading it through `Table.find?` is all that
most of the library does, and every operation is described by what it does to that view:

- `find?_insert`, `find?_erase`, `find?_filter`, `find?_empty`;
- `mem_keys_iff`: the keys are those under which something is found.
-/

namespace Evergreen

/-- At most one value for each key, the last inserted first. -/
structure Table (α : Type) where
  pairs : List (Key × α) := []
  distinct : (pairs.map (·.1)).Nodup := by simp

namespace Table

variable {α : Type}

def empty : Table α := {}

instance : Inhabited (Table α) := ⟨empty⟩

/-- The value under a key. -/
def find? (t : Table α) (k : Key) : Option α :=
  (t.pairs.find? fun p => p.1 == k).map (·.2)

/-- Whether there is a value under a key. -/
def contains (t : Table α) (k : Key) : Bool := (t.find? k).isSome

/-- The pairs that satisfy a condition. -/
def filter (t : Table α) (keep : Key → α → Bool) : Table α where
  pairs := t.pairs.filter fun p => keep p.1 p.2
  distinct := t.distinct.sublist ((List.filter_sublist).map _)

/-- The table without a key. -/
def erase (t : Table α) (k : Key) : Table α := t.filter fun k' _ => k' != k

/-- The table with a value under a key, in place of the one before. -/
def insert (t : Table α) (k : Key) (v : α) : Table α where
  pairs := (k, v) :: (t.erase k).pairs
  distinct := by
    simp only [List.map_cons, List.nodup_cons]
    refine ⟨?_, (t.erase k).distinct⟩
    simp [erase, filter]

def keys (t : Table α) : List Key := t.pairs.map (·.1)

def values (t : Table α) : List α := t.pairs.map (·.2)

/-- How many keys there are. -/
def size (t : Table α) : Nat := t.pairs.length

/-! ## The view -/

/-- Nothing is found in the empty table. -/
@[simp] theorem find?_empty (k : Key) : (empty : Table α).find? k = none := rfl

/-- A value is found under a key iff the pair of them is in the table: keys are distinct. -/
theorem find?_eq_some_iff {t : Table α} {k : Key} {v : α} :
    t.find? k = some v ↔ (k, v) ∈ t.pairs := by
  obtain ⟨ps, h⟩ := t
  simp only [find?]
  induction ps with
  | nil => simp
  | cons p ps ih =>
    obtain ⟨k', v'⟩ := p
    simp only [List.map_cons, List.nodup_cons, List.mem_map, Prod.exists, exists_and_right,
      exists_eq_right, not_exists] at h
    by_cases hk : k' = k
    · subst hk
      simp only [List.find?_cons, beq_self_eq_true, Option.map_some, Option.some.injEq,
        List.mem_cons, Prod.mk.injEq, true_and]
      exact ⟨fun e => .inl e.symm, fun e => e.elim Eq.symm fun m => absurd m (h.1 v)⟩
    · have hb : (k' == k) = false := by simpa using hk
      simp only [List.find?_cons, hb, List.mem_cons, Prod.mk.injEq]
      rw [ih h.2]
      exact ⟨.inr, fun e => e.elim (fun e => absurd e.1.symm hk) id⟩

/-- The keys are those under which something is found. -/
theorem mem_keys_iff {t : Table α} {k : Key} : k ∈ t.keys ↔ (t.find? k).isSome = true := by
  rw [Option.isSome_iff_exists]
  simp [keys, find?_eq_some_iff]

/-- Nothing is found under what is no key, and only there. -/
theorem find?_eq_none_iff {t : Table α} {k : Key} : t.find? k = none ↔ k ∉ t.keys := by
  rw [mem_keys_iff]
  simp

/-- A filter lets go of a value, or leaves it: it cannot bring up another under the same key. -/
theorem find?_filter (t : Table α) (keep : Key → α → Bool) (k : Key) :
    (t.filter keep).find? k = (t.find? k).filter (keep k) := by
  apply Option.ext
  intro v
  rw [find?_eq_some_iff, Option.filter_eq_some_iff, find?_eq_some_iff]
  simp [filter]

/-- After a removal nothing is found under the key, and the same as before elsewhere. -/
theorem find?_erase (t : Table α) (k k' : Key) :
    (t.erase k).find? k' = if k' = k then none else t.find? k' := by
  rw [erase, find?_filter]
  by_cases h : k' = k
  · subst h
    cases t.find? k' <;> simp [Option.filter]
  · cases t.find? k' <;> simp [Option.filter, h]

/-- What was removed is not found. -/
@[simp] theorem find?_erase_self (t : Table α) (k : Key) : (t.erase k).find? k = none := by
  simp [find?_erase]

/-- A removal does not show under other keys. -/
theorem find?_erase_other (t : Table α) {k k' : Key} (h : k' ≠ k) :
    (t.erase k).find? k' = t.find? k' := by simp [find?_erase, h]

/-- After an insertion the value is found under the key, and the same as before elsewhere. -/
theorem find?_insert (t : Table α) (k k' : Key) (v : α) :
    (t.insert k v).find? k' = if k' = k then some v else t.find? k' := by
  by_cases h : k' = k
  · subst h
    simp [insert, find?]
  · have hb : (k == k') = false := by simpa using fun e => h e.symm
    rw [if_neg h, ← find?_erase_other t h]
    simp [insert, find?, hb]

/-- What was inserted last is found. -/
@[simp] theorem find?_insert_self (t : Table α) (k : Key) (v : α) :
    (t.insert k v).find? k = some v := by simp [find?_insert]

/-- An insertion does not show under other keys. -/
theorem find?_insert_other (t : Table α) {k k' : Key} (v : α) (h : k' ≠ k) :
    (t.insert k v).find? k' = t.find? k' := by simp [find?_insert, h]

end Table

end Evergreen
