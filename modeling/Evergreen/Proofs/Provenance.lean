import Evergreen.Proofs.CarryOvers
import Evergreen.Proofs.ModeTable

/-!
# Where values come from

A value goes many ways through a cache: into the store, out of it as the stale entry of a task
or a load, back into it when a loader fails, and to whoever gets or peeks at its key. On none of
these ways does it come under another key, and nothing on them makes a value up.

`Brings` says which moves bring a value for a key: it is given to the cache, or the loader of a
request of the key returns it. `Within K c` says that all values a cache has, wherever they are,
are among those that `K` has for their key.

- `Within.after`: a move that brings nothing else keeps the values of a cache among them;
- `Returns.known`: what a get returns is among them as well;
- `kept?_run_last`: what is kept after a run was put there last, or was there all the time;
- `values_have_provenance`: so every value was brought for its key, and an entry that is kept is
  marked as carried over exactly if the policy of a failed load has put it there.
-/

namespace Evergreen.Cache

/-! ## Values that are brought -/

/-- A move brings a value for a key: the cache is given it, or a loader returns it. -/
inductive Brings (c : Cache) (k : Key) : Value → Move → Prop
  | set (v : Value) (ttl : Nat) : Brings c k v (.set k v ttl)
  | setEntry (e : Entry) : Brings c k e.value (.setEntry k e)
  | loaded (l : Load) (v : Value) (cacheable : Bool) (hl : c.load? l.id = some l)
    (hk : l.key = k) : Brings c k v (.finish l.id (.value v cacheable))

/-- A value is known for a key after a run: some move has brought it, or the store had it under
that key from the beginning. In a run from an empty store, only the first can be. -/
def Known (c : Cache) (ms : List Move) (k : Key) (v : Value) : Prop :=
  Sometime (fun c m => c.Brings k v m) c ms ∨ ∃ e, c.backing.kept? k = some e ∧ e.value = v

/-- All values in a cache are among those that `K` has for their key. -/
structure Within (K : Key → Value → Prop) (c : Cache) : Prop where
  kept : ∀ k e, c.backing.kept? k = some e → K k e.value
  waiting : ∀ task ∈ c.crew.waiting, ∀ e, task.stale = some e → K task.key e.value
  loads : ∀ l ∈ c.loads, ∀ e, l.stale = some e → K l.key e.value

/-! ## Steps -/

section Steps

variable {K : Key → Value → Prop} {c : Cache} {m : Move} {k : Key} {e : Entry}

/-- What a move puts in the store is a value that it brings, or the stale value of a load. -/
theorem Puts.brings_or_stale (h : c.Puts k e m) :
    c.Brings k e.value m ∨
      ∃ l ∈ c.loads, l.key = k ∧ ∃ stale, l.stale = some stale ∧ stale.value = e.value := by
  cases h with
  | set v ttl _ => exact .inl (.set v ttl)
  | setEntry e _ => exact .inl (.setEntry e)
  | ended l o e hl hk hr _ _ =>
    cases o with
    | value v cacheable =>
      simp only [result?] at hr
      split at hr
      · cases hr
        exact .inl (.loaded l v cacheable hl hk)
      · cases hr
    | failure f =>
      obtain ⟨stale, hs, -, hv, -⟩ := carryOver?_eq_some hr
      exact .inr ⟨l, List.mem_of_find?_eq_some hl, hk, stale, hs, hv.symm⟩
    | panic text => cases hr

/-- What can be found is kept, so it is among what is kept. -/
theorem Within.found (h : c.Within K) (he : c.finds k = some e) : K k e.value :=
  h.kept k e (kept?_of_finds he)

/-- **A move that brings nothing else** leaves the values of a cache among those they were
among. -/
theorem Within.after (h : c.Within K) (hm : ∀ k v, c.Brings k v m → K k v) :
    (c.after m).Within K := by
  constructor
  · intro k e he
    rcases kept?_after_from he with hkept | hput
    · exact h.kept k e hkept
    · rcases hput.brings_or_stale with hbrings | ⟨l, hl, rfl, stale, hs, hv⟩
      · exact hm k e.value hbrings
      · exact hv ▸ h.loads l hl stale hs
  · intro task ht e he
    rcases mem_waiting_after ht with ht | found
    · exact h.waiting task ht e he
    · exact h.found (found e he)
  · intro l hl e he
    rcases mem_loads_after hl with hl | ⟨-, -, hhanded⟩
    · exact h.loads l hl e he
    · cases hhanded with
      | looked _ found => exact h.found (found e he)
      | waited _ task ht hr hs =>
        have hk : task.key = l.key := congrArg Request.key hr
        exact hk ▸ h.waiting task ht e (hs.trans he)

end Steps

/-! ## Runs -/

section Runs

variable {c : Cache} {b : Blueprint} {now : Nat} {k : Key} {v : Value} {ms : List Move}

theorem Known.append (h : c.Known ms k v) (ms' : List Move) : c.Known (ms ++ ms') k v :=
  h.imp_left fun hms => sometime_append.2 (.inl hms)

/-- What the last move of a run brings is known. -/
theorem Brings.known {m : Move} (h : (c.run ms).Brings k v m) : c.Known (ms ++ [m]) k v :=
  .inl (sometime_append.2 (.inr (.inl h)))

/-- Each move of a run brings nothing but what is known after the run. -/
theorem brings_known (c : Cache) (ms : List Move) :
    Along (fun c' m => ∀ kv : Key × Value, c'.Brings kv.1 kv.2 m → c.Known ms kv.1 kv.2) c ms :=
  along_of_sometime fun _ => .inl

/-- **After a run from a cache just built, all values are known** for the key they are under. -/
theorem within_run (hb : b.build now = .ok c) (ms : List Move) :
    (c.run ms).Within (c.Known ms) := by
  obtain ⟨hwaiting, hloads⟩ := tasks_of_build hb
  refine (c.brings_known ms).preserves
    (fun c' m h hm => h.after fun k v => hm (k, v)) ⟨?_, ?_, ?_⟩
  · exact fun k e he => .inr ⟨e, he, rfl⟩
  · simp [hwaiting]
  · simp [hloads]

end Runs

/-! ## Values that are returned -/

/-- A get comes to a value: at once; once the reload is done that the executor runs on the
caller's thread; or with what the caller's load comes to after any moves in between. The moves
listed are those of the get, from its call to its return. -/
inductive Returns (c : Cache) (r : Request) (v : Value) : List Move → Prop
  | answered (h : (c.get r).1 = .answered (some v)) : Returns c r v [.get r]
  | lent (l : Load) (h : (c.get r).1 = .lent l (some v)) : Returns c r v [.get r]
  | loaded (l : Load) (ms : List Move) (o : Outcome) (h : (c.get r).1 = .loading l)
    (hl : (c.run (.get r :: ms)).load? l.id = some l)
    (hv : ((c.run (.get r :: ms)).finish l o).1 = .returned (some v)) :
    Returns c r v (.get r :: ms ++ [.finish l.id o])

section Returns

variable {K : Key → Value → Prop} {c : Cache} {r : Request} {l : Load} {v : Value}

/-- A get replies with a load of its request, or with what it finds. -/
theorem get_fst_cases (c : Cache) (r : Request) :
    (∃ l, (c.get r).1 = .loading l ∧ l.request = r) ∨
      (c.get r).1 = .answered ((c.usable r).map (·.value)) ∨
      ∃ l, (c.get r).1 = .lent l ((c.usable r).map (·.value)) := by
  rw [get_eq]
  cases c.nextAction r with
  | serve => exact .inr (.inl rfl)
  | loadForCaller => exact .inl ⟨_, rfl, rfl⟩
  | serveAndRegister => exact .inr (.inl rfl)
  | serveAndReload =>
    dsimp only
    split
    · exact .inr (.inl rfl)
    · exact .inr (.inr ⟨_, rfl⟩)

/-- What a get hands out is what it finds. -/
theorem usable_of_reply
    (h : (c.get r).1 = .answered (some v) ∨ ∃ l, (c.get r).1 = .lent l (some v)) :
    ∃ e, c.usable r = some e ∧ e.value = v := by
  rw [← Option.map_eq_some_iff]
  rcases c.get_fst_cases r with ⟨l', hg, -⟩ | hg | ⟨l', hg⟩
  · rw [hg] at h
    rcases h with h | ⟨l, h⟩ <;> cases h
  · rw [hg] at h
    rcases h with h | ⟨l, h⟩
    · exact Reply.answered.inj h
    · cases h
  · rw [hg] at h
    rcases h with h | ⟨l, h⟩
    · cases h
    · exact (Reply.lent.inj h).2

/-- The load that a caller waits for is of the caller's request. -/
theorem request_of_loading (h : (c.get r).1 = .loading l) : l.request = r := by
  rcases c.get_fst_cases r with ⟨l', hg, hr⟩ | hg | ⟨l', hg⟩
  · rw [hg] at h
    exact Reply.loading.inj h ▸ hr
  · rw [hg] at h
    cases h
  · rw [hg] at h
    cases h

/-- A load comes to the value that its loader returns, or to its stale value. -/
theorem value_of_finish {o : Outcome} (hv : (c.finish l o).1 = .returned (some v)) :
    (∃ cacheable, o = .value v cacheable) ∨ ∃ e, l.stale = some e ∧ e.value = v := by
  cases o with
  | value w cacheable =>
    rw [finish_fst] at hv
    cases hv
    exact .inl ⟨cacheable, rfl⟩
  | failure f =>
    rw [finish_failure_fst, fallback] at hv
    cases hf : (cell l).fallback with
    | propagate =>
      rw [hf] at hv
      cases hv
    | returnNone =>
      rw [hf] at hv
      cases hv
    | returnStale =>
      rw [hf] at hv
      exact .inr (Option.map_eq_some_iff.1 (Ending.returned.inj hv))
  | panic text =>
    rw [finish_fst] at hv
    cases hv

/-- **What a get returns is known** for its key by then. -/
theorem Returns.known {b : Blueprint} {now : Nat} (hb : b.build now = .ok c) {ms ms' : List Move}
    (h : (c.run ms).Returns r v ms') : c.Known (ms ++ ms') r.key v := by
  have hserved : ∀ w, ((c.run ms).get r).1 = .answered (some w) ∨
      (∃ l, ((c.run ms).get r).1 = .lent l (some w)) → c.Known ms r.key w := by
    intro w hreply
    obtain ⟨e, he, rfl⟩ := usable_of_reply hreply
    exact (within_run hb ms).found (finds_of_usable he)
  cases h with
  | answered h => exact (hserved v (.inl h)).append _
  | lent l h => exact (hserved v (.inr ⟨l, h⟩)).append _
  | loaded l ms' o h hl hv =>
    have hk : l.key = r.key := congrArg Request.key (request_of_loading h)
    rw [← run_append] at hl hv
    rw [← List.append_assoc, ← hk]
    rcases value_of_finish hv with ⟨cacheable, rfl⟩ | ⟨e, he, rfl⟩
    · exact (Brings.loaded l v cacheable hl rfl).known
    · -- the load falls back on its stale value, which has come out of the store
      have hmem := List.mem_of_find?_eq_some hl
      exact ((within_run hb _).loads l hmem e he).append _

end Returns

/-! ## Who has put there what is kept -/

/-- In a run, a move puts an entry under a key, and nothing is put there from then on: `c'` is
the cache before that move. -/
def PutLast (c : Cache) (ms : List Move) (k : Key) (e : Entry) (c' : Cache) (m : Move) : Prop :=
  ∃ before after, ms = before ++ m :: after ∧ c' = c.run before ∧ c'.Puts k e m ∧
    Along (fun c m => ∀ e', ¬ c.Puts k e' m) (c'.after m) after

/-- A move is the end of a load of a key that has failed, and the entry is what its policy has it
write back. -/
def CarriesOver (c : Cache) (k : Key) (e : Entry) (m : Move) : Prop :=
  ∃ l f, m = .finish l.id (.failure f) ∧ c.load? l.id = some l ∧ l.key = k ∧
    carryOver? l c.now = some e

/-- The entries that a cache is given come from their constructor. -/
def Made (_ : Cache) : Move → Prop
  | .setEntry _ e => ∃ now, Entry.create now e.value e.hard e.soft = .ok e
  | _ => True

section Writers

variable {c : Cache} {m : Move} {ms : List Move} {k : Key} {e : Entry}

/-- A write that the store accepts is kept. -/
theorem kept?_write_self (h : (c.write k e).1 = true) :
    (c.write k e).2.backing.kept? k = some e := by
  rw [kept?_write, if_pos ⟨(c.write_fst k e).1 h, rfl⟩]

/-- What a move puts under a key is kept there. -/
theorem Puts.kept?_after (h : c.Puts k e m) : (c.after m).backing.kept? k = some e := by
  cases h with
  | set v ttl h =>
    show (c.set k v ttl).2.backing.kept? k = _
    rcases c.set_eq_or k v ttl with ⟨fault, hset⟩ | hset
    · rw [hset] at h
      cases h
    · rw [hset] at h ⊢
      exact kept?_write_self (Except.ok.inj h)
  | setEntry e h =>
    show (c.setEntry k e).2.backing.kept? k = _
    rcases c.setEntry_eq_or k e with ⟨fault, hset⟩ | hset
    · rw [hset] at h
      cases h
    · rw [hset] at h ⊢
      exact kept?_write_self (Except.ok.inj h)
  | ended l o e hl hk hr hg hv =>
    subst hk
    rw [after_finish hl, kept?_finish hr, if_pos ⟨hg, hv, rfl⟩]

/-- **What is kept after a run** was put there last, or was there all the time. -/
theorem kept?_run_last (h : (c.run ms).backing.kept? k = some e) :
    (c.backing.kept? k = some e ∧ Along (fun c m => ∀ e', ¬ c.Puts k e' m) c ms) ∨
      ∃ c' m, c.PutLast ms k e c' m := by
  induction ms generalizing c with
  | nil => exact .inl ⟨h, trivial⟩
  | cons m ms ih =>
    rcases ih h with ⟨hkept, hrest⟩ | ⟨c', m', before, after, rfl, rfl, hput, hrest⟩
    · by_cases hput : ∃ e', c.Puts k e' m
      · -- what the move puts there is what is kept
        obtain ⟨e', hput⟩ := hput
        have he := hput.kept?_after
        rw [hkept] at he
        cases he
        exact .inr ⟨c, m, [], ms, rfl, rfl, hput, hrest⟩
      · have hnone := not_exists.1 hput
        rcases kept?_after_from hkept with hkept | hput
        · exact .inl ⟨hkept, hnone, hrest⟩
        · exact absurd hput (hnone e)
    · exact .inr ⟨_, m', m :: before, after, rfl, rfl, hput, hrest⟩

/-- What a move puts in the store is marked as carried over exactly if the policy of a failed load
has it written. -/
theorem Puts.carried_iff (h : c.Puts k e m) (hm : c.Made m) :
    e.carried = true ↔ c.CarriesOver k e m := by
  constructor
  · intro he
    rcases h.of_carried he with hfailed | rfl
    · exact hfailed
    · -- the constructor marks nothing as carried over
      obtain ⟨now, hcreate⟩ := hm
      rw [(Entry.create_eq_ok_iff.1 hcreate).1] at he
      cases he
  · rintro ⟨l, f, -, -, -, hr⟩
    obtain ⟨stale, -, -, -, -, hcarried⟩ := carryOver?_eq_some hr
    exact hcarried

end Writers

/-- **Values have a provenance.** Let a cache be built, over whatever store, and let any run
follow. Every value is known for the key it goes under, so the cache was given it for that key or
a loader of a request of that key returned it, unless the store had it from the beginning:

1. a value that is kept under the key;
2. the stale value of a task that waits, under the key of its request;
3. the stale value of a load under way;
4. what a peek finds;
5. what a get returns, at once or when its load has come to its end, after whatever has happened
   meanwhile.

Besides:

6. a load whose value is not to be stored leaves the store as it is;
7. if the entries that the cache was given come from their constructor, an entry that is kept was
   either there all the time, with nothing put in its place, or was put there last by a move, and
   it is marked as carried over exactly if that move is the end of a failed load whose policy has
   it written. -/
theorem values_have_provenance {b : Blueprint} {now : Nat} {c : Cache} (hb : b.build now = .ok c)
    (ms : List Move) :
    (∀ k e, (c.run ms).backing.kept? k = some e → c.Known ms k e.value) ∧
    (∀ task ∈ (c.run ms).crew.waiting, ∀ e, task.stale = some e → c.Known ms task.key e.value) ∧
    (∀ l ∈ (c.run ms).loads, ∀ e, l.stale = some e → c.Known ms l.key e.value) ∧
    (∀ k e, ((c.run ms).peek k).1 = some e → c.Known ms k e.value) ∧
    (∀ r v ms', (c.run ms).Returns r v ms' → c.Known (ms ++ ms') r.key v) ∧
    (∀ id v, ((c.run ms).after (.finish id (.value v false))).backing = (c.run ms).backing) ∧
    (Along Made c ms → ∀ k e, (c.run ms).backing.kept? k = some e →
      (c.backing.kept? k = some e ∧ Along (fun c m => ∀ e', ¬ c.Puts k e' m) c ms) ∨
      ∃ c' m, c.PutLast ms k e c' m ∧ (e.carried = true ↔ c'.CarriesOver k e m)) := by
  have hwithin := within_run hb ms
  refine ⟨hwithin.kept, hwithin.waiting, hwithin.loads, ?_, ?_, ?_, ?_⟩
  · intro k e he
    exact hwithin.found (finds_of_lookup he)
  · intro r v ms' h
    exact h.known hb
  · intro id v
    rcases (c.run ms).after_finish_eq_or id (.value v false) with h | ⟨l, -, -, h⟩
    · rw [h]
    · rw [h, backing_finish]
      rfl
  · intro hmade k e he
    rcases kept?_run_last he with hfirst | ⟨c', m, hlast⟩
    · exact .inl hfirst
    · obtain ⟨before, after, rfl, rfl, hput, -⟩ := id hlast
      have hm := (along_append.1 hmade).2.1
      exact .inr ⟨_, m, hlast, hput.carried_iff hm⟩

/-- What is kept once the reload has failed has the value that was given for the key at first, and
the failed load has put it there. -/
theorem values_have_provenance_failedReload :
    (overMap (.byHand none)).Known failedReload "profile" "old" ∧
      ∃ c' m, (overMap (.byHand none)).PutLast failedReload "profile"
          (old.carriedOver (2 * Clock.second) (10 * Clock.second) 0) c' m ∧
        c'.CarriesOver "profile" (old.carriedOver (2 * Clock.second) (10 * Clock.second) 0) m := by
  have hb : Blueprint.build
      { store := some (.plain Table.empty), executor := some (.byHand none) } 0 =
      .ok (overMap (.byHand none)) := rfl
  have hkept : ((overMap (.byHand none)).run failedReload).backing.kept? "profile" =
      some (old.carriedOver (2 * Clock.second) (10 * Clock.second) 0) := rfl
  obtain ⟨hknown, -, -, -, -, -, hwritten⟩ := values_have_provenance hb failedReload
  refine ⟨hknown _ _ hkept, ?_⟩
  have hmade : Along Made (overMap (.byHand none)) failedReload :=
    ⟨⟨0, rfl⟩, trivial, trivial, trivial, trivial, trivial⟩
  rcases hwritten hmade _ _ hkept with ⟨hfirst, -⟩ | ⟨c', m, hlast, hiff⟩
  · cases hfirst
  · exact ⟨c', m, hlast, hiff.1 rfl⟩

end Evergreen.Cache
