import Evergreen.Proofs.HardExpiry
import Evergreen.Proofs.NativeExpiry

/-!
# Loads that give up their value

A load that has a value gives it up if the store holds an entry that was made after the load
began. The guard that decides this takes what the store finds as it is, while a get looks at its
age. So a load may step back for an entry that nobody will ever be served: one that has passed
its hard lifetime in a store that pays no heed to deadlines, and that nobody has looked up since.

- `givesUp_iff`: when a load gives its value up;
- `hits_iff`: when a get is a hit;
- `gives_up_in_vain_iff`: a load gives up its value in vain exactly if what it steps back for is
  past its hard lifetime; `value_given_up_in_vain` is a run in which it is;
- `not_givesUpInVain_of_memory`: a memory store whose entries all have a deadline drops such an
  entry before a load can meet it.
-/

namespace Evergreen

/-! ## Stores that drop what is past its time -/

/-- A backing is a memory store, and what it keeps under a key has a deadline by the end of its
hard lifetime. -/
structure Backing.Drops (b : Backing) (k : Key) : Prop where
  memory : ∃ s, b.store = .memory s
  inTime : ∀ slot, b.slot? k = some slot →
    ∃ d, slot.deadline = some d ∧ d ≤ slot.entry.since + slot.entry.hard

namespace Backing

variable {b b' : Backing} {k : Key} {now : Nat}

/-- What a read finds in time is not past its hard lifetime. -/
theorem Drops.not_hardExpired (h : b.Drops k) (hn : now < Clock.lap) {e : Entry}
    (he : b.store.find? now k = some e) : e.hardExpired now = false := by
  rw [Store.find?_eq_slot?, Option.map_eq_some_iff] at he
  obtain ⟨slot, hslot, rfl⟩ := he
  obtain ⟨hs, hx⟩ := Option.filter_eq_some_iff.1 hslot
  obtain ⟨d, hd, hle⟩ := h.inTime slot hs
  rw [Bool.not_eq_true', Bool.eq_false_iff, Ne, Slot.expired_iff] at hx
  rw [Bool.eq_false_iff, Ne, Entry.hardExpired_iff]
  intro hlt
  refine hx ⟨d, hd, ?_⟩
  rw [Clock.wrap_of_lt hn]
  omega

end Backing

namespace Cache

/-- A move is allowed, and what it puts in the store has time left, no more than the lap of the
64-bit clock. -/
structure Dated (c : Cache) (m : Move) : Prop where
  allowed : c.Allows m
  hasDeadline : ∀ k e, c.Puts k e m → e.HasDeadline c.now

/-- An entry gets its deadline from the time that it has left when it is written. -/
theorem drops_after {c : Cache} {m : Move} {k : Key} (h : c.backing.Drops k) (hm : c.Dated m)
    (hn : c.now < Clock.lap) : (c.after m).backing.Drops k := by
  obtain ⟨s, hs⟩ := h.memory
  refine ⟨?_, fun slot hslot => ?_⟩
  · have hkind := c.isMemory_after m
    rw [hs] at hkind
    exact Store.isMemory_iff.1 hkind
  · rcases slot?_after_from hslot with hbefore | ⟨e, hput, rfl⟩
    · exact h.inTime slot hbefore
    · have hhas := hm.hasDeadline k e hput
      have hleft := hhas.1
      rw [hs]
      refine ⟨_, (Slot.deadline_filled (hput.since_le_now hm.allowed)).2 ⟨hhas, rfl⟩, ?_⟩
      rw [Clock.wrap_of_lt hn]
      show c.now + (e.since + e.hard - c.now) ≤ e.since + e.hard
      omega

/-- **A memory store drops what is past its time,** if all that is put there has a deadline. -/
theorem drops_run {c : Cache} {k : Key} (h : c.backing.Drops k) {ms : List Move}
    (hms : Along Dated c ms) (hn : (c.run ms).now < Clock.lap) : (c.run ms).backing.Drops k := by
  induction ms generalizing c with
  | nil => exact h
  | cons m ms ih =>
    have hstep := c.now_le_after m
    have hrest := (c.after m).now_le_run ms
    rw [run_cons] at hn
    exact ih (drops_after h hms.1 (by omega)) hms.2 hn

/-! ## Loads and gets -/

/-- A load that has a value ends without writing it: the store is not asked to keep it, and the
write is counted as superseded. -/
structure GivesUp (c : Cache) (l : Load) (v : Value) : Prop where
  unasked : (c.after (.finish l.id (.value v true))).backing.calls .set = c.backing.calls .set
  counted : (c.after (.finish l.id (.value v true))).counters .writesSuperseded =
    c.counters .writesSuperseded + 1

/-- A read finds an entry under the key of a load that was made after the load began, and not by
a failed load. -/
structure Overtaken (c : Cache) (l : Load) (e : Entry) : Prop where
  found : c.backing.store.find? c.now l.key = some e
  younger : l.started < e.since
  uncarried : e.carried = false

/-- A get is a hit: it is counted as one, and not as a miss. -/
structure Hits (c : Cache) (r : Request) : Prop where
  hit : (c.get r).2.counters .freshHits + (c.get r).2.counters .staleHits =
    c.counters .freshHits + c.counters .staleHits + 1
  notMissed : (c.get r).2.counters .misses = c.counters .misses

/-- A load gives up its value, and every get of its key at that instant is a miss. -/
structure GivesUpInVain (c : Cache) (l : Load) (v : Value) : Prop extends c.GivesUp l v where
  misses : ∀ r : Request, r.key = l.key → (c.after (.finish l.id (.value v true))).Misses r

/-- A get is a hit exactly if the store yields something. -/
theorem hits_iff {c : Cache} {r : Request} : c.Hits r ↔ c.yields r.key ≠ none := by
  constructor
  · intro h hnone
    have hmissed := (misses_of_yields hnone).missed
    rw [h.notMissed] at hmissed
    omega
  · intro hsome
    obtain ⟨e, he⟩ := Option.ne_none_iff_exists'.1 hsome
    have hcount {k : Counter} (hk : k.countsFinds = true) := c.counters_get r hk
    rw [he, freshness_of_yields he] at hcount
    constructor
    · rw [hcount rfl, hcount rfl]
      cases e.softExpired c.now with
      | true =>
        rw [if_pos rfl, Freshness.counter, Counters.bump_self, Counters.bump_other _ (by decide)]
        omega
      | false =>
        rw [if_neg nofun, Freshness.counter, Counters.bump_self, Counters.bump_other _ (by decide)]
        omega
    · rw [hcount rfl]
      cases e.softExpired c.now <;> exact Counters.bump_other _ (by decide)

/-! ## Giving up -/

section GivingUp

variable {c : Cache} {l : Load} {v : Value} {e : Entry}

theorem givesUp_iff_newer (hl : c.load? l.id = some l) :
    c.GivesUp l v ↔ (c.newer l.key l.started).1 = true := by
  have hcalls := calls_finish (c := c) (l := l) (o := .value v true) rfl
  constructor
  · intro h
    have hunasked := h.unasked
    rw [after_finish hl, hcalls] at hunasked
    cases hg : (c.newer l.key l.started).1 with
    | true => rfl
    | false => simp [hg] at hunasked
  · intro hg
    rw [hg] at hcalls
    constructor
    · rw [after_finish hl]
      exact hcalls
    · rw [after_finish hl]
      exact counters_finish_of_newer hg v

/-- A load gives up its value exactly if it was overtaken. -/
theorem givesUp_iff (hf : c.backing.forecast.Reliable) (hl : c.load? l.id = some l) :
    c.GivesUp l v ↔ ∃ e, c.Overtaken l e := by
  rw [givesUp_iff_newer hl, newer_eq_true_iff c hf]
  constructor
  · rintro ⟨e, found, younger, uncarried⟩
    exact ⟨e, found, younger, uncarried⟩
  · rintro ⟨e, h⟩
    exact ⟨e, h.found, h.younger, h.uncarried⟩

/-- What a load steps back for stands there when it has ended. -/
theorem Overtaken.found_after (h : c.Overtaken l e) (hf : c.backing.forecast.Reliable)
    (hl : c.load? l.id = some l) (v : Value) :
    (c.after (.finish l.id (.value v true))).backing.store.find? c.now l.key = some e := by
  have hg : (c.newer l.key l.started).1 = true :=
    (newer_eq_true_iff c hf).2 ⟨e, h.found, h.younger, h.uncarried⟩
  have hr : result? l c.now (.value v true) = some (c.loaded l v) := rfl
  rw [after_finish hl, backing_finish, hr]
  dsimp only
  rw [backing_writeLoaded, hg, if_pos rfl]
  unfold Backing.get
  rw [Backing.verdict_get_of_reliable hf]
  exact (Store.find?_get ..).trans h.found

/-- A get of the key then is a hit exactly if the entry is not past its hard lifetime. -/
theorem Overtaken.hits_iff (h : c.Overtaken l e) (hf : c.backing.forecast.Reliable)
    (hl : c.load? l.id = some l) (v : Value) {r : Request} (hr : r.key = l.key) :
    (c.after (.finish l.id (.value v true))).Hits r ↔ c.now ≤ e.since + e.hard := by
  have hfound := h.found_after hf hl v
  have hnow : (c.after (.finish l.id (.value v true))).now = c.now := now_after ..
  have hverdict : (c.after (.finish l.id (.value v true))).backing.verdict .get = .pass := by
    refine Backing.verdict_get_of_reliable ?_
    rw [forecast_after]
    exact hf
  rw [Cache.hits_iff, hr, ← Nat.not_lt, ← Entry.hardExpired_iff, Bool.not_eq_true]
  constructor
  · intro hsome
    obtain ⟨e', he'⟩ := Option.ne_none_iff_exists'.1 hsome
    obtain ⟨-, hfound', hlive⟩ := yields_eq_some_iff.1 he'
    rw [hnow, hfound, Option.some.injEq] at hfound'
    rwa [hfound', ← hnow]
  · intro hlive
    rw [yields_eq_some_iff.2 ⟨hverdict, hnow ▸ hfound, hnow ▸ hlive⟩]
    nofun

/-- An overtaken load gives up its value in vain exactly if the entry is past its hard
lifetime. -/
theorem Overtaken.givesUpInVain_iff (h : c.Overtaken l e) (hf : c.backing.forecast.Reliable)
    (hl : c.load? l.id = some l) : c.GivesUpInVain l v ↔ e.since + e.hard < c.now := by
  constructor
  · intro hvain
    -- a get of the load's own request would be a hit and a miss
    refine Nat.lt_of_not_le fun hle => ?_
    have hhits := (h.hits_iff hf hl v rfl).2 hle
    have hmissed := (hvain.misses l.request rfl).missed
    rw [hhits.notMissed] at hmissed
    omega
  · intro hlt
    refine ⟨(givesUp_iff hf hl).2 ⟨e, h⟩, fun r hr => misses_of_yields ?_⟩
    refine Classical.not_not.1 fun hsome => ?_
    have hle := (h.hits_iff hf hl v hr).1 (Cache.hits_iff.2 hsome)
    omega

end GivingUp

/-- **When a load gives up its value in vain.** Let a load that has a value end, over a store none
of whose calls fails.

1. It gives up its value exactly if a read finds an entry that was made after the load began, and
   not by a failed load;
2. that entry stands there when the load has ended, and a get of the key at that instant is a hit
   exactly if the entry is not past its hard lifetime;
3. so it gives up its value in vain exactly if the entry is past it: the guard looks at the date
   of the entry and not at its age;
4. that cannot be if the load has taken no longer than the entry may be served. -/
theorem gives_up_in_vain_iff {c : Cache} (hf : c.backing.forecast.Reliable) {l : Load}
    (hl : c.load? l.id = some l) (v : Value) :
    (c.GivesUp l v ↔ ∃ e, c.Overtaken l e) ∧
    (∀ e, c.Overtaken l e →
      (c.after (.finish l.id (.value v true))).backing.store.find? c.now l.key = some e ∧
      ∀ r : Request, r.key = l.key →
        ((c.after (.finish l.id (.value v true))).Hits r ↔ c.now ≤ e.since + e.hard)) ∧
    (c.GivesUpInVain l v ↔ ∃ e, c.Overtaken l e ∧ e.since + e.hard < c.now) ∧
    (∀ e, c.Overtaken l e → c.now ≤ l.started + e.hard → ¬ c.GivesUpInVain l v) := by
  refine ⟨givesUp_iff hf hl, ?_, ⟨?_, ?_⟩, ?_⟩
  · intro e h
    exact ⟨h.found_after hf hl v, fun r hr => h.hits_iff hf hl v hr⟩
  · intro hvain
    obtain ⟨e, h⟩ := (givesUp_iff hf hl).1 hvain.toGivesUp
    exact ⟨e, h, (h.givesUpInVain_iff hf hl).1 hvain⟩
  · rintro ⟨e, h, hlt⟩
    exact (h.givesUpInVain_iff hf hl).2 hlt
  · intro e h hle hvain
    have hlt := (h.givesUpInVain_iff hf hl).1 hvain
    have hyounger := h.younger
    omega

/-- While a slow loader runs, a value is set for a second, and its time passes. -/
def spoiled : List Move :=
  [.get { profile with mode := .block }, .tick 1, .set "profile" "new" Clock.second,
    .tick (2 * Clock.second)]

theorem reachable_spoiled : ((overMap .threads).run spoiled).Reachable := by
  have hr : { profile with mode := .block }.WellFormed := ⟨by decide, by decide, by decide, rfl⟩
  exact (reachable_overMap _).run ⟨hr, trivial, trivial, trivial, trivial⟩

/-- The slow load gives up its value for one that is past its time. -/
theorem gives_up_in_vain_iff_spoiled :
    ((overMap .threads).run spoiled).GivesUpInVain (awaited 0 0) "old" := by
  obtain ⟨-, -, hvain, -⟩ := gives_up_in_vain_iff (c := (overMap .threads).run spoiled)
    (fun _ _ => .inl rfl) (l := awaited 0 0) rfl "old"
  exact hvain.2 ⟨Entry.stamped 1 "new" Clock.second Clock.second, ⟨rfl, by decide, rfl⟩,
    by decide⟩

/-- **A value can be given up in vain:** no call of the store fails, and the result of a load is
not stored though nothing usable is there. -/
theorem value_given_up_in_vain :
    ¬ ∀ (c : Cache) (l : Load) (v : Value), c.Reachable → c.backing.forecast.Reliable →
      c.load? l.id = some l → c.GivesUp l v → ∀ r : Request, r.key = l.key →
      (c.after (.finish l.id (.value v true))).Hits r := by
  intro h
  have hovertaken : ((overMap .threads).run spoiled).Overtaken (awaited 0 0)
      (Entry.stamped 1 "new" Clock.second Clock.second) := ⟨rfl, by decide, rfl⟩
  have hf : ((overMap .threads).run spoiled).backing.forecast.Reliable := fun _ _ => .inl rfl
  have hkey : profile.key = (awaited 0 0).key := rfl
  have hhits := h _ (awaited 0 0) "old" reachable_spoiled hf rfl
    ((givesUp_iff hf rfl).2 ⟨_, hovertaken⟩) profile hkey
  have hle := (hovertaken.hits_iff hf rfl "old" hkey).1 hhits
  revert hle
  decide

/-- **Over a memory store no value is given up in vain,** if the store was empty at first, all that
is put there has a deadline, and the 64-bit clock has not gone round. -/
theorem not_givesUpInVain_of_memory {c : Cache} {s : ShardedStore}
    (hs : c.backing.store = .memory s) (hempty : ∀ k, c.backing.kept? k = none) {ms : List Move}
    (hms : Along Dated c ms) (hn : (c.run ms).now < Clock.lap)
    (hf : (c.run ms).backing.forecast.Reliable) {l : Load}
    (hl : (c.run ms).load? l.id = some l) (v : Value) : ¬ (c.run ms).GivesUpInVain l v := by
  intro hvain
  obtain ⟨e, hovertaken⟩ := (givesUp_iff hf hl).1 hvain.toGivesUp
  have hlt := (hovertaken.givesUpInVain_iff hf hl).1 hvain
  have hdrops : c.backing.Drops l.key := by
    refine ⟨⟨s, hs⟩, fun slot hslot => ?_⟩
    have hkept := hempty l.key
    rw [Backing.kept?, Store.kept?_eq_slot?,
      show c.backing.store.slot? l.key = some slot from hslot] at hkept
    cases hkept
  have hlive := (drops_run hdrops hms hn).not_hardExpired hn hovertaken.found
  rw [Bool.eq_false_iff, Ne, Entry.hardExpired_iff] at hlive
  exact hlive hlt

end Cache

end Evergreen
