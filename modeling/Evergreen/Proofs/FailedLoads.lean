import Evergreen.Proofs.WriteGuard

/-!
# Loads that fail

A load is handed the stale entry that a lookup found, and if its loader fails the policy may
have that entry's value handed out or written back. Between the lookup and the failure there is
time: the task waits in a queue, the loader takes as long as it takes. Meanwhile the entry may
be replaced or removed, and it may pass its hard lifetime.

- `readAt_of_stale`: what a load is handed was found under its key before it began;
- `write_back_guarded`: a failed load is held back by what was stored after its loader was
  called, and by nothing else; `stale_value_comes_back` shows what that lets through;
- `revives_iff`: the age of the stale entry is never looked at again;
  `hard_expired_value_comes_back` is a run in which that matters.
-/

namespace Evergreen.Cache

/-! ## The lookup before a load -/

/-- A run to this cache has found an entry under a key when the clock read `t`. -/
def ReadAt (c : Cache) (k : Key) (e : Entry) (t : Nat) : Prop :=
  ∃ c₀ ms, c₀.Reachable ∧ Along Allows c₀ ms ∧ c₀.run ms = c ∧ c₀.finds k = some e ∧ c₀.now = t

section ReadAt

variable {c : Cache} {k : Key} {e : Entry} {t : Nat}

/-- What is found now is read now. -/
theorem ReadAt.here (hc : c.Reachable) (h : c.finds k = some e) : c.ReadAt k e c.now :=
  ⟨c, [], hc, trivial, rfl, h, rfl⟩

/-- What was read before a move was read before what follows. -/
theorem ReadAt.after (h : c.ReadAt k e t) {m : Move} (hm : c.Allows m) :
    (c.after m).ReadAt k e t := by
  obtain ⟨c₀, ms, hc₀, hms, rfl, hfound, hnow⟩ := h
  refine ⟨c₀, ms ++ [m], hc₀, along_append.2 ⟨hms, hm, trivial⟩, ?_, hfound, hnow⟩
  rw [run_append]
  rfl

/-- An entry that was read could be served then. -/
theorem ReadAt.le_hard (h : c.ReadAt k e t) : t ≤ e.since + e.hard := by
  obtain ⟨c₀, ms, -, -, -, hfound, rfl⟩ := h
  have he := (finds_eq_some_iff.1 hfound).2
  rw [Bool.eq_false_iff, Ne, Entry.hardExpired_iff] at he
  omega

end ReadAt

/-- Loads and tasks were handed what was found under their key, a load that did not have to
wait for a hand when its loader was called. -/
structure Sourced (c : Cache) : Prop where
  loads : ∀ l ∈ c.loads, ∀ e, l.stale = some e →
    ∃ t ≤ l.started, c.ReadAt l.key e t ∧ (l.seat ≠ .worker → t = l.started)
  waiting : ∀ task ∈ c.crew.waiting, ∀ e, task.stale = some e →
    ∃ t ≤ c.now, c.ReadAt task.key e t

theorem sourced_of_launched {c : Cache} (h : c.Launched) : c.Sourced := by
  obtain ⟨⟨b, now, hb⟩, -⟩ := h
  obtain ⟨hwaiting, hloads⟩ := tasks_of_build hb
  constructor
  · simp [hloads]
  · simp [hwaiting]

/-- A move hands on only stale entries that were read when their task came about. -/
theorem Sourced.after {c : Cache} {m : Move} (h : c.Sourced) (hc : c.Reachable)
    (hm : c.Allows m) : (c.after m).Sourced := by
  -- what was read stays read; only a load or a task that begins with this move needs a lookup
  constructor
  · intro l hl e he
    rcases mem_loads_after hl with hl | ⟨hst, -, hh⟩
    · -- the load was under way before
      obtain ⟨t, ht, hread, hseat⟩ := h.loads l hl e he
      exact ⟨t, ht, hread.after hm, hseat⟩
    · rw [hst]
      cases hh with
      | looked _ found =>
        have hread := ReadAt.here hc (found e he)
        exact ⟨c.now, Nat.le_refl _, hread.after hm, fun _ => rfl⟩
      | waited hw task htask hr hs =>
        obtain ⟨t, ht, hread⟩ := h.waiting task htask e (hs.trans he)
        have hk : task.key = l.key := congrArg Request.key hr
        rw [hk] at hread
        exact ⟨t, ht, hread.after hm, fun hseat => absurd hw hseat⟩
  · intro task htask e he
    have hnow := c.now_le_after m
    rcases mem_waiting_after htask with htask | found
    · obtain ⟨t, ht, hread⟩ := h.waiting task htask e he
      exact ⟨t, Nat.le_trans ht hnow, hread.after hm⟩
    · exact ⟨c.now, hnow, (ReadAt.here hc (found e he)).after hm⟩

/-- The stale entry of a task or load was once read from the store. -/
theorem sourced_of_reachable {c : Cache} (h : c.Reachable) : c.Sourced := by
  induction h with
  | launched h => exact sourced_of_launched h
  | after hc hm ih => exact ih.after hc hm

/-- What a load is handed as stale was found under its key before its loader was called, or at
the call itself unless the load had to wait for a hand. -/
theorem readAt_of_stale {c : Cache} (hc : c.Reachable) {l : Load} {e : Entry}
    (hl : c.load? l.id = some l) (hs : l.stale = some e) :
    ∃ t ≤ l.started, c.ReadAt l.key e t ∧ (l.seat ≠ .worker → t = l.started) :=
  (sourced_of_reachable hc).loads l (List.mem_of_find?_eq_some hl) e hs

/-! ## What holds a failed load back -/

/-- Over a calm stretch, what is kept under a key stays there or makes room for something that
was made in that stretch. -/
theorem kept?_run_eq_or {c : Cache} {k : Key} {ms : List Move} (hms : Along (Calm k) c ms)
    {e : Entry} (he : c.backing.kept? k = some e) :
    (c.run ms).backing.kept? k = some e ∨
      ∃ e', (c.run ms).backing.kept? k = some e' ∧ c.now ≤ e'.since := by
  induction ms generalizing c e with
  | nil => exact .inl he
  | cons m ms ih =>
    obtain ⟨hm, hms⟩ := hms
    have hnow := c.now_le_after m
    rcases kept?_after_of_calm hm he with h | ⟨e₁, h, hsince⟩
    · -- nothing was written with this move
      rcases ih hms h with h | ⟨e', h, hle⟩
      · exact .inl h
      · exact .inr ⟨e', h, by omega⟩
    · -- something was, and what follows it is no older
      rcases ih hms h with h | ⟨e', h, hle⟩
      · exact .inr ⟨e₁, h, by omega⟩
      · exact .inr ⟨e', h, by omega⟩

/-- The store still holds an entry, or has the same value carried over. -/
def StillHolds (c : Cache) (k : Key) (e : Entry) : Prop :=
  ∃ found, c.backing.kept? k = some found ∧
    (found = e ∨ found.carried = true ∧ found.value = e.value)

section Guard

variable {c : Cache} {l : Load} {e e' : Entry} {f : Failure}

/-- A failed load with a stale value to write back does so unless the guard holds it back. -/
theorem writes_back_iff_newer (hl : c.load? l.id = some l) (hr : carryOver? l c.now = some e') :
    c.Writes l (.failure f) e' ↔ (c.newer l.key l.started).1 = false :=
  writes_iff_newer (o := .failure f) hl hr

/-- An entry that a load made, or a caller, holds a failed load back exactly if it was made
after the loader was called. -/
theorem writes_back_iff (hf : c.backing.forecast.Reliable) (hl : c.load? l.id = some l)
    (hr : carryOver? l c.now = some e') {found : Entry}
    (hfound : c.backing.store.find? c.now l.key = some found) (hc : found.carried = false) :
    c.Writes l (.failure f) e' ↔ found.since ≤ l.started := by
  rw [writes_back_iff_newer hl hr, Bool.eq_false_iff, Ne, newer_eq_true_iff c hf, hfound]
  constructor
  · intro hno
    exact Nat.le_of_not_lt fun hlt => hno ⟨found, rfl, hlt, hc⟩
  · rintro hle ⟨_, he, hlt, -⟩
    cases he
    omega

/-- Where there is nothing, nothing holds a failed load back. -/
theorem writes_back_of_none (hf : c.backing.forecast.Reliable) (hl : c.load? l.id = some l)
    (hr : carryOver? l c.now = some e')
    (hfound : c.backing.store.find? c.now l.key = none) : c.Writes l (.failure f) e' := by
  rw [writes_back_iff_newer hl hr, Bool.eq_false_iff, Ne, newer_eq_true_iff c hf, hfound]
  rintro ⟨_, he, -⟩
  cases he

/-- **What holds a failed load back.** Let a load fail in a cache that can be reached, over a
store none of whose calls fails, with a stale value to write back. An entry that is found under
its key, and that no failed load has carried over, holds it back exactly if it was made after
the loader was called; where nothing is found, nothing does. The stale entry was read before
the loader was called, and at the call itself if the load did not have to wait for a hand. If
from then on nothing under the key was removed or came to be past its time, what was stored
there came from loads and sets, and what stands there is not another value carried over, then
the value is written back only where the store still holds it, or holds an entry that was made
between the reading and the call. -/
theorem write_back_guarded (hc : c.Reachable) (hf : c.backing.forecast.Reliable)
    (hl : c.load? l.id = some l) (hs : l.stale = some e) (hr : carryOver? l c.now = some e')
    (f : Failure) :
    (∀ found, c.backing.store.find? c.now l.key = some found → found.carried = false →
      (c.Writes l (.failure f) e' ↔ found.since ≤ l.started)) ∧
    (c.backing.store.find? c.now l.key = none → c.Writes l (.failure f) e') ∧
    (∃ t ≤ l.started, c.ReadAt l.key e t ∧ (l.seat ≠ .worker → t = l.started)) ∧
    (∀ c₀ ms, c₀.run ms = c → c₀.finds l.key = some e → Along (Calm l.key) c₀ ms →
      c.Live l.key →
      (∀ found, c.backing.kept? l.key = some found → found.carried = true →
        found.value = e.value) →
      c.Writes l (.failure f) e' →
      c.StillHolds l.key e ∨ ∃ found, c.backing.kept? l.key = some found ∧
        c₀.now ≤ found.since ∧ found.since ≤ l.started) := by
  refine ⟨fun _ => writes_back_iff hf hl hr, writes_back_of_none hf hl hr,
    readAt_of_stale hc hl hs, ?_⟩
  rintro c₀ ms rfl hread hcalm hlive hsame hw
  rcases kept?_run_eq_or hcalm (kept?_of_finds hread) with h | ⟨found, h, hsince⟩
  · exact .inl ⟨e, h, .inl rfl⟩
  · -- the guard has let the write pass for what has come in the place of `e`
    cases hc : found.carried with
    | true => exact .inl ⟨found, h, .inr ⟨hc, hsame found h hc⟩⟩
    | false =>
      have hfound := hlive.find?_eq.trans h
      have hle := (writes_back_iff hf hl hr hfound hc).1 hw
      exact .inr ⟨found, h, hsince, hle⟩

end Guard

/-- A request that clings to its value when its loader fails. -/
def clinging (mode : Mode) : Request :=
  { profile with
    mode
    policy := {
      syncExpired := ⟨.none, .returnStale, .cacheExpired⟩
      backgroundExpired := ⟨.none, .returnStale, .cacheExpired⟩ } }

theorem clinging_wellFormed (mode : Mode) : (clinging mode).WellFormed where
  key_ne_blank := profile_wellFormed.key_ne_blank
  min_le_hard := profile_wellFormed.min_le_hard
  soft_le_hard := profile_wellFormed.soft_le_hard
  policy_ok := rfl

/-- An entry that wants a refresh after a second and may be served for ten. -/
def old : Entry := Entry.stamped 0 "old" (10 * Clock.second) Clock.second

theorem built_old : old.Built 0 := by
  constructor <;> decide

/-- A reload of the old entry, begun two seconds or later after it was made. -/
def reload (started : Nat) : Load :=
  { id := 0, request := clinging .returning, stale := some old, seat := .worker, started }

/-- A get finds the old entry stale, and its reload waits. -/
def queueReload : List Move :=
  [.setEntry "profile" old, .tick (2 * Clock.second), .get (clinging .returning)]

theorem allows_queueReload : Along Allows (overMap (.byHand none)) queueReload :=
  ⟨built_old, trivial, clinging_wellFormed _, trivial⟩

/-- The reload of the old entry is taken up and fails. -/
def failedReload : List Move := queueReload ++ [.start 0, .finish 0 (.failure ⟨"down", []⟩)]

theorem allows_failedReload : Along Allows (overMap (.byHand none)) failedReload :=
  along_append.2 ⟨allows_queueReload, trivial, trivial, trivial⟩

/-- A value that is stored while the loader runs is safe from its failure. -/
theorem write_back_guarded_set :
    ¬ ((overMap (.byHand none)).run (queueReload ++
        [.start 0, .tick (3 * Clock.second), .set "profile" "new" Clock.second])).Writes
      (reload (2 * Clock.second)) (.failure ⟨"down", []⟩)
      (old.carriedOver (3 * Clock.second) (10 * Clock.second) 0) := by
  have hc := (reachable_overMap (.byHand none)).run
    (along_append.2 ⟨allows_queueReload, trivial, trivial, trivial, trivial⟩ :
      Along Allows _ (queueReload ++
        [.start 0, .tick (3 * Clock.second), .set "profile" "new" Clock.second]))
  obtain ⟨hguard, -⟩ := write_back_guarded hc (fun _ _ => .inl rfl)
    (l := reload (2 * Clock.second)) rfl rfl rfl ⟨"down", []⟩
  intro hw
  have hle := (hguard _ rfl rfl).1 hw
  revert hle
  decide

/-- A failed load writes back a value that the store does not hold any more. -/
structure ComesBack (c : Cache) (l : Load) (f : Failure) : Prop where
  reachable : c.Reachable
  reliable : c.backing.forecast.Reliable
  underWay : c.load? l.id = some l
  written : ∃ e e', l.stale = some e ∧ carryOver? l c.now = some e' ∧
    c.Writes l (.failure f) e' ∧ ¬ c.StillHolds l.key e

/-- **What is gone can come back.** The entry is removed while its reload waits; or it is
replaced, and the reload, which is taken up later, is not held back by what has replaced it. -/
theorem stale_value_comes_back :
    ComesBack ((overMap (.byHand none)).run (queueReload ++ [.remove "profile", .start 0]))
      (reload (2 * Clock.second)) ⟨"down", []⟩ ∧
    ComesBack ((overMap (.byHand none)).run (queueReload ++
        [.tick (3 * Clock.second), .set "profile" "new" Clock.second,
          .tick (4 * Clock.second), .start 0]))
      (reload (4 * Clock.second)) ⟨"down", []⟩ := by
  constructor
  · refine ⟨(reachable_overMap _).run
      (along_append.2 ⟨allows_queueReload, trivial, trivial, trivial⟩),
      fun _ _ => .inl rfl, rfl, old, _, rfl, rfl, ⟨rfl, fun _ => rfl⟩, ?_⟩
    -- nothing is kept under the key
    rintro ⟨found, hfound, -⟩
    cases hfound
  · refine ⟨(reachable_overMap _).run
      (along_append.2 ⟨allows_queueReload, trivial, trivial, trivial, trivial, trivial⟩),
      fun _ _ => .inl rfl, rfl, old, _, rfl, rfl, ⟨rfl, fun _ => rfl⟩, ?_⟩
    -- what is kept is the new value, which no failed load has carried over
    rintro ⟨found, hfound, h⟩
    cases hfound
    revert h
    decide

/-! ## The age of the stale entry -/

/-- A failed load revives its stale entry: the entry must not be served any more, but its value
is handed out or written back. -/
def Revives (c : Cache) (l : Load) (f : Failure) (e : Entry) : Prop :=
  e.hardExpired c.now = true ∧
    ((c.finish l (.failure f)).1 = .returned (some e.value) ∨
      ∃ e', carryOver? l c.now = some e' ∧ c.Writes l (.failure f) e')

section Age

variable {c : Cache} {l : Load} {e : Entry}

/-- What a failed load comes to is its fallback. -/
theorem finish_failure_fst (c : Cache) (l : Load) (f : Failure) :
    (c.finish l (.failure f)).1 = match fallback l f with
      | .ok v => .returned v
      | .error fault => .failed fault := by
  rw [finish_fst]
  simp only [settle, recover_eq]
  cases fallback l f <;> rfl

/-- The stale value is handed out exactly if the cell says so. -/
theorem returned_stale_iff (hs : l.stale = some e) (f : Failure) :
    (c.finish l (.failure f)).1 = .returned (some e.value) ↔
      (cell l).fallback = .returnStale := by
  rw [finish_failure_fst, fallback]
  cases (cell l).fallback with
  | propagate => simp
  | returnNone => simp
  | returnStale => simp [hs]

/-- The cell says whether there is something to write back. -/
theorem carryOver?_isSome_iff (hs : l.stale = some e) (now : Nat) :
    (∃ e', carryOver? l now = some e') ↔ (cell l).cache ≠ .dontCache := by
  simp only [carryOver?, hs, Option.bind_some]
  cases (cell l).cache <;> simp

/-- The stale value is written back exactly if the cell says so and the guard lets it. -/
theorem written_back_iff (hl : c.load? l.id = some l) (hs : l.stale = some e) (f : Failure) :
    (∃ e', carryOver? l c.now = some e' ∧ c.Writes l (.failure f) e') ↔
      (cell l).cache ≠ .dontCache ∧ (c.newer l.key l.started).1 = false := by
  rw [← carryOver?_isSome_iff hs c.now]
  constructor
  · rintro ⟨e', hr, hw⟩
    exact ⟨⟨e', hr⟩, (writes_back_iff_newer hl hr).1 hw⟩
  · rintro ⟨⟨e', hr⟩, hg⟩
    exact ⟨e', hr, (writes_back_iff_newer hl hr).2 hg⟩

/-- **When a failed load revives a value past its hard lifetime.** The cell alone says whether
the value is handed out, the cell and the write guard whether it is written back; the age of the
entry plays no part in either. So a load revives its stale entry exactly if the entry passed
its hard lifetime while the load waited or its loader ran. It had not passed it when it was
read, before the loader was called, or at the call itself if the load did not have to wait for
a hand. -/
theorem revives_iff (hc : c.Reachable) (hl : c.load? l.id = some l) (hs : l.stale = some e)
    (f : Failure) :
    ((c.finish l (.failure f)).1 = .returned (some e.value) ↔
      (cell l).fallback = .returnStale) ∧
    ((∃ e', carryOver? l c.now = some e' ∧ c.Writes l (.failure f) e') ↔
      (cell l).cache ≠ .dontCache ∧ (c.newer l.key l.started).1 = false) ∧
    (c.Revives l f e ↔ e.since + e.hard < c.now ∧
      ((cell l).fallback = .returnStale ∨
        (cell l).cache ≠ .dontCache ∧ (c.newer l.key l.started).1 = false)) ∧
    (∃ t ≤ l.started, c.ReadAt l.key e t ∧ t ≤ e.since + e.hard ∧
      (l.seat ≠ .worker → t = l.started)) := by
  have hret := returned_stale_iff (c := c) hs f
  have hwr := written_back_iff hl hs f
  obtain ⟨t, ht, hread, hseat⟩ := readAt_of_stale hc hl hs
  refine ⟨hret, hwr, ?_, t, ht, hread, hread.le_hard, hseat⟩
  rw [Revives, hret, hwr, Entry.hardExpired_iff]

end Age

/-- A get finds the old entry stale, and its loader takes twice as long as the entry may still
be served. -/
def slowLoad : List Move :=
  [.setEntry "profile" old, .tick (2 * Clock.second), .get (clinging .block),
    .tick (18 * Clock.second)]

theorem reachable_slowLoad : ((overMap .threads).run slowLoad).Reachable :=
  (reachable_overMap _).run ⟨built_old, trivial, clinging_wellFormed _, trivial, trivial⟩

/-- The load of the caller who waits for the slow loader. -/
def slow : Load :=
  { id := 0, request := clinging .block, stale := some old, seat := .caller
    started := 2 * Clock.second }

/-- The slow load revives what it was handed. -/
theorem revives_slowLoad :
    ((overMap .threads).run slowLoad).Revives slow ⟨"down", []⟩ old := by
  obtain ⟨-, -, h, -⟩ := revives_iff (l := slow) (e := old) reachable_slowLoad rfl rfl ⟨"down", []⟩
  exact h.2 ⟨by decide, .inl rfl⟩

/-- **A value past its hard lifetime can come back:** the caller who waited for the slow loader
gets it. -/
theorem hard_expired_value_comes_back :
    ¬ ∀ (c : Cache) (l : Load) (e : Entry) (f : Failure), c.Reachable →
      c.load? l.id = some l → l.stale = some e → e.hardExpired c.now = true →
      (c.finish l (.failure f)).1 ≠ .returned (some e.value) ∧
        ∀ e', carryOver? l c.now = some e' → ¬ c.Writes l (.failure f) e' := by
  intro h
  obtain ⟨hret, -⟩ := h _ slow old ⟨"down", []⟩ reachable_slowLoad rfl rfl (by decide)
  exact hret rfl

end Evergreen.Cache
