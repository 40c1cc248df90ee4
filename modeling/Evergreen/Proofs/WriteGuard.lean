import Evergreen.Proofs.Times

/-!
# Loads in the order they began

Loads of one key overlap, and they end in any order. What keeps a slow one from burying the
result of a faster one is a guard: before a load writes, it reads the store, and steps back if
the entry there was made after the load began.

The guard looks at the entry that stands there at the moment, and at nothing that happened
before. That this is enough for all the loads that began earlier, whatever was written in
between, is what is shown here, for a key whose entries are made by loads and sets and are
neither removed nor past their time:

- `since_le_after`, `since_le_run`: the date of what is kept never goes back;
- `writes_iff`: a load writes exactly if what is kept was made by the time it began;
- `superseded_of_newer`: what becomes of a load that does not;
- `loads_write_in_order`: the two together, over runs of any length.
-/

namespace Evergreen.Cache

/-! ## Calm stretches of a run -/

/-- A move that neither removes what is under a key nor puts a ready-made entry there. -/
def SparesKey (k : Key) : Move → Prop
  | .setEntry k' _ | .remove k' => k' ≠ k
  | .removeAll => False
  | _ => True

/-- A move of a calm stretch: the key is spared, and nothing under it is past its time. -/
structure Calm (k : Key) (c : Cache) (m : Move) : Prop where
  live : c.Live k
  spares : SparesKey k m
  allowed : c.Allows m

/-- In a calm stretch, what is under a key stays there or makes room for an entry made now. -/
theorem kept?_after_of_calm {c : Cache} {k : Key} {m : Move} (hm : Calm k c m) {e : Entry}
    (he : c.backing.kept? k = some e) :
    (c.after m).backing.kept? k = some e ∨
      ∃ e', (c.after m).backing.kept? k = some e' ∧ e'.since = c.now := by
  have hspares := hm.spares
  have hs := c.keptStep_after m k
  generalize (c.after m).backing.kept? k = found at hs
  cases hs with
  | same => exact .inl he
  | gone why =>
    rcases why with rfl | rfl | hl
    · exact absurd rfl hspares
    · exact hspares.elim
    · exact absurd hm.live hl
  | set v ttl _ => exact .inr ⟨_, rfl, rfl⟩
  | setEntry e' hset =>
    subst hset
    exact absurd rfl hspares
  | ended l o e' _ _ _ hr _ => exact .inr ⟨e', rfl, since_of_result? hr⟩

/-- The date of what is kept does not go back with a move. -/
theorem since_le_after {c : Cache} {k : Key} {m : Move} (hp : c.Punctual) (hm : Calm k c m)
    {e : Entry} (he : c.backing.kept? k = some e) :
    ∃ e', (c.after m).backing.kept? k = some e' ∧ e.since ≤ e'.since := by
  have hnow := hp.kept k e he
  rcases kept?_after_of_calm hm he with h | ⟨e', h, hsince⟩
  · exact ⟨e, h, Nat.le_refl _⟩
  · exact ⟨e', h, by omega⟩

/-- **The date of what is kept never goes back** over a calm stretch. -/
theorem since_le_run {c : Cache} {k : Key} {ms : List Move} (hc : c.Reachable)
    (hms : Along (Calm k) c ms) {e : Entry} (he : c.backing.kept? k = some e) :
    ∃ e', (c.run ms).backing.kept? k = some e' ∧ e.since ≤ e'.since := by
  -- the entry is generalised with the cache: each move may put another one in its place
  induction ms generalizing c e with
  | nil => exact ⟨e, he, Nat.le_refl _⟩
  | cons m ms ih =>
    obtain ⟨hm, hms⟩ := hms
    obtain ⟨e₁, he₁, hle₁⟩ := since_le_after (punctual_of_reachable hc) hm he
    obtain ⟨e₂, he₂, hle₂⟩ := ih (hc.after hm.allowed) hms he₁
    exact ⟨e₂, he₂, Nat.le_trans hle₁ hle₂⟩

/-! ## The end of a load -/

/-- A load ends by writing an entry: it asks the store to keep it, and the store does if it
does not decline. -/
structure Writes (c : Cache) (l : Load) (o : Outcome) (e : Entry) : Prop where
  asked : (c.after (.finish l.id o)).backing.calls .set = c.backing.calls .set + 1
  kept : c.backing.verdict .set = .pass →
    (c.after (.finish l.id o)).backing.kept? l.key = some e

theorem calls_finish {c : Cache} {l : Load} {o : Outcome} {e : Entry}
    (h : result? l c.now o = some e) :
    (c.finish l o).2.backing.calls .set =
      c.backing.calls .set + if (c.newer l.key l.started).1 then 0 else 1 := by
  rw [backing_finish, h]
  exact c.calls_writeLoaded ..

/-- A load that has something to write does so unless the guard holds it back. -/
theorem writes_iff_newer {c : Cache} {l : Load} {o : Outcome} {e : Entry}
    (hl : c.load? l.id = some l) (hr : result? l c.now o = some e) :
    c.Writes l o e ↔ (c.newer l.key l.started).1 = false := by
  have hcalls := calls_finish hr
  rw [← after_finish hl] at hcalls
  constructor
  · intro hw
    have hasked := hw.asked
    cases hg : (c.newer l.key l.started).1 with
    | false => rfl
    | true =>
      -- then the store was not asked, and what is kept would say nothing: it may be `e` by chance
      rw [hg] at hcalls
      simp only [if_true] at hcalls
      omega
  · intro hg
    refine ⟨?_, ?_⟩
    · rw [hcalls, hg]
      rfl
    · intro hv
      rw [after_finish hl, kept?_finish hr, if_pos ⟨hg, hv, rfl⟩]

/-! ## The end of a load that has a value -/

/-- What is under a key is in order: no call of the store fails, nothing there is past its
time, and it is not what a failed load has carried over. -/
structure InOrder (c : Cache) (k : Key) : Prop where
  reliable : c.backing.forecast.Reliable
  live : c.Live k
  loaded : ∀ e, c.backing.kept? k = some e → e.carried = false

/-- The entry that a load makes of its value. -/
def loaded (c : Cache) (l : Load) (v : Value) : Entry :=
  Entry.stamped c.now v l.request.hard l.request.soft

/-- A load ends without writing its value: the store is not asked to keep anything and keeps
what it has, and this is counted. All the same the value is handed out, and the family of the
request is refreshed. -/
structure Superseded (c : Cache) (l : Load) (v : Value) : Prop where
  unasked : (c.after (.finish l.id (.value v true))).backing.calls .set = c.backing.calls .set
  kept : (c.after (.finish l.id (.value v true))).backing.kept? l.key = c.backing.kept? l.key
  counted : (c.after (.finish l.id (.value v true))).counters .writesSuperseded =
    c.counters .writesSuperseded + 1
  refreshed : (c.after (.finish l.id (.value v true))).marks l.request.family =
    some (max 1 (Clock.wrap c.now))
  returned : (c.finish l (.value v true)).1 = .returned (some v)

section Ends

variable {c : Cache} {l : Load}

/-- The guard, for a key in order. -/
theorem InOrder.newer_eq_true_iff {k : Key} (h : c.InOrder k) {started : Nat} :
    (c.newer k started).1 = true ↔
      ∃ e, c.backing.kept? k = some e ∧ started < e.since := by
  rw [Cache.newer_eq_true_iff c h.reliable, h.live.find?_eq]
  constructor
  · rintro ⟨e, he, hlt, -⟩
    exact ⟨e, he, hlt⟩
  · rintro ⟨e, he, hlt⟩
    exact ⟨e, he, hlt, h.loaded e he⟩

/-- A read lets nothing go that is in order. -/
theorem InOrder.kept?_get {k : Key} (h : c.InOrder k) :
    (c.backing.get c.now k).2.kept? k = c.backing.kept? k :=
  Backing.kept?_get_of_find? k h.live.find?_eq

/-- A write that the guard holds back is counted, and nothing else is. -/
theorem counters_writeLoaded_of_newer {k : Key} {e : Entry} {started : Nat}
    (h : (c.newer k started).1 = true) :
    (c.writeLoaded k e started).2.counters = c.counters.bump .writesSuperseded := by
  have hs : (c.newer k started).2.counters = c.counters := by
    rw [newer_snd]
    rfl
  unfold writeLoaded
  split
  · rename_i c' hn
    rw [hn] at hs
    show c'.counters.bump .writesSuperseded = _
    rw [hs]
  · rename_i c' hn
    rw [hn] at h
    cases h

theorem counters_finish_of_newer (h : (c.newer l.key l.started).1 = true) (v : Value) :
    (c.finish l (.value v true)).2.counters .writesSuperseded =
      c.counters .writesSuperseded + 1 := by
  have hne : Counter.writesSuperseded ≠ .reloadsStarted := by decide
  have hg : ((c.leave l).newer l.key l.started).1 = true :=
    (newer_congr (c.sameStore_leave l) ..).trans h
  rw [(c.ended_finish l _).counters _ hne]
  show ((c.leave l).writeLoaded l.key _ l.started).2.counters .writesSuperseded = _
  rw [counters_writeLoaded_of_newer hg]
  exact Counters.bump_self ..

/-- A value refreshes the family of its request, whether it is written or not. -/
theorem marks_finish (v : Value) (cacheable : Bool) :
    (c.finish l (.value v cacheable)).2.marks l.request.family =
      some (max 1 (Clock.wrap c.now)) := by
  have hm (c : Cache) (family : Nat) : (c.markRefreshed family).marks family =
      some (max 1 (Clock.wrap c.now)) := if_pos rfl
  rw [(c.ended_finish l _).marks]
  show ((c.leave l).succeed l v cacheable).marks l.request.family = _
  unfold succeed
  dsimp only
  rw [hm]
  -- the mark is made after the write, by a clock that the write leaves alone
  cases cacheable with
  | false => rfl
  | true => rw [if_pos rfl, ((c.leave l).storeOnly_writeLoaded ..).now]; rfl

/-- What becomes of a load that the guard holds back. -/
theorem superseded_of_newer (hl : c.load? l.id = some l) (h : c.InOrder l.key)
    (hg : (c.newer l.key l.started).1 = true) (v : Value) : c.Superseded l v := by
  have hr : result? l c.now (.value v true) = some (c.loaded l v) := rfl
  constructor
  · rw [after_finish hl, calls_finish hr, hg]
    rfl
  · rw [after_finish hl, kept?_finish hr, h.kept?_get]
    simp [hg]
  · rw [after_finish hl]
    exact counters_finish_of_newer hg v
  · rw [after_finish hl]
    exact marks_finish v true
  · rw [finish_fst]
    rfl

/-- A load writes its value exactly if what is kept was made by the time the load began. -/
theorem writes_iff (hl : c.load? l.id = some l) (h : c.InOrder l.key) (v : Value) :
    c.Writes l (.value v true) (c.loaded l v) ↔
      ∀ e, c.backing.kept? l.key = some e → e.since ≤ l.started := by
  rw [writes_iff_newer hl rfl, Bool.eq_false_iff, Ne, h.newer_eq_true_iff]
  constructor
  · intro hno e he
    exact Nat.le_of_not_lt fun hlt => hno ⟨e, he, hlt⟩
  · rintro hall ⟨e, he, hlt⟩
    have := hall e he
    omega

/-- A load is superseded exactly if it does not write its value. -/
theorem superseded_iff (hl : c.load? l.id = some l) (h : c.InOrder l.key) (v : Value) :
    c.Superseded l v ↔ ¬ c.Writes l (.value v true) (c.loaded l v) := by
  constructor
  · intro hs hw
    have hasked := hw.asked
    rw [hs.unasked] at hasked
    omega
  · intro hw
    rw [writes_iff_newer hl rfl, Bool.not_eq_false] at hw
    exact superseded_of_newer hl h hw v

end Ends

/-- **Loads write in the order they began.** In a cache that can be reached, let a stretch of
any moves follow in which the entries under a key are made by loads and sets and are neither
removed nor past their time. Then the date of what is kept under the key does not go back.
Where no call of the store fails and what is kept was not carried over by a failed load, a load
of the key that has a value writes it exactly if what is kept was made by the time the load
began, and is superseded otherwise; and once a load has stored its value, every load of the key
that began before it is superseded, whatever happened in between. -/
theorem loads_write_in_order {c : Cache} (hc : c.Reachable) {k : Key} {ms : List Move}
    (hms : Along (Calm k) c ms) (hk : (c.run ms).InOrder k) :
    (∀ e, c.backing.kept? k = some e →
      ∃ e', (c.run ms).backing.kept? k = some e' ∧ e.since ≤ e'.since) ∧
    (∀ l v, (c.run ms).load? l.id = some l → l.key = k →
      ((c.run ms).Writes l (.value v true) ((c.run ms).loaded l v) ↔
        ∀ e, (c.run ms).backing.kept? k = some e → e.since ≤ l.started) ∧
      ((c.run ms).Superseded l v ↔
        ¬ (c.run ms).Writes l (.value v true) ((c.run ms).loaded l v))) ∧
    (∀ before b v after, ms = before ++ .finish b.id (.value v true) :: after →
      (c.run before).load? b.id = some b →
      ((c.run before).after (.finish b.id (.value v true))).backing.kept? k =
        some ((c.run before).loaded b v) →
      ∀ a w, (c.run ms).load? a.id = some a → a.key = k → a.started < b.started →
        (c.run ms).Superseded a w) := by
  refine ⟨fun e he => since_le_run hc hms he, ?_, ?_⟩
  · rintro l v hl rfl
    exact ⟨writes_iff hl hk v, superseded_iff hl hk v⟩
  · rintro before b v after rfl hb hstored a w ha rfl hlt
    obtain ⟨hbefore, hm, hafter⟩ := along_append.1 hms
    -- `b` was stored after it began, and what is kept later is no older
    have hreach := hc.run (hbefore.mono fun _ _ h => h.allowed)
    have hle : b.started ≤ (c.run before).now :=
      (punctual_of_reachable hreach).started b (List.mem_of_find?_eq_some hb)
    obtain ⟨e, he, hsince⟩ := since_le_run (hreach.after hm.allowed) hafter hstored
    rw [superseded_iff ha hk, writes_iff ha hk]
    intro hall
    rw [← run_cons, ← run_append] at he
    have hae := hall e he
    have hbe : ((c.run before).loaded b v).since = (c.run before).now := rfl
    omega

/-- The load with number `id` of a caller that found nothing under the key of `profile`. -/
def awaited (id started : Nat) : Load :=
  { id, request := { profile with mode := .block }, stale := none, seat := .caller, started }

/-- Two callers load one key, and the second one's load is done before the first one's. -/
def overtaking : List Move :=
  [.get { profile with mode := .block }, .tick 1, .get { profile with mode := .block },
    .finish 1 (.value "new" true)]

theorem calm_overtaking : Along (Calm "profile") (overMap .threads) overtaking := by
  have hr : { profile with mode := .block }.WellFormed := ⟨by decide, by decide, by decide, rfl⟩
  exact ⟨⟨rfl, trivial, hr⟩, ⟨rfl, trivial, trivial⟩, ⟨rfl, trivial, hr⟩,
    ⟨rfl, trivial, trivial⟩, trivial⟩

/-- The load that is overtaken finds itself superseded. -/
theorem loads_write_in_order_overtaking :
    ((overMap .threads).run overtaking).Superseded (awaited 0 0) "old" := by
  have hk : ((overMap .threads).run overtaking).InOrder "profile" := by
    refine ⟨fun _ _ => .inl rfl, rfl, ?_⟩
    intro e he
    cases he
    rfl
  obtain ⟨-, -, h⟩ := loads_write_in_order (reachable_overMap .threads) calm_overtaking hk
  exact h (overtaking.take 3) (awaited 1 1) "new" [] rfl rfl rfl (awaited 0 0) "old" rfl rfl
    (by decide)

end Evergreen.Cache
