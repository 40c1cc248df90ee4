import Evergreen.Proofs.BackingSteps
import Evergreen.Proofs.FailedLoads
import Evergreen.Proofs.Singleflight

/-!
# Values carried over and the order of loads

A load that fails may write the stale value it was handed back, dated by its failure and marked
as carried over. The write guard passes over such entries: they are younger than what they
hold, so a load that has succeeded need not step back for them. This also lets a load write
that was overtaken long before, by the very load whose value was carried over.

- `kept?_run_from`: what is kept was kept at the beginning of a run or put there in it;
- `Over.run`: a load that has ended does not end again;
- `overtaken_load_writes_iff`: an overtaken load steps back while what is kept was made by a
  load or a set, and a successful one writes exactly if a failed load has written last;
- `overtaken_loads_write`: so the order of loads can be lost.
-/

namespace Evergreen.Cache

/-! ## Where what is kept comes from -/

section Provenance

variable {c : Cache} {m : Move} {ms : List Move} {k : Key} {e : Entry}

/-- What is kept after a move was kept before, or the move has put it there. -/
theorem kept?_after_from (h : (c.after m).backing.kept? k = some e) :
    c.backing.kept? k = some e ∨ c.Puts k e m := by
  rcases c.backing_after m with hcalls | ⟨-, n, store, hp, hb⟩ | ⟨f, -, hb⟩
  · refine hcalls.preserves
      (I := fun b => b.kept? k = some e → c.backing.kept? k = some e ∨ c.Puts k e m)
      .inl ?_ ?_ ?_ ?_ h
    · intro b k' hb hkept
      rcases b.kept?_get_eq_or c.now k' k with hget | hget
      · exact hb (hget.symm.trans hkept)
      · rw [hget] at hkept
        cases hkept
    · intro b k' e' hb he hkept
      rw [Backing.kept?_set] at hkept
      split at hkept
      · rename_i hput
        obtain ⟨hv, rfl⟩ := hput
        cases hkept
        cases he hv with
        | put hput => exact .inr hput
      · exact hb hkept
    · intro b k' hb _ hkept
      rcases b.kept?_remove_eq_or k' k with hremove | hremove
      · exact hb (hremove.symm.trans hkept)
      · rw [hremove] at hkept
        cases hkept
    · intro b hb _ hkept
      rcases b.kept?_clear_eq_or k with hclear | hclear
      · exact hb (hclear.symm.trans hkept)
      · rw [hclear] at hkept
        cases hkept
  · rw [hb] at h
    rcases Store.kept?_purge_eq_or hp k with hpurge | hpurge
    · exact .inl (hpurge.symm.trans h)
    · have hnone : store.kept? k = some e := h
      rw [hpurge] at hnone
      cases hnone
  · rw [hb] at h
    exact .inl h

/-- **What is kept after a run** was kept at its beginning, or one of its moves has put it
there. -/
theorem kept?_run_from (h : (c.run ms).backing.kept? k = some e) :
    c.backing.kept? k = some e ∨ ∃ before m after, ms = before ++ m :: after ∧
      (c.run before).Puts k e m := by
  induction ms generalizing c with
  | nil => exact .inl h
  | cons m ms ih =>
    rcases ih h with hkept | ⟨before, m', after, rfl, hput⟩
    · rcases kept?_after_from hkept with hkept | hput
      · exact .inl hkept
      · exact .inr ⟨[], m, ms, rfl, hput⟩
    · exact .inr ⟨m :: before, m', after, rfl, hput⟩

/-- Nothing but a load that fails, or a ready-made entry, puts a value there as carried
over. -/
theorem Puts.of_carried (h : c.Puts k e m) (he : e.carried = true) :
    (∃ l f, m = .finish l.id (.failure f) ∧ c.load? l.id = some l ∧ l.key = k ∧
      carryOver? l c.now = some e) ∨ m = .setEntry k e := by
  cases h with
  | set v ttl _ => cases he
  | setEntry e _ => exact .inr rfl
  | ended l o e hl hk hr _ _ =>
    cases o with
    | value v cacheable =>
      simp only [result?] at hr
      split at hr
      · cases hr
        cases he
      · cases hr
    | failure f => exact .inl ⟨l, f, rfl, hl, hk, hr⟩
    | panic text => cases hr

end Provenance

/-! ## Loads that are over -/

/-- A load has begun under this number, and none is under way under it any more. -/
structure Over (c : Cache) (id : Nat) : Prop where
  begun : id < c.nextLoad
  ended : ∀ l ∈ c.loads, l.id ≠ id

section Over

variable {c : Cache} {id : Nat}

/-- A load that ends is over. -/
theorem over_after_finish (hc : c.Accounted) {l : Load} (hl : c.load? l.id = some l)
    (o : Outcome) : (c.after (.finish l.id o)).Over l.id := by
  have hmem : l ∈ c.loads := List.mem_of_find?_eq_some hl
  constructor
  · rw [after_finish hl, (c.sameTasks_finish l o).nextLoad]
    exact hc.older l hmem
  · intro l' hl'
    rw [after_finish hl, (c.sameTasks_finish l o).loads] at hl'
    simp only [loads, leave, Crew.release, List.mem_append, List.mem_filter] at hl'
    rcases hl' with ⟨-, hne⟩ | ⟨-, hne⟩
    · simpa using hne
    · simpa using hne

/-- Numbers are not given twice, so what is over stays over. -/
theorem Over.after (h : c.Over id) (m : Move) : (c.after m).Over id := by
  have hbegun := h.begun
  constructor
  · exact Nat.lt_of_lt_of_le hbegun (c.nextLoad_le_after m)
  · intro l hl
    rcases mem_loads_after hl with hl | ⟨-, hid, -⟩
    · exact h.ended l hl
    · omega

theorem Over.run (h : c.Over id) (ms : List Move) : (c.run ms).Over id :=
  run_preserves (I := fun c => c.Over id) (fun _ m h => h.after m) h ms

/-- A load that is over puts nothing in the store. -/
theorem Over.not_puts (h : c.Over id) {k : Key} {e : Entry} {m : Move} (hput : c.Puts k e m)
    (o : Outcome) : m ≠ .finish id o := by
  rintro rfl
  cases hput with
  | ended l _ e hl _ _ _ _ => exact h.ended l (List.mem_of_find?_eq_some hl) rfl

end Over

/-! ## Loads that are overtaken -/

/-- A load ends without a write: the store is not asked to keep anything, and keeps the entry
that it has. -/
structure StepsBack (c : Cache) (l : Load) (o : Outcome) (e : Entry) : Prop where
  unasked : (c.after (.finish l.id o)).backing.calls .set = c.backing.calls .set
  kept : (c.after (.finish l.id o)).backing.kept? l.key = some e

/-- What the guard holds back steps back, whether it has failed or not. -/
theorem stepsBack_of_newer {c : Cache} {l : Load} {e : Entry} (hl : c.load? l.id = some l)
    (hlive : c.Live l.key) (he : c.backing.kept? l.key = some e)
    (hg : (c.newer l.key l.started).1 = true) (o : Outcome) : c.StepsBack l o e := by
  constructor
  · rw [after_finish hl]
    cases hr : result? l c.now o with
    | none => rw [backing_finish, hr]
    | some e' =>
      rw [calls_finish hr, hg]
      rfl
  · rw [after_finish hl]
    cases hr : result? l c.now o with
    | none =>
      rw [backing_finish, hr]
      exact he
    | some e' =>
      rw [kept?_finish hr, if_neg (by simp [hg]),
        Backing.kept?_get_of_find? l.key hlive.find?_eq]
      exact he

/-- The load `b` of a key ends with a value, which the store keeps; a calm stretch follows, and
then `a`, which is a load of the same key and began before `b`, is still under way. By then no
call of the store fails, and nothing under the key is past its time. -/
structure Overtakes (c : Cache) (b : Load) (v : Value) (ms : List Move) (a : Load) : Prop where
  ends : c.load? b.id = some b
  stored : (c.after (.finish b.id (.value v true))).backing.kept? b.key = some (c.loaded b v)
  calm : Along (Calm b.key) (c.after (.finish b.id (.value v true))) ms
  underWay : (c.run (.finish b.id (.value v true) :: ms)).load? a.id = some a
  sameKey : a.key = b.key
  earlier : a.started < b.started
  reliable : (c.run (.finish b.id (.value v true) :: ms)).backing.forecast.Reliable
  live : (c.run (.finish b.id (.value v true) :: ms)).Live b.key

/-- A load of a key has failed in a run, and an entry is what it had to write back. -/
def CarriedOverIn (c : Cache) (ms : List Move) (k : Key) (e : Entry) : Prop :=
  ∃ before l f after, ms = before ++ .finish l.id (.failure f) :: after ∧
    (c.run before).load? l.id = some l ∧ l.key = k ∧ carryOver? l (c.run before).now = some e

section Overtaken

variable {c : Cache} {a b : Load} {v : Value} {ms : List Move}

/-- What is kept when an overtaken load ends is no older than what has overtaken it. -/
theorem Overtakes.kept (hc : c.Reachable) (h : c.Overtakes b v ms a) :
    ∃ e, (c.run (.finish b.id (.value v true) :: ms)).backing.kept? b.key = some e ∧
      c.now ≤ e.since ∧ a.started < e.since := by
  have hstarted : b.started ≤ c.now :=
    (punctual_of_reachable hc).started b (List.mem_of_find?_eq_some h.ends)
  have hearlier := h.earlier
  have hsince : (c.loaded b v).since = c.now := rfl
  have hafter : (c.after (.finish b.id (.value v true))).Reachable := hc.after trivial
  obtain ⟨e, he, hle⟩ := since_le_run hafter h.calm h.stored
  exact ⟨e, he, by omega, by omega⟩

/-- What is kept then was carried over exactly if a failed load has written last. -/
theorem Overtakes.carried_iff (h : c.Overtakes b v ms a) {e : Entry}
    (he : (c.run (.finish b.id (.value v true) :: ms)).backing.kept? b.key = some e) :
    e.carried = true ↔
      (c.after (.finish b.id (.value v true))).CarriedOverIn ms b.key e := by
  constructor
  · intro hcarried
    rw [run_cons] at he
    rcases kept?_run_from he with hfirst | ⟨before, m, after, rfl, hput⟩
    · -- what `b` has stored was not carried over
      rw [h.stored] at hfirst
      cases hfirst
      cases hcarried
    · rcases hput.of_carried hcarried with ⟨l, f, rfl, hl, hk, hr⟩ | rfl
      · exact ⟨before, l, f, after, rfl, hl, hk, hr⟩
      · -- no ready-made entry is put under the key in a calm stretch
        have hm := (along_append.1 h.calm).2.1
        exact absurd rfl hm.spares
  · rintro ⟨before, l, f, after, -, -, -, hr⟩
    obtain ⟨stale, -, -, -, -, hcarried⟩ := carryOver?_eq_some hr
    exact hcarried

end Overtaken

/-- **An overtaken load writes only over a value carried over.** In a cache that can be reached,
let a load `b` store its value, and let a calm stretch follow with any loads in it, successful
or failing; let `a` be a load of the key that began before `b` and is still under way. What is
kept then was made no earlier than the value of `b`, and it is carried over exactly if a load
that failed in the stretch has written it. If it is not, `a` steps back, however it ends. If
`a` succeeds, it writes its value exactly if what is kept is carried over. Once it has ended,
`a` puts nothing in the store: what is kept later was kept then, or another move has put it
there. -/
theorem overtaken_load_writes_iff {c : Cache} (hc : c.Reachable) {a b : Load} {v : Value}
    {ms : List Move} (h : c.Overtakes b v ms a) :
    ∃ e, (c.run (.finish b.id (.value v true) :: ms)).backing.kept? a.key = some e ∧
      c.now ≤ e.since ∧ a.started < e.since ∧
      (e.carried = true ↔
        (c.after (.finish b.id (.value v true))).CarriedOverIn ms a.key e) ∧
      (e.carried = false → ∀ o,
        (c.run (.finish b.id (.value v true) :: ms)).StepsBack a o e) ∧
      (∀ w, (c.run (.finish b.id (.value v true) :: ms)).Writes a (.value w true)
        ((c.run (.finish b.id (.value v true) :: ms)).loaded a w) ↔ e.carried = true) ∧
      ∀ o later e',
        (c.run (.finish b.id (.value v true) :: ms ++ .finish a.id o :: later)).backing.kept?
          a.key = some e' →
        (c.run (.finish b.id (.value v true) :: ms ++ [.finish a.id o])).backing.kept? a.key =
          some e' ∨
        ∃ before m after, later = before ++ m :: after ∧
          (c.run (.finish b.id (.value v true) :: ms ++ .finish a.id o :: before)).Puts a.key e' m ∧
          ∀ o', m ≠ .finish a.id o' := by
  obtain ⟨e, he, hsince, hlater⟩ := h.kept hc
  have hcarried := h.carried_iff he
  have hafter : (c.after (.finish b.id (.value v true))).Reachable := hc.after trivial
  have hreach : (c.run (.finish b.id (.value v true) :: ms)).Reachable :=
    hafter.run (h.calm.mono fun _ _ hm => hm.allowed)
  have hlive := h.live
  rw [← h.sameKey] at he hcarried hlive
  -- the guard sees the entry that is kept, which is younger than `a`
  have hguard : ((c.run (.finish b.id (.value v true) :: ms)).newer a.key a.started).1 = true ↔
      e.carried = false := by
    rw [newer_eq_true_iff _ h.reliable, hlive.find?_eq, he]
    constructor
    · rintro ⟨found, hfound, -, hnot⟩
      cases hfound
      exact hnot
    · intro hnot
      exact ⟨e, rfl, hlater, hnot⟩
  refine ⟨e, he, hsince, hlater, hcarried, ?_, ?_, ?_⟩
  · intro hnot
    exact stepsBack_of_newer h.underWay hlive he (hguard.2 hnot)
  · intro w
    rw [writes_iff_newer h.underWay rfl, ← Bool.not_eq_true, hguard, Bool.not_eq_false]
  · intro o later e' he'
    have hover := over_after_finish (accounted_of_reachable hreach) h.underWay o
    rw [run_append, run_cons] at he'
    rcases kept?_run_from he' with hkept | ⟨before, m, after, rfl, hput⟩
    · rw [run_append]
      exact .inl hkept
    · refine .inr ⟨before, m, after, rfl, ?_, (hover.run before).not_puts hput⟩
      rw [run_append]
      exact hput

/-- Two callers load one key. -/
def twoCallers : List Move := overtaking.take 3

/-- The value has become stale, and a load of a request that clings to it fails. -/
def failInBetween : List Move :=
  [.tick (3 * Clock.second), .get (clinging .block), .finish 2 (.failure ⟨"down", []⟩)]

theorem reachable_twoCallers : ((overMap .threads).run twoCallers).Reachable := by
  have hr : { profile with mode := .block }.WellFormed := ⟨by decide, by decide, by decide, rfl⟩
  exact (reachable_overMap _).run ⟨hr, trivial, hr, trivial⟩

/-- The second caller's load is done first, and a third load carries its value over. -/
theorem overtakes_failInBetween :
    ((overMap .threads).run twoCallers).Overtakes (awaited 1 1) "new" failInBetween
      (awaited 0 0) where
  ends := rfl
  stored := rfl
  calm := ⟨⟨rfl, trivial, trivial⟩, ⟨rfl, trivial, clinging_wellFormed _⟩,
    ⟨rfl, trivial, trivial⟩, trivial⟩
  underWay := rfl
  sameKey := rfl
  earlier := by decide
  reliable := fun _ _ => .inl rfl
  live := rfl

/-- The first caller's load writes its value all the same. -/
theorem overtaken_load_writes_iff_failInBetween :
    ((overMap .threads).run
      (twoCallers ++ .finish 1 (.value "new" true) :: failInBetween)).Writes (awaited 0 0)
      (.value "slow" true) (Entry.stamped (3 * Clock.second) "slow" (10 * Clock.second)
        Clock.second) := by
  obtain ⟨e, he, -, -, -, -, hw, -⟩ :=
    overtaken_load_writes_iff reachable_twoCallers overtakes_failInBetween
  have hcarried : e.carried = true := by
    cases he
    rfl
  rw [run_append]
  exact (hw "slow").2 hcarried

/-- A value is loaded and becomes stale, and two callers load it anew. -/
def twoCallersAgain : List Move :=
  [.get (clinging .block), .finish 0 (.value "old" true), .tick (2 * Clock.second),
    .get (clinging .block), .tick (2 * Clock.second + 1), .get { profile with mode := .block }]

/-- The first caller's load, which clings to the stale value. -/
def clingingLoad : Load :=
  { id := 1, request := clinging .block, stale := some old, seat := .caller
    started := 2 * Clock.second }

/-- The second caller's load. -/
def secondLoad : Load :=
  { id := 2, request := { profile with mode := .block }, stale := some old, seat := .caller
    started := 2 * Clock.second + 1 }

/-- The new value has become stale in turn, and a load that clings to it fails. -/
def failAgain : List Move :=
  [.tick (4 * Clock.second), .get (clinging .block), .finish 3 (.failure ⟨"down", []⟩)]

theorem reachable_twoCallersAgain : ((overMap .threads).run twoCallersAgain).Reachable := by
  have hr : { profile with mode := .block }.WellFormed := ⟨by decide, by decide, by decide, rfl⟩
  exact (reachable_overMap _).run ⟨clinging_wellFormed _, trivial, trivial,
    clinging_wellFormed _, trivial, hr, trivial⟩

theorem overtakes_failAgain :
    ((overMap .threads).run twoCallersAgain).Overtakes secondLoad "new" failAgain
      clingingLoad where
  ends := rfl
  stored := rfl
  calm := ⟨⟨rfl, trivial, trivial⟩, ⟨rfl, trivial, clinging_wellFormed _⟩,
    ⟨rfl, trivial, trivial⟩, trivial⟩
  underWay := rfl
  sameKey := rfl
  earlier := by decide
  reliable := fun _ _ => .inl rfl
  live := rfl

/-- **The order of loads can be lost.** Once a failed load has carried the newer value over, an
overtaken load that succeeds replaces it, and one that fails replaces it with the older value
that it was handed. -/
theorem overtaken_loads_write :
    (¬ ∀ (c : Cache) (a b : Load) (v w : Value) (ms : List Move),
      c.Reachable → c.Overtakes b v ms a →
      (c.run (.finish b.id (.value v true) :: ms ++ [.finish a.id (.value w true)])).backing.kept?
        a.key ≠ some ((c.run (.finish b.id (.value v true) :: ms)).loaded a w)) ∧
    (¬ ∀ (c : Cache) (a b : Load) (v : Value) (f : Failure) (e e' : Entry) (ms : List Move),
      c.Reachable → c.Overtakes b v ms a → a.stale = some e → e.since < c.now →
      carryOver? a (c.run (.finish b.id (.value v true) :: ms)).now = some e' →
      (c.run (.finish b.id (.value v true) :: ms ++ [.finish a.id (.failure f)])).backing.kept?
        a.key ≠ some e') := by
  constructor
  · intro h
    exact h _ _ _ "new" "slow" _ reachable_twoCallers overtakes_failInBetween rfl
  · intro h
    exact h _ _ _ "new" ⟨"down", []⟩ old _ _ reachable_twoCallersAgain overtakes_failAgain rfl
      (by decide) rfl rfl

end Evergreen.Cache
