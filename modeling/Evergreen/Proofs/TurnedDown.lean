import Evergreen.Proofs.Panics
import Evergreen.Proofs.Registrations

/-!
# Calls that are turned down

A call of `set`, `setEntry` or `schedule` may be turned down before it does anything: the key is
blank, the lifetime too short, the cache closed, or the registration one that changes nothing
(`TurnedDown`). Then nothing has happened but that a declined registration is noted, no matter
what state the cache is in, and the rest of a run goes as if the call had not been made.

- `TurnedDown.outcome`: what the caller is told, and what is left of the call (`refusal`);
- `turnedDown_of_answer`: no other call is answered like that;
- `noted_run`: caches that differ by a note go the same way (`Noted`);
- `insert_noted`: so a move that only adds notes can be put into any run.
-/

namespace Evergreen.Cache

/-! ## Calls and their answers -/

/-- A call is turned down, and the caller is told why. -/
inductive TurnedDown (c : Cache) : Move → Except CallFault Bool → Prop
  /-- The key is blank, whatever the lifetime is. -/
  | blankSet {k : Key} (blank : Text.isBlank k = true) (v : Value) (ttl : Nat) :
    TurnedDown c (.set k v ttl) (.error (.config .blankKey))
  | blankSetEntry {k : Key} (blank : Text.isBlank k = true) (e : Entry) :
    TurnedDown c (.setEntry k e) (.error (.config .blankKey))
  /-- The lifetime is below a millisecond. -/
  | shortLived {k : Key} (named : Text.isBlank k = false) (v : Value) {ttl : Nat}
    (short : ttl < minHardTtl) : TurnedDown c (.set k v ttl) (.error (.config .zeroHardTtl))
  | closed (closed : c.poller.closed = true) (r : Request) :
    TurnedDown c (.schedule r) (.error .closed)
  /-- The registration would change nothing. -/
  | kept {r : Request} (opened : c.poller.closed = false) {old : Registration}
    (registered : c.poller.registry.requests.find? r.key = some old)
    (keeps : c.poller.registry.keeps old r = true) : TurnedDown c (.schedule r) (.ok false)

/-- What is noted of a call that is turned down: where a registration was declined or would have
changed nothing, that. -/
def refusal (c : Cache) : Move → List Event
  | .schedule r =>
    [if c.poller.closed then .registrationDeclined r.key else .registrationKept r.key]
  | _ => []

section Calls

variable {c : Cache} {m : Move} {a : Except CallFault Bool}

/-- **What comes of the call:** the caller is told, and nothing is left of it but the note. -/
theorem TurnedDown.outcome (h : c.TurnedDown m a) :
    c.answer m = .accepted a ∧ c.after m = { c with journal := c.refusal m ++ c.journal } := by
  cases h with
  | blankSet blank v ttl => simp [answer, Cache.after, set_eq, blank, refusal]
  | blankSetEntry blank e => simp [answer, Cache.after, setEntry_eq, blank, refusal]
  | shortLived named v short => simp [answer, Cache.after, set_eq, named, short, refusal]
  | closed closed r =>
    simp [answer, Cache.after, schedule, register, closed, refusal, record]
  | kept opened registered keeps =>
    simp [answer, Cache.after, schedule, register, opened, registered, keeps, refusal, record]

/-- A call that is turned down offers no reload. -/
theorem TurnedDown.offered? (h : c.TurnedDown m a) : c.offered? m = none := by
  cases h <;> rfl

/-- Only calls that are turned down are answered by an error, or registrations by `false`. -/
theorem turnedDown_of_answer (h : c.answer m = .accepted a)
    (ha : (∃ fault, a = .error fault) ∨ ∃ r, m = .schedule r ∧ a = .ok false) :
    c.TurnedDown m a := by
  cases m with
  | set k v ttl =>
    simp only [answer, Answer.accepted.injEq, set_eq] at h
    split at h
    · rename_i hblank
      exact h ▸ .blankSet hblank v ttl
    · rename_i hnamed
      split at h
      · rename_i hshort
        exact h ▸ .shortLived (by simpa using hnamed) v hshort
      · subst h
        obtain ⟨_, h⟩ | ⟨_, h, -⟩ := ha <;> cases h
  | setEntry k e =>
    simp only [answer, Answer.accepted.injEq, setEntry_eq] at h
    split at h
    · rename_i hblank
      exact h ▸ .blankSetEntry hblank e
    · subst h
      obtain ⟨_, h⟩ | ⟨_, h, -⟩ := ha <;> cases h
  | schedule r =>
    simp only [answer, Answer.accepted.injEq, schedule, register] at h
    split at h
    · rename_i hclosed
      exact h ▸ .closed hclosed r
    · rename_i hopen
      cases hf : c.poller.registry.requests.find? r.key with
      | none =>
        simp only [hf] at h
        subst h
        obtain ⟨_, h⟩ | ⟨_, -, h⟩ := ha <;> cases h
      | some old =>
        simp only [hf] at h
        split at h
        · rename_i hkeeps
          exact h ▸ .kept (by simpa using hopen) hf hkeeps
        · subst h
          obtain ⟨_, h⟩ | ⟨_, -, h⟩ := ha <;> cases h
  | _ => cases h

end Calls

/-! ## Runs with one call more -/

/-- A cache at the end of a run in which there was one note more: nothing else is different, and
not even the journal if somebody has taken it since. -/
def Noted (notes : List Event) (y x : Cache) : Prop :=
  ∃ journal, x = { y with journal } ∧ (journal = y.journal ∨
    ∃ recent old, y.journal = recent ++ old ∧ journal = recent ++ notes ++ old)

section Runs

variable {c : Cache} {m : Move} {ms : List Move} {notes : List Event}

theorem shown_append (c : Cache) (ms ms' : List Move) :
    c.shown (ms ++ ms') = c.shown ms ++ (c.run ms).shown ms' := by
  induction ms generalizing c with
  | nil => rfl
  | cons m ms ih => exact congrArg _ (ih (c.after m))

theorem length_shown (c : Cache) (ms : List Move) : (c.shown ms).length = ms.length := by
  induction ms generalizing c with
  | nil => rfl
  | cons m ms ih => exact congrArg (· + 1) (ih (c.after m))

/-- Two caches that differ by a note go the same way. -/
theorem noted_run (c : Cache) (notes : List Event) (ms : List Move) :
    ({ c with journal := notes ++ c.journal } : Cache).shown ms = c.shown ms ∧
      Noted notes (c.run ms) (({ c with journal := notes ++ c.journal } : Cache).run ms) := by
  -- `y` is what the two have in common, and each is `y` with its own journal put aside
  generalize hy : ({ c with journal := [] } : Cache) = y
  have hbare (old : List Event) : ({ c with journal := old } : Cache) =
      y.aside (fun _ => false) Counters.zero old := by
    subst hy
    simp only [aside, zero_add_counters, List.nil_append, Bool.not_false, List.filter_true]
  have hrun (old : List Event) := y.aside_run Counters.zero old (y.spares_none ms)
  have hc : c = y.aside (fun _ => false) Counters.zero c.journal := hbare c.journal
  have hshown : c.shown ms = y.shown ms := (congrArg (shown · ms) hc).trans (hrun _).2
  have hend : c.run ms = (y.run ms).aside (fun _ => false) Counters.zero
      (ms.foldl Move.leaves c.journal) := (congrArg (run · ms) hc).trans (hrun _).1
  rw [hbare, (hrun _).2, (hrun _).1, hshown, hend]
  refine ⟨rfl, (y.run ms).journal ++ ms.foldl Move.leaves (notes ++ c.journal), rfl, ?_⟩
  rcases foldl_leaves ms with hkept | htaken
  · exact .inr ⟨(y.run ms).journal, c.journal, by rw [hkept]; rfl, by rw [hkept, List.append_assoc]⟩
  · exact .inl (by rw [htaken, aside, htaken])

/-- **A move that only adds notes can be put into any run:** the moves around it show what they
show without it, and the cache at the end is the same but for the notes. -/
theorem insert_noted (h : (c.run ms).after m =
      { c.run ms with journal := notes ++ (c.run ms).journal }) (ms' : List Move) :
    (c.shown (ms ++ m :: ms')).eraseIdx ms.length = c.shown (ms ++ ms') ∧
      Noted notes (c.run (ms ++ ms')) (c.run (ms ++ m :: ms')) := by
  obtain ⟨hshown, hnoted⟩ := noted_run (c.run ms) notes ms'
  rw [← h] at hshown hnoted
  rw [shown_append, shown_append, run_append, run_append]
  refine ⟨?_, hnoted⟩
  rw [List.eraseIdx_append_of_length_le (Nat.le_of_eq (length_shown c ms)), length_shown,
    Nat.sub_self, ← hshown]
  rfl

end Runs

/-- **Calls that are turned down leave everything as it was.** A call of `set` or `setEntry`
under a blank key, whatever its lifetime, of `set` with a lifetime below a millisecond, of
`schedule` with a closed cache, or with a request whose registration changes nothing, is answered
so, and no other call is. The cache after it is the one before it, but for the note of a
registration, which is no call of the store. Put into any run at any point, it changes nothing
that any other move shows, and the run ends in the same cache but for that note. -/
theorem turned_down_leaves_all (c : Cache) (ms : List Move) :
    (∀ m a, (c.run ms).TurnedDown m a ↔
      (c.run ms).answer m = .accepted a ∧
        ((∃ fault, a = .error fault) ∨ ∃ r, m = .schedule r ∧ a = .ok false)) ∧
    ∀ m a, (c.run ms).TurnedDown m a →
      (c.run ms).after m =
          { c.run ms with journal := (c.run ms).refusal m ++ (c.run ms).journal } ∧
        ∀ ms', (c.shown (ms ++ m :: ms')).eraseIdx ms.length = c.shown (ms ++ ms') ∧
          Noted ((c.run ms).refusal m) (c.run (ms ++ ms')) (c.run (ms ++ m :: ms')) := by
  refine ⟨fun m a => ⟨fun h => ⟨h.outcome.1, ?_⟩, fun ⟨h, ha⟩ => turnedDown_of_answer h ha⟩,
    fun m a h => ⟨h.outcome.2, insert_noted h.outcome.2⟩⟩
  cases h with
  | kept => exact .inr ⟨_, rfl, rfl⟩
  | _ => exact .inl ⟨_, rfl⟩

/-- Registered twice, a request keeps its first registration; whether the second is in the run
or not, the scan that follows offers the same reload. A key of spaces is refused before a
lifetime is looked at. -/
theorem turned_down_leaves_all_twiceScheduled :
    let c := overMap (.pool 1 4)
    let scan : List Move := [.tick Clock.second, .beginScan, .visit profile]
    (c.run [.schedule profile]).TurnedDown (.schedule profile) (.ok false) ∧
    (c.shown ([.schedule profile] ++ .schedule profile :: scan)).eraseIdx 1 =
      c.shown ([.schedule profile] ++ scan) ∧
    (c.run [.schedule profile]).TurnedDown (.set " \t\u3000" "v" 0)
      (.error (.config .blankKey)) ∧
    (c.run [.schedule profile]).after (.set " \t\u3000" "v" 0) =
      { c.run [.schedule profile] with journal := [] ++ (c.run [.schedule profile]).journal } := by
  obtain ⟨-, hleaves⟩ := turned_down_leaves_all (overMap (.pool 1 4)) [.schedule profile]
  have hkept : ((overMap (.pool 1 4)).run [.schedule profile]).TurnedDown (.schedule profile)
      (.ok false) := .kept rfl rfl (by decide)
  have hblank : ((overMap (.pool 1 4)).run [.schedule profile]).TurnedDown
      (.set " \t\u3000" "v" 0) (.error (.config .blankKey)) := .blankSet (by decide) _ _
  exact ⟨hkept, ((hleaves _ _ hkept).2 _).1, hblank, (hleaves _ _ hblank).1⟩

end Evergreen.Cache
