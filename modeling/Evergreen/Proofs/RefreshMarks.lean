import Evergreen.Proofs.Registrations
import Evergreen.Proofs.Scans

/-!
# When refresh marks change

A refresh mark belongs to a family: the copies of a request that callers hold, the one that is
registered and those that wait in the queue all share it. Few moves touch a mark, and each says
so by the family of the one request that it is about; the removal of everything is about all that
is registered.

- `Touches`: a move renews a request, or makes it due;
- `marks_after_of_not_touches`: the mark of any other request stays;
- `Touches.family_eq`: a move touches one family at most, unless it removes everything;
- `marks_run_last`: after a run, a mark is what the last move that touched it has made of it;
- `marks_change_only`: all of it in one.
-/

namespace Evergreen.Cache

/-- A move makes a registered request due that is a copy of the given one. -/
def MadeDue (c : Cache) (q : Request) (m : Move) : Prop :=
  ∃ q', Resets c q' m ∧ q'.family = q.family

/-- A move is one of those that set the mark of a request, or take it away. -/
def Touches (c : Cache) (q : Request) (m : Move) : Prop := c.Renews q m ∨ c.MadeDue q m

/-- In a run, a move touches the mark of a request, and nothing touches it from then on: `c'` is
the cache before that move. -/
def TouchedLast (c : Cache) (ms : List Move) (q : Request) (c' : Cache) (m : Move) : Prop :=
  ∃ before since, ms = before ++ m :: since ∧ c' = c.run before ∧ c'.Touches q m ∧
    Along (fun c m => ¬ c.Touches q m) (c'.after m) since

/-- Whether a move is of a kind that leaves every mark alone: it is neither the end of a load nor
a removal, and registers nothing by `schedule`. -/
def sparing : Move → Bool
  | .finish .. | .remove _ | .removeAll | .schedule _ => false
  | _ => true

section Steps

variable {c : Cache} {m : Move} {q q' : Request}

/-! ## Moves that touch a mark -/

/-- A renewal sets the mark to the time. -/
theorem Renews.marks_now (h : c.Renews q m) : (c.after m).marks q.family = some c.markNow := by
  obtain ⟨l, o, hl, rfl, ho, hf⟩ := renews_iff.1 h
  rw [after_finish hl, marks_finish_eq, if_pos ⟨ho, hf.symm⟩]

/-- A request that is made due has no mark. -/
theorem MadeDue.marks_after (h : c.MadeDue q m) : (c.after m).marks q.family = none := by
  obtain ⟨q', hreset, hf⟩ := h
  rw [← hf]
  exact hreset.after.1

/-- **A move that does not touch a mark** leaves it as it is. -/
theorem marks_after_of_not_touches (h : ¬ c.Touches q m) :
    (c.after m).marks q.family = c.marks q.family := by
  have hstep := c.markStep_after m q.family
  generalize (c.after m).marks q.family = mark at hstep
  cases hstep with
  | same => rfl
  | refreshed l o hl hm ho hf => exact absurd (.inl (renews_iff.2 ⟨l, o, hl, hm, ho, hf.symm⟩)) h
  | reset q' hreset hf => exact absurd (.inr ⟨q', hreset, hf.symm⟩) h

/-! ## Whose mark it is -/

theorem Renews.family_eq (h : c.Renews q m) (h' : c.Renews q' m) : q.family = q'.family := by
  obtain ⟨l, o, hl, rfl, -, hf⟩ := renews_iff.1 h
  obtain ⟨l', o', hl', hm, -, hf'⟩ := renews_iff.1 h'
  rw [← (Move.finish.inj hm).1, hl, Option.some.injEq] at hl'
  rw [← hf, ← hf', hl']

theorem Resets.eq (h : Resets c q m) (h' : Resets c q' m) (hm : m ≠ .removeAll) : q = q' := by
  cases h with
  | removed k hk =>
    cases h' with
    | removed _ hk' => exact Option.some.inj (hk.symm.trans hk')
  | removedAll => exact absurd rfl hm
  | replaces =>
    cases h' with
    | replaces => rfl

/-- No move both renews a request and makes one due. -/
theorem Renews.not_madeDue (h : c.Renews q m) : ¬ c.MadeDue q' m := by
  rintro ⟨q'', hreset, -⟩
  obtain ⟨l, o, -, rfl, -, -⟩ := renews_iff.1 h
  cases hreset

/-- **A move touches one family at most**, unless it removes everything. -/
theorem Touches.family_eq (h : c.Touches q m) (h' : c.Touches q' m) (hm : m ≠ .removeAll) :
    q.family = q'.family := by
  rcases h with h | h
  · rcases h' with h' | h'
    · exact h.family_eq h'
    · exact absurd h' h.not_madeDue
  · rcases h' with h' | h'
    · exact absurd h h'.not_madeDue
    · obtain ⟨r, hr, hf⟩ := h
      obtain ⟨r', hr', hf'⟩ := h'
      rw [← hf, ← hf', hr.eq hr' hm]

/-- The removal of everything is about what is registered. -/
theorem touches_removeAll_iff :
    c.Touches q .removeAll ↔ ∃ q', c.Registered q' ∧ q'.family = q.family := by
  constructor
  · rintro (h | ⟨q', hreset, hf⟩)
    · obtain ⟨l, o, -, hm, -⟩ := renews_iff.1 h
      cases hm
    · cases hreset with
      | removedAll k hk => exact ⟨q', ⟨k, hk⟩, hf⟩
  · rintro ⟨q', ⟨k, hk⟩, hf⟩
    exact .inr ⟨q', .removedAll k hk, hf⟩

/-! ## Moves that spare all marks -/

/-- A move of a sparing kind touches nothing. -/
theorem not_touches_of_sparing (h : sparing m = true) : ¬ c.Touches q m := by
  rintro (hrenews | ⟨q', hreset, -⟩)
  · obtain ⟨l, o, -, rfl, -⟩ := renews_iff.1 hrenews
    cases h
  · cases hreset <;> cases h

/-- A panic is no refresh. -/
theorem not_touches_panic (id : Nat) (text : String) :
    ¬ c.Touches q (.finish id (.panic text)) := by
  rintro (hrenews | ⟨q', hreset, -⟩)
  · obtain ⟨l, o, -, hm, ho, -⟩ := renews_iff.1 hrenews
    obtain ⟨-, rfl⟩ := Move.finish.inj hm
    cases ho
  · cases hreset

/-- A failure is no refresh, unless a stale value is written back as fresh. -/
theorem not_touches_failure {l : Load} (hl : c.load? l.id = some l) (f : Failure)
    (h : l.stale = none ∨ (cell l).cache ≠ .cacheFresh) :
    ¬ c.Touches q (.finish l.id (.failure f)) := by
  rintro (hrenews | ⟨q', hreset, -⟩)
  · obtain ⟨l', o, hl', hm, ho, -⟩ := renews_iff.1 hrenews
    obtain ⟨hid, rfl⟩ := Move.finish.inj hm
    rw [← hid, hl, Option.some.injEq] at hl'
    subst hl'
    rcases h with h | h <;> simp [refreshes, h] at ho
  · cases hreset

end Steps

/-! ## Marks after a run -/

section Runs

variable {c : Cache} {q : Request}

/-- **After a run**, the mark of a request is as it was, if nothing has touched it, or what the
last move that did has made of it. -/
theorem marks_run_last (c : Cache) (ms : List Move) (q : Request) :
    (¬ Sometime (fun c m => c.Touches q m) c ms ∧ (c.run ms).marks q.family = c.marks q.family) ∨
      ∃ c' m, c.TouchedLast ms q c' m ∧
        (c.run ms).marks q.family = (c'.after m).marks q.family := by
  induction ms generalizing c with
  | nil => exact .inl ⟨id, rfl⟩
  | cons m ms ih =>
    rcases ih (c.after m) with ⟨hnot, hmarks⟩ | ⟨c', m', ⟨before, since, rfl, rfl, h⟩, hmarks⟩
    · by_cases ht : c.Touches q m
      · -- what follows does not touch the mark, so it stays as this move has left it
        exact .inr ⟨c, m, ⟨[], ms, rfl, rfl, ht, not_sometime_iff.1 hnot⟩, hmarks⟩
      · exact .inl ⟨not_or.2 ⟨ht, hnot⟩, hmarks.trans (marks_after_of_not_touches ht)⟩
    · exact .inr ⟨_, m', ⟨m :: before, since, rfl, rfl, h⟩, hmarks⟩

theorem TouchedLast.touches {ms : List Move} {c' : Cache} {m : Move}
    (h : c.TouchedLast ms q c' m) : c'.Touches q m := by
  obtain ⟨before, since, -, -, htouches, -⟩ := h
  exact htouches

/-- A cache that was just built has no marks. -/
theorem marks_of_build {b : Blueprint} {now : Nat} (h : b.build now = .ok c) (f : Nat) :
    c.marks f = none := by
  obtain ⟨executor, rfl⟩ := eq_of_build h
  rfl

end Runs

/-- **Refresh marks change only where they should.** In any state, for every move and request:

1. a load that has a value, or fails and has its stale value written back as fresh, sets the mark
   of its family to the time, on a 64-bit clock and never zero, whatever becomes of the write;
2. a removal takes away the marks of what is registered under its key, or of all that is
   registered, and so does a registration that replaces another request with that of its own,
   whatever the store says;
3. nothing else changes the mark: it stays where neither is the case;
4. gets, peeks, sets, reloads that are taken up or dropped, scans, closing and all other moves of
   such a kind leave every mark alone; so do panics, failures whose stale value is not written
   back as fresh, and registrations that replace nothing;
5. requests that are no copies of the one that is touched keep their marks, though they share its
   key; a removal of everything is about what is registered.

After any run, the mark is what the last move that touched it has made of it; in a cache that was
just built, nothing was ever refreshed. -/
theorem marks_change_only (c : Cache) :
    (∀ m q, c.Renews q m → (c.after m).marks q.family = some (max 1 (c.now % wordSize))) ∧
    (∀ m q, c.MadeDue q m → (c.after m).marks q.family = none) ∧
    (∀ m q, ¬ c.Touches q m → (c.after m).marks q.family = c.marks q.family) ∧
    ((∀ m, sparing m = true → ∀ q : Request, (c.after m).marks q.family = c.marks q.family) ∧
      (∀ id text (q : Request),
        (c.after (.finish id (.panic text))).marks q.family = c.marks q.family) ∧
      (∀ l f, c.load? l.id = some l → l.stale = none ∨ (cell l).cache ≠ .cacheFresh →
        ∀ q : Request,
          (c.after (.finish l.id (.failure f))).marks q.family = c.marks q.family) ∧
      ∀ r, ¬ c.Replaces r → ∀ q : Request,
        (c.after (.schedule r)).marks q.family = c.marks q.family) ∧
    ((∀ m q, c.Touches q m → m ≠ .removeAll → ∀ q' : Request, q'.family ≠ q.family →
        (c.after m).marks q'.family = c.marks q'.family) ∧
      ∀ q : Request, (∀ q', c.Registered q' → q'.family ≠ q.family) →
        (c.after .removeAll).marks q.family = c.marks q.family) ∧
    (∀ ms q,
      (¬ Sometime (fun c m => c.Touches q m) c ms ∧
        (c.run ms).marks q.family = c.marks q.family) ∨
      ∃ c' m, c.TouchedLast ms q c' m ∧
        (c'.Renews q m ∧ (c.run ms).marks q.family = some (max 1 (c'.now % wordSize)) ∨
          c'.MadeDue q m ∧ (c.run ms).marks q.family = none)) ∧
    (∀ (b : Blueprint) (now : Nat), b.build now = .ok c →
      ∀ q : Request, c.marks q.family = none) := by
  refine ⟨?_, ?_, ?_, ⟨?_, ?_, ?_, ?_⟩, ⟨?_, ?_⟩, ?_, ?_⟩
  · intro m q h
    exact h.marks_now
  · intro m q h
    exact h.marks_after
  · intro m q h
    exact marks_after_of_not_touches h
  · intro m h q
    exact marks_after_of_not_touches (not_touches_of_sparing h)
  · intro id text q
    exact marks_after_of_not_touches (not_touches_panic id text)
  · intro l f hl h q
    exact marks_after_of_not_touches (not_touches_failure hl f h)
  · intro r h q
    exact congrFun (marks_schedule_of_not_replaces h) q.family
  · intro m q h hm q' hf
    exact marks_after_of_not_touches fun h' => hf (h'.family_eq h hm)
  · intro q hq
    refine marks_after_of_not_touches fun h => ?_
    obtain ⟨q', hregistered, hf⟩ := touches_removeAll_iff.1 h
    exact hq q' hregistered hf
  · intro ms q
    rcases c.marks_run_last ms q with h | ⟨c', m, hlast, hmarks⟩
    · exact .inl h
    · refine .inr ⟨c', m, hlast, ?_⟩
      rw [hmarks]
      exact hlast.touches.imp (fun h => ⟨h, h.marks_now⟩) fun h => ⟨h, h.marks_after⟩
  · intro b now h q
    exact marks_of_build h q.family

/-- A reload of the first request is under way. -/
def profileLoading : Cache := (overMap .threads).run [.get profile, .start 0]

/-- It has ended with a value, and the request was registered afterwards. -/
def profileRefreshed : Cache :=
  profileLoading.run [.finish 0 (.value "v" true), .schedule profile]

/-- The value refreshes the request, as a failure would not have, and a removal under its key makes
it due again. The other request of its key keeps its mark. -/
theorem marks_change_only_profileRefreshed :
    (∀ q : Request, (overMap .threads).marks q.family = none) ∧
    (profileLoading.after (.finish 0 (.value "v" true))).marks profile.family = some 1 ∧
    (profileLoading.after (.finish 0 (.failure ⟨"down", []⟩))).marks profile.family = none ∧
    (profileLoading.after (.schedule profile)).marks profile.family = none ∧
    (profileLoading.after .removeAll).marks profile.family = none ∧
    (profileRefreshed.after .beginScan).marks profile.family = some 1 ∧
    (profileRefreshed.after (.remove "settings")).marks profile.family = some 1 ∧
    (profileRefreshed.after (.remove "profile")).marks profile.family = none ∧
    (profileRefreshed.after (.remove "profile")).marks profileAnew.family =
      profileRefreshed.marks profileAnew.family := by
  have hbuilt : Blueprint.build { store := some (.plain Table.empty), executor := some .threads }
      0 = .ok (overMap .threads) := rfl
  have hremoved : profileRefreshed.MadeDue profile (.remove "profile") :=
    ⟨profile, .removed "profile" rfl, rfl⟩
  have helsewhere : ¬ profileRefreshed.Touches profile (.remove "settings") := by
    rintro (h | ⟨q, h, -⟩)
    · cases h
    · cases h with
      | removed k hk => cases hk
  obtain ⟨-, -, -, -, -, -, hnew⟩ := marks_change_only (overMap .threads)
  obtain ⟨hrenews, -, -, ⟨-, -, hfailure, hschedule⟩, ⟨-, hremoveAll⟩, -⟩ :=
    marks_change_only profileLoading
  obtain ⟨-, hdue, hkept, ⟨hsparing, -⟩, ⟨hother, -⟩, -⟩ := marks_change_only profileRefreshed
  refine ⟨hnew _ 0 hbuilt, ?_, ?_, ?_, ?_, ?_, ?_, ?_, ?_⟩
  · exact hrenews _ profile (.value ⟨0, profile, none, .worker, 0⟩ "v" true rfl rfl)
  · exact hfailure ⟨0, profile, none, .worker, 0⟩ _ rfl (.inl rfl) profile
  · refine hschedule profile ?_ profile
    rintro ⟨-, h⟩
    cases h
  · refine hremoveAll profile ?_
    rintro q ⟨k, hk⟩
    cases hk
  · exact hsparing .beginScan rfl profile
  · exact hkept _ profile helsewhere
  · exact hdue _ profile hremoved
  · exact hother _ profile (.inr hremoved) nofun profileAnew (by decide)

/-- A load that ends when the clock shows zero is a refresh all the same. -/
example : ((overMap .threads).run [.get profile, .start 0, .finish 0 (.value "v" false)]).marks 0 =
    some 1 := by
  decide

end Evergreen.Cache
