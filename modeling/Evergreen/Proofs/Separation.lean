import Evergreen.Proofs.Deadlines
import Evergreen.Proofs.Lifetimes
import Evergreen.Proofs.MarkSteps
import Evergreen.Proofs.Singleflight

/-!
# Keys do not disturb each other

All keys of a cache share its store, the list of marks, the registry and the queue of its
executor, and an engine behind them that knows nothing of keys but their names. `About c k m` says
that a move is about a key: a call with that key or a request of it, or what happens to a task or
a load of it. `SameFor k' c c'` says that two caches are the same as far as a key goes. A move
about one key leaves everything as it was for every other, and this is shown part by part:

- `slot?_after_about`: the store has the same slot under the other key;
- `sameTasksFor_after_about`: it has the same mark, the same tasks and the same loads;
- `find?_after_about`: it is registered as it was;
- `marks_after_about`: its requests were refreshed when they were;
- `keys_do_not_disturb`: so it is after any number of moves about one key.
-/

namespace Evergreen.Cache

/-! ## Moves about a key -/

/-- A move is about a key: it is a call with the key or with a request of it, or it begins, drops
or ends a task or a load of it. -/
def About (c : Cache) (k : Key) : Move → Prop
  | .get r | .schedule r | .visit r => r.key = k
  | .peek k' | .set k' _ _ | .setEntry k' _ | .remove k' | .unschedule k' => k' = k
  | .start place | .discard place => ∀ task, c.crew.waiting[place]? = some task → task.key = k
  | .finish id _ => ∀ l, c.load? id = some l → l.key = k
  | .tick _ | .removeAll | .close | .dispose | .beginScan | .endScan | .shut | .purge
  | .forecast _ | .forget => False

/-- The same tasks wait, the same loads are under way and the same mark is set for a key. -/
structure SameTasksFor (k : Key) (c c' : Cache) : Prop where
  reloading : c'.isReloading k = c.isReloading k
  waiting : c'.crew.waiting.filter (·.key == k) = c.crew.waiting.filter (·.key == k)
  held : c'.crew.held.filter (·.key == k) = c.crew.held.filter (·.key == k)
  callers : c'.callers.filter (·.key == k) = c.callers.filter (·.key == k)

/-- Two caches are the same as far as a key goes: the slot of the store, the mark of a reload in
flight, what is registered, and the tasks and loads. -/
structure SameFor (k : Key) (c c' : Cache) : Prop extends SameTasksFor k c c' where
  slot : c'.backing.slot? k = c.backing.slot? k
  registered : c'.poller.registry.requests.find? k = c.poller.registry.requests.find? k

variable {c c' c'' : Cache} {k k' : Key} {m : Move} {r : Request}

/-! ## The store -/

section Store

variable (c)

theorem slot?_drop_other (h : k' ≠ k) :
    (c.drop k).2.backing.slot? k' = c.backing.slot? k' := by
  rw [backing_drop, Backing.slot?_remove, if_neg (by simp [h])]

/-- A lookup lets go of nothing under another key, not even of what is past its time. -/
theorem slot?_lookup_other (h : k' ≠ k) :
    (c.lookup k).2.backing.slot? k' = c.backing.slot? k' := by
  have hread : (c.glanced k).backing.slot? k' = c.backing.slot? k' := by
    rw [backing_glanced, Backing.slot?_get, if_neg (by simp [h])]
  rw [lookup_eq]
  cases hit (c.fetch k).1 with
  | none => exact hread
  | some e =>
    dsimp only
    split
    · exact (slot?_drop_other _ h).trans hread
    · exact hread

theorem slot?_write_other (e : Entry) (h : k' ≠ k) :
    (c.write k e).2.backing.slot? k' = c.backing.slot? k' := by
  rw [backing_write, Backing.slot?_set, if_neg (by simp [h])]

theorem slot?_finish_other {l : Load} (o : Outcome) (h : k' ≠ l.key) :
    (c.finish l o).2.backing.slot? k' = c.backing.slot? k' := by
  have hread : (c.backing.get c.now l.key).2.slot? k' = c.backing.slot? k' := by
    rw [Backing.slot?_get, if_neg (by simp [h])]
  rw [backing_finish]
  cases result? l c.now o with
  | none => rfl
  | some e =>
    dsimp only
    rw [backing_writeLoaded]
    split
    · exact hread
    · rw [Backing.slot?_set, if_neg (by simp [h]), hread]

end Store

/-- **A move about one key leaves the slot of every other.** -/
theorem slot?_after_about (hm : c.About k m) (h : k' ≠ k) :
    (c.after m).backing.slot? k' = c.backing.slot? k' := by
  cases m with
  | get r =>
    subst hm
    show (c.get r).2.backing.slot? k' = _
    rw [(c.sameStore_get r).backing]
    exact c.slot?_lookup_other h
  | peek k =>
    subst hm
    exact c.slot?_lookup_other h
  | set k v ttl =>
    subst hm
    show (c.set k v ttl).2.backing.slot? k' = _
    rcases c.set_eq_or k v ttl with ⟨fault, hset⟩ | hset
    · rw [hset]
    · rw [hset]
      exact c.slot?_write_other _ h
  | setEntry k e =>
    subst hm
    show (c.setEntry k e).2.backing.slot? k' = _
    rcases c.setEntry_eq_or k e with ⟨fault, hset⟩ | hset
    · rw [hset]
    · rw [hset]
      exact c.slot?_write_other e h
  | remove k =>
    subst hm
    show ((c.resetRegistered k).drop k).2.backing.slot? k' = _
    rw [slot?_drop_other _ h, (c.sameStore_resetRegistered k).backing]
  | schedule r =>
    show (c.schedule r).2.backing.slot? k' = _
    rw [(c.sameStore_schedule r).backing]
  | unschedule k => rfl
  | start place => rw [(c.tasksOnly_start place).backing]
  | discard place => rw [(c.tasksOnly_discard place).backing]
  | finish id o =>
    rcases c.after_finish_eq_or id o with hf | ⟨l, rfl, hl, hf⟩
    · rw [hf]
    · rw [hf]
      exact c.slot?_finish_other o (hm l hl ▸ h)
  | visit r =>
    subst hm
    simp only [after]
    split
    · rw [(tasksOnly_visit (scanning_of_canVisit ‹_›) r).backing]
      exact slot?_lookup_other _ h
    · rfl
  | _ => cases hm

/-! ## Tasks and loads -/

section Tasks

theorem SameTasks.sameTasksFor (h : SameTasks c c') (k : Key) : SameTasksFor k c c' where
  reloading := by rw [isReloading, isReloading, h.inFlight]
  waiting := by rw [h.waiting]
  held := by rw [h.held]
  callers := by rw [h.callers]

theorem SameTasksFor.trans (h : SameTasksFor k c c') (h' : SameTasksFor k c' c'') :
    SameTasksFor k c c'' where
  reloading := h'.reloading.trans h.reloading
  waiting := h'.waiting.trans h.waiting
  held := h'.held.trans h.held
  callers := h'.callers.trans h.callers

theorem SameTasksFor.trans_same (h : SameTasksFor k c c') (h' : SameTasks c' c'') :
    SameTasksFor k c c'' := h.trans (h'.sameTasksFor k)

/-- What comes of the offer of a reload concerns its own key. -/
theorem Comes.sameTasksFor {stale : Option Entry} {byPoller : Bool} {o : Offer}
    (h : Comes c r stale byPoller c' o) (hk : k' ≠ r.key) : SameTasksFor k' c c' := by
  have hkey : (r.key == k') = false := by simpa using hk.symm
  cases h with
  | inFlight _ h | refused _ _ _ h => exact h.sameTasksFor k'
  | queued _ h =>
    refine .trans_same ?_ h
    refine ⟨?_, ?_, rfl, rfl⟩
    · simp [isReloading, hk]
    · simp [Reload.key, hkey]
  | running _ _ h =>
    refine .trans_same ?_ h
    refine ⟨?_, rfl, ?_, rfl⟩
    · simp [isReloading, hk]
    · simp [Crew.hold, nextOf, Load.key, hkey]

theorem sameTasksFor_get (hk : k' ≠ r.key) : SameTasksFor k' c (c.get r).2 := by
  have hs := c.storeOnly_looked r
  have hkey : (r.key == k') = false := by simpa using hk.symm
  rw [get_snd]
  cases c.nextAction r with
  | serve => exact hs.sameTasks.sameTasksFor k'
  | loadForCaller =>
    refine (hs.sameTasks.sameTasksFor k').trans ?_
    refine .trans_same ?_ ((c.looked r).sameTasks_enter_caller r (c.usable r))
    refine ⟨rfl, rfl, rfl, ?_⟩
    simp [nextOf, Load.key, hkey]
  | serveAndReload =>
    exact (comes_offer hs.sameTasks hs.now hs.executor hs.crew r _ false).sameTasksFor hk
  | serveAndRegister =>
    exact (hs.sameTasks.trans (pollerOnly_registerIfAbsent _ r).sameTasks).sameTasksFor k'

/-- Taking an item off a list concerns the items like it. -/
theorem filter_eraseIdx_of_neg {α : Type} {p : α → Bool} {xs : List α} {i : Nat} {x : α}
    (h : xs[i]? = some x) (hx : p x = false) : (xs.eraseIdx i).filter p = xs.filter p := by
  induction xs generalizing i with
  | nil => rfl
  | cons y ys ih =>
    cases i with
    | zero =>
      cases h
      simp [hx]
    | succ i => simp only [List.eraseIdx_cons_succ, List.filter_cons, ih h]

/-- The end of a load concerns its own key: no other load has its number. -/
theorem sameTasksFor_finish (hc : c.Accounted) {l : Load} (hl : c.load? l.id = some l)
    (o : Outcome) (hk : k' ≠ l.key) : SameTasksFor k' c (c.finish l o).2 := by
  have hstays : ∀ l' ∈ c.loads, (l'.key == k' && l'.id != l.id) = (l'.key == k') := by
    intro l' hl'
    by_cases hkey : l'.key = k'
    · have hid : l'.id ≠ l.id := by
        intro hid
        have hsame := hc.load?_of_mem hl'
        rw [hid, hl] at hsame
        exact hk (hkey.symm.trans (congrArg Load.key (Option.some.inj hsame).symm))
      simp [hkey, hid]
    · simp [hkey]
  refine .trans_same ?_ (c.sameTasks_finish l o)
  refine ⟨?_, rfl, ?_, ?_⟩
  · simp only [isReloading]
    split
    · rfl
    · simp [List.mem_erase_of_ne hk]
  · exact (List.filter_filter ..).trans
      (List.filter_congr fun l' hl' => hstays l' (List.mem_append_right _ hl'))
  · exact (List.filter_filter ..).trans
      (List.filter_congr fun l' hl' => hstays l' (List.mem_append_left _ hl'))

/-- **A move about one key leaves the tasks of every other.** -/
theorem sameTasksFor_after_about (hc : c.Accounted) (hm : c.About k m) (h : k' ≠ k) :
    SameTasksFor k' c (c.after m) := by
  cases m with
  | get r =>
    subst hm
    exact sameTasksFor_get h
  | start place =>
    rcases c.after_start place with hs | ⟨task, hw, hs⟩
    · rw [hs]
      exact (SameTasks.refl c).sameTasksFor k'
    · rw [hs]
      have hkey : (task.key == k') = false := by simpa [hm task hw] using h.symm
      refine .trans_same ?_ (sameTasks_enter_background
        { c with crew := { c.crew with waiting := c.crew.waiting.eraseIdx place } }
        task.request task.stale .worker (by decide))
      refine ⟨rfl, filter_eraseIdx_of_neg hw hkey, ?_, rfl⟩
      simpa [Crew.hold, nextOf, Load.key, Reload.key] using hkey
  | discard place =>
    rcases c.after_discard place with hd | ⟨task, hw, hd⟩
    · rw [hd]
      exact (SameTasks.refl c).sameTasksFor k'
    · rw [hd]
      have hkey : (task.key == k') = false := by simpa [hm task hw] using h.symm
      have hk : k' ≠ task.key := by
        rw [hm task hw]
        exact h
      refine ⟨?_, filter_eraseIdx_of_neg hw hkey, rfl, rfl⟩
      simp [isReloading, clearInFlight, List.mem_erase_of_ne hk]
  | finish id o =>
    rcases c.after_finish_eq_or id o with hf | ⟨l, rfl, hl, hf⟩
    · rw [hf]
      exact (SameTasks.refl c).sameTasksFor k'
    · rw [hf]
      exact sameTasksFor_finish hc hl o (hm l hl ▸ h)
  | visit r =>
    subst hm
    simp only [after]
    split
    · obtain ⟨o, -, hcomes⟩ := comes_visit ‹_›
      exact hcomes.sameTasksFor h
    · exact (SameTasks.refl c).sameTasksFor k'
  | _ => exact (c.sameTasks_after rfl).sameTasksFor k'

end Tasks

/-! ## Registrations and refresh marks -/

/-- **A move about one key leaves what is registered under every other.** -/
theorem find?_after_about (hm : c.About k m) (h : k' ≠ k) :
    (c.after m).poller.registry.requests.find? k' = c.poller.registry.requests.find? k' := by
  have hstep := c.pollerStep_after m
  generalize (c.after m).poller = p at hstep
  cases hstep with
  | enrolled q hq =>
    have hk : q.key = k := by rcases hq with rfl | rfl <;> exact hm
    rw [Poller.enrolled_registry]
    exact Table.find?_insert_other _ _ (hk ▸ h)
  | unregistered k'' hk =>
    subst hk
    exact Table.find?_erase_other _ (hm ▸ h)
  | scanBegan _ hm' | scanEnded hm' =>
    subst hm'
    cases hm
  | closed hm' =>
    rcases hm' with rfl | rfl <;> cases hm
  | same | visited | crashed => rfl

/-- The copies of a request that there are have its key. -/
def CopiesAgree (q : Request) (c : Cache) : Prop :=
  ∀ r, c.HasRequest r → r.family = q.family → r.key = q.key

/-- If a move brings a copy of a request, it has the request's key. -/
def BringsCopies (q : Request) (_ : Cache) : Move → Prop
  | .get r | .schedule r => r.family = q.family → r.key = q.key
  | _ => True

section Marks

variable {q : Request}

theorem CopiesAgree.after (h : c.CopiesAgree q) (hm : c.BringsCopies q m) :
    (c.after m).CopiesAgree q := by
  intro r hr hf
  rcases hr.of_after with hr | rfl | rfl
  · exact h r hr hf
  · exact hm hf
  · exact hm hf

/-- **A move about one key leaves the refresh marks of every other:** it sets those of its own
loads, and takes away that of the request which is registered under the key. -/
theorem marks_after_about (hc : c.Reachable) (hq : c.CopiesAgree q) (hb : c.BringsCopies q m)
    (hm : c.About k m) (h : q.key ≠ k) : (c.after m).marks q.family = c.marks q.family := by
  have hstep := c.markStep_after m q.family
  generalize (c.after m).marks q.family = mark at hstep ⊢
  cases hstep with
  | same => rfl
  | refreshed l o hl hfin _ hf =>
    subst hfin
    have hload : c.HasRequest l.request := .inHand (.inr ⟨l, List.mem_of_find?_eq_some hl, rfl⟩)
    exact absurd ((hq _ hload hf.symm).symm.trans (hm l hl)) h
  | reset r hr hf =>
    cases hr with
    | removed k'' hr =>
      have hk : r.key = k'' := key_of_registered hc hr
      have hkey := hq r (.registered k'' hr) hf.symm
      exact absurd (hkey.symm.trans (hk.trans hm)) h
    | removedAll => cases hm
    | replaces => exact absurd ((hb hf.symm).symm.trans hm) h

end Marks

/-! ## Runs -/

theorem SameFor.refl (c : Cache) (k : Key) : SameFor k c c where
  toSameTasksFor := (SameTasks.refl c).sameTasksFor k
  slot := rfl
  registered := rfl

theorem SameFor.trans (h : SameFor k c c') (h' : SameFor k c' c'') : SameFor k c c'' where
  toSameTasksFor := h.toSameTasksFor.trans h'.toSameTasksFor
  slot := h'.slot.trans h.slot
  registered := h'.registered.trans h.registered

/-- A move about one key leaves everything of every other. -/
theorem sameFor_after_about (hc : c.Reachable) (hm : c.About k m) (h : k' ≠ k) :
    SameFor k' c (c.after m) where
  toSameTasksFor := sameTasksFor_after_about (accounted_of_reachable hc) hm h
  slot := slot?_after_about hm h
  registered := find?_after_about hm h

/-- The moves of a run bring no copy of a request with another key, so there is none. -/
theorem copiesAgree_run {q : Request} {ms : List Move} (hc : c.Launched)
    (hms : Along (BringsCopies q) c ms) : (c.run ms).CopiesAgree q := by
  obtain ⟨⟨b, now, hb⟩, -⟩ := hc
  refine hms.preserves (fun _ _ h hm => h.after hm) fun r hr => ?_
  exact absurd hr (not_hasRequest_of_build hb)

/-- **Keys do not disturb each other.** Let a run lead from a cache that was just built to any
state, and let moves about one key follow, one or many: gets of requests of the key, calls with
the key, and whatever happens to its tasks and loads, however they end. Then for every other key
the store has the same slot, the same mark is set, the same request is registered with the same
count of scans, the same tasks wait and the same loads are under way; and the requests of the
other key were refreshed when they were, given that copies of them have their key, as copies do. -/
theorem keys_do_not_disturb (hc : c.Launched) {ms ms' : List Move}
    (hms : Along Allows c (ms ++ ms')) (habout : Along (fun c m => c.About k m) (c.run ms) ms')
    (h : k' ≠ k) :
    SameFor k' (c.run ms) ((c.run ms).run ms') ∧
      ∀ q : Request, q.key = k' → Along (BringsCopies q) c (ms ++ ms') →
        ((c.run ms).run ms').marks q.family = (c.run ms).marks q.family := by
  obtain ⟨hallows, hallows'⟩ := along_append.1 hms
  have hreach : (c.run ms).Reachable := (Reachable.launched hc).run hallows
  constructor
  · have hrun := (hallows'.and habout).preserves
      (I := fun c' => c'.Reachable ∧ SameFor k' (c.run ms) c')
      fun c' m hI hm => ⟨hI.1.after hm.1, hI.2.trans (sameFor_after_about hI.1 hm.2 h)⟩
    exact (hrun ⟨hreach, .refl _ k'⟩).2
  · rintro q rfl hcopies
    obtain ⟨hbefore, hbrings⟩ := along_append.1 hcopies
    have hrun := ((hallows'.and habout).and hbrings).preserves
      (I := fun c' => c'.Reachable ∧ c'.CopiesAgree q ∧
        c'.marks q.family = (c.run ms).marks q.family)
      fun c' m hI hm => ⟨hI.1.after hm.1.1, hI.2.1.after hm.2,
        (marks_after_about hI.1 hI.2.1 hm.2 hm.1.2 h).trans hI.2.2⟩
    exact (hrun ⟨hreach, copiesAgree_run hc hbefore, rfl⟩).2.2

/-- A request of another key. -/
def clingingSettings : Request := { clinging .returning with key := "settings", family := 1 }

/-- Reloads of two keys are in flight, and one of them has been taken up. -/
def bothReload : List Move :=
  [.setEntry "profile" old, .setEntry "settings" old, .tick (2 * Clock.second),
    .get (clinging .returning), .get clingingSettings, .start 0]

/-- The reload of the one key panics, and then the key is removed and registered. -/
def oneKeyOnly : List Move :=
  [.finish 0 (.panic "boom"), .remove "profile", .schedule (clinging .returning)]

/-- The other reload waits as it did. -/
theorem keys_do_not_disturb_oneKeyOnly :
    SameFor "settings" ((overMap (.byHand none)).run bothReload)
        (((overMap (.byHand none)).run bothReload).run oneKeyOnly) ∧
      (((overMap (.byHand none)).run bothReload).run oneKeyOnly).marks 1 =
        ((overMap (.byHand none)).run bothReload).marks 1 := by
  have hwell := clinging_wellFormed .returning
  have hsettings : clingingSettings.WellFormed :=
    ⟨by decide, hwell.min_le_hard, hwell.soft_le_hard, hwell.policy_ok⟩
  have hallows : Along Allows (overMap (.byHand none)) (bothReload ++ oneKeyOnly) :=
    ⟨built_old, built_old, trivial, hwell, hsettings, trivial, trivial, trivial, hwell, trivial⟩
  have habout : Along (fun c m => c.About "profile" m)
      ((overMap (.byHand none)).run bothReload) oneKeyOnly :=
    ⟨fun l hl => by cases hl; rfl, rfl, rfl, trivial⟩
  have hother : "settings" ≠ "profile" := by decide
  obtain ⟨hsame, hmarks⟩ :=
    keys_do_not_disturb (launched_overMap (.byHand none)) hallows habout hother
  refine ⟨hsame, hmarks clingingSettings rfl ?_⟩
  exact ⟨trivial, trivial, trivial, nofun, fun _ => rfl, trivial, trivial, trivial, nofun,
    trivial⟩

end Evergreen.Cache
