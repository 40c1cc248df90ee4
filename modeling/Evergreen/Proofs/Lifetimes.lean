import Evergreen.Proofs.BackingSteps
import Evergreen.Proofs.CarryOvers
import Evergreen.Proofs.PollerSteps
import Evergreen.Proofs.Times

/-!
# Lifetimes that fit together

Lifetimes, keys and policies are checked when a request is built or an entry is given to the
cache, and never again: a load that ends stamps an entry with the lifetimes of its request, and
one that writes a stale value back makes a new entry of an old one. This module shows that nothing
is lost by that. `Sane` says that all entries and all requests in a cache are as their
constructors would have them.

- `Request.exists_build_iff`: what the constructor of requests guarantees, and no more;
- `built_of_result?`: what a load stamps is as the constructor of entries would have it;
- `Sane.after`: so it is of all that there is, after any move;
- `stage_le_of_le`: an entry whose lifetimes fit together becomes stale before it is missing;
- `lifetimes_fit`: these together, for every cache that can be reached.
-/

namespace Evergreen

/-! ## Requests -/

/-- What a request must satisfy, in full: its key has a character that is not a space, its
lifetimes fit together, and where nothing is stale its policy does not ask for a stale value. -/
theorem Request.wellFormed_iff {r : Request} : r.WellFormed ↔
    (∃ char ∈ r.key.toList, Text.isSpace char = false) ∧ minHardTtl ≤ r.hard ∧ r.soft ≤ r.hard ∧
      ∀ i, (r.policy.select i false).fallback ≠ .returnStale := by
  rw [← Text.isBlank_eq_false_iff, ← Policy.check_eq_ok_iff]
  exact ⟨fun h => ⟨h.key_ne_blank, h.min_le_hard, h.soft_le_hard, h.policy_ok⟩,
    fun ⟨hkey, hmin, hsoft, hpolicy⟩ => ⟨hkey, hmin, hsoft, hpolicy⟩⟩

/-- The requests that can be built are the well-formed ones. -/
theorem Request.exists_build_iff {r : Request} :
    (∃ (d : Draft) (family : Nat), d.build family = .ok r) ↔ r.WellFormed := by
  constructor
  · rintro ⟨d, family, h⟩
    exact (Draft.build_eq_ok_iff.1 h).2
  · intro h
    refine ⟨⟨r.key, r.hard, r.soft, r.mode, r.policy⟩, r.family, ?_⟩
    exact Draft.build_eq_ok_iff.2 ⟨rfl, h⟩

/-! ## Entries -/

/-- How far an entry has come: from fresh over stale to missing. -/
def Freshness.stage : Freshness → Nat
  | fresh => 0
  | stale => 1
  | miss => 2

namespace Entry

variable {e : Entry} {now : Nat}

/-- What was made by now was made by later. -/
theorem Built.mono (h : e.Built now) {later : Nat} (hle : now ≤ later) : e.Built later where
  since_le_now := Nat.le_trans h.since_le_now hle
  min_le_hard := h.min_le_hard
  soft_le_hard := h.soft_le_hard

/-- What the constructor makes now was made by now, with lifetimes that fit together. -/
theorem built_of_create {value : Value} {hard soft : Nat}
    (h : create now value hard soft = .ok e) : e.Built now := by
  obtain ⟨rfl, hmin, hsoft⟩ := create_eq_ok_iff.1 h
  exact ⟨Nat.le_refl _, hmin, hsoft⟩

/-- What is past its hard lifetime wants a refresh. -/
theorem softExpired_of_hardExpired (h : e.soft ≤ e.hard) (he : e.hardExpired now = true) :
    e.softExpired now = true := by
  rw [hardExpired_iff] at he
  rw [softExpired_iff]
  omega

/-- **An entry becomes stale before it is missing,** and what it has become it stays. -/
theorem stage_le_of_le {later : Nat} (hle : now ≤ later) :
    (Freshness.of (some e) now).stage ≤ (Freshness.of (some e) later).stage := by
  have hsoft : e.softExpired now = true → e.softExpired later = true := by
    simp only [softExpired_iff]
    omega
  have hhard : e.hardExpired now = true → e.hardExpired later = true := by
    simp only [hardExpired_iff]
    omega
  unfold Freshness.of
  dsimp only
  split
  · rw [hhard ‹_›]
    exact Nat.le_refl _
  · split
    · rw [hsoft ‹_›]
      split <;> decide
    · exact Nat.zero_le _

end Entry

namespace Cache

/-! ## What there is -/

/-- An entry is kept in the store, or was handed to a task that waits or a load under way. -/
inductive HasEntry (c : Cache) (e : Entry) : Prop
  | kept (k : Key) (h : c.backing.kept? k = some e)
  | waiting (task : Reload) (ht : task ∈ c.crew.waiting) (h : task.stale = some e)
  | handed (l : Load) (hl : l ∈ c.loads) (h : l.stale = some e)

/-- A task waits or a load is under way for a request, it is registered, or a scan has it left to
visit. -/
inductive HasRequest (c : Cache) (r : Request) : Prop
  | inHand (h : c.InHand r)
  | registered (k : Key) (h : c.poller.registry.request? k = some r)
  | left (h : r ∈ c.scanLeft)

/-- All entries and requests are as their constructors would have them. -/
structure Sane (c : Cache) : Prop where
  entries : ∀ e, c.HasEntry e → e.Built c.now
  requests : ∀ r, c.HasRequest r → r.WellFormed

section Steps

variable {c : Cache} {m : Move} {k : Key} {e : Entry} {l : Load} {r : Request}

/-- **What a load stamps** is as the constructor of entries would have it, though it is not
asked. -/
theorem built_of_result? (hl : l.request.WellFormed) {now : Nat} {o : Outcome}
    (h : result? l now o = some e) : e.Built now := by
  have hmin := hl.min_le_hard
  have hsoft := hl.soft_le_hard
  cases o with
  | value v cacheable =>
    simp only [result?] at h
    split at h
    · cases h
      exact ⟨Nat.le_refl _, hmin, hsoft⟩
    · cases h
  | failure f =>
    simp only [result?, carryOver?, Option.bind_eq_some_iff] at h
    obtain ⟨stale, -, h⟩ := h
    split at h
    · cases h
    · cases h
      exact ⟨Nat.le_refl _, hmin, Nat.zero_le _⟩
    · cases h
      exact ⟨Nat.le_refl _, hmin, hsoft⟩
  | panic text => cases h

/-- A value is set only if an entry can be made of it. -/
theorem create_of_set {v : Value} {ttl : Nat} {accepted : Bool}
    (h : (c.set k v ttl).1 = .ok accepted) :
    Entry.create c.now v ttl ttl = .ok (Entry.stamped c.now v ttl ttl) := by
  unfold Cache.set at h
  cases hcreate : Entry.create c.now v ttl ttl with
  | error fault =>
    rw [hcreate] at h
    cases hk : checkKey k <;> rw [hk] at h <;> cases h
  | ok e => rw [(Entry.create_eq_ok_iff.1 hcreate).1]

/-- Whatever a move puts in the store is as the constructor of entries would have it. -/
theorem Puts.built (h : c.Puts k e m) (hc : c.Sane) (hm : c.Allows m) : e.Built c.now := by
  cases h with
  | set v ttl h =>
    exact Entry.built_of_create (create_of_set h)
  | setEntry e _ => exact hm
  | ended l o e hl _ hr _ _ =>
    have hmem := List.mem_of_find?_eq_some hl
    exact built_of_result? (hc.requests _ (.inHand (.inr ⟨l, hmem, rfl⟩))) hr

/-- Whatever an entry is kept or handed over as after a move, it was there before, or the move has
put it in the store. -/
theorem HasEntry.of_after (h : (c.after m).HasEntry e) : c.HasEntry e ∨ ∃ k, c.Puts k e m := by
  have hfound : ∀ {k}, c.finds k = some e → c.HasEntry e :=
    fun he => .kept _ (kept?_of_finds he)
  cases h with
  | kept k h => exact (kept?_after_from h).imp (.kept k) fun hput => ⟨k, hput⟩
  | waiting task ht h =>
    rcases mem_waiting_after ht with ht | found
    · exact .inl (.waiting task ht h)
    · exact .inl (hfound (found e h))
  | handed l hl h =>
    rcases mem_loads_after hl with hl | ⟨-, -, hhanded⟩
    · exact .inl (.handed l hl h)
    · cases hhanded with
      | looked _ found => exact .inl (hfound (found e h))
      | waited _ task ht _ hs => exact .inl (.waiting task ht (hs.trans h))

/-- Whatever a request is there for after a move, it was there before, or was got or left to the
poller just then. -/
theorem HasRequest.of_after (h : (c.after m).HasRequest r) :
    c.HasRequest r ∨ m = .get r ∨ m = .schedule r := by
  have hp := c.pollerStep_after m
  cases h with
  | inHand h =>
    rcases inHand_after h with h | hm | ⟨-, hv⟩
    · exact .inl (.inHand h)
    · exact .inr (.inl hm)
    · exact .inl (.left (mem_scanLeft_of_canVisit hv))
  | registered k h =>
    rcases hp.request?_eq_some h with h | ⟨-, hm⟩
    · exact .inl (.registered k h)
    · exact .inr hm
  | left h =>
    rw [scanLeft_eq] at h
    rcases hp.mem_left h with h | ⟨k, h⟩
    · exact .inl (.left h)
    · exact .inl (.registered k h)

/-- **What is as the constructors would have it stays so** after every allowed move. -/
theorem Sane.after (h : c.Sane) (hm : c.Allows m) : (c.after m).Sane := by
  constructor
  · intro e he
    rcases he.of_after with he | ⟨k, hput⟩
    · exact (h.entries e he).mono (c.now_le_after m)
    · exact (hput.built h hm).mono (c.now_le_after m)
  · intro r hr
    rcases hr.of_after with hr | rfl | rfl
    · exact h.requests r hr
    · exact hm
    · exact hm

/-- A cache that was just built has nothing to do with any request. -/
theorem not_hasRequest_of_build {b : Blueprint} {now : Nat} (hb : b.build now = .ok c) :
    ¬ c.HasRequest r := by
  obtain ⟨hwaiting, hloads⟩ := tasks_of_build hb
  have hpoller := poller_of_build hb
  intro hr
  cases hr with
  | inHand h => simp [InHand, hwaiting, hloads] at h
  | registered k h =>
    rw [hpoller] at h
    cases h
  | left h =>
    rw [scanLeft_eq, hpoller] at h
    cases h

theorem sane_of_launched (hc : c.Launched) : c.Sane := by
  obtain ⟨⟨b, now, hb⟩, hkept⟩ := hc
  obtain ⟨hwaiting, hloads⟩ := tasks_of_build hb
  constructor
  · intro e he
    cases he with
    | kept k h => exact hkept k e h
    | waiting task ht _ => simp [hwaiting] at ht
    | handed l hl _ => simp [hloads] at hl
  · exact fun r hr => absurd hr (not_hasRequest_of_build hb)

theorem sane_of_reachable (hc : c.Reachable) : c.Sane := by
  induction hc with
  | launched h => exact sane_of_launched h
  | after _ hm ih => exact ih.after hm

end Steps

/-- **Lifetimes fit together, wherever they are.** In every cache that can be reached:

1. every entry that is kept, or was handed to a task or a load, was made by now, with a hard
   lifetime of at least a millisecond and a soft one within it;
2. so it wants a refresh whenever it must not be served, and as the clock goes on it comes from
   fresh over stale to missing and never back;
3. every request that a task, a load, the registry or a scan has, and every request that can be
   built at all, has a key with a character that is not a space, a hard lifetime of at least a
   millisecond and a soft one within it, and a policy that asks for no stale value where there is
   none;
4. so no load that was handed nothing falls back on a stale value. -/
theorem lifetimes_fit {c : Cache} (hc : c.Reachable) :
    (∀ e, c.HasEntry e → e.since ≤ c.now ∧ minHardTtl ≤ e.hard ∧ e.soft ≤ e.hard) ∧
    (∀ e, c.HasEntry e → ∀ now, (e.hardExpired now = true → e.softExpired now = true) ∧
      ∀ later, now ≤ later →
        (Freshness.of (some e) now).stage ≤ (Freshness.of (some e) later).stage) ∧
    (∀ r, (c.HasRequest r ∨ ∃ (d : Draft) (family : Nat), d.build family = .ok r) →
      (∃ char ∈ r.key.toList, Text.isSpace char = false) ∧ minHardTtl ≤ r.hard ∧
        r.soft ≤ r.hard ∧ ∀ i, (r.policy.select i false).fallback ≠ .returnStale) ∧
    (∀ l ∈ c.loads, l.stale = none → (cell l).fallback ≠ .returnStale) := by
  have hsane := sane_of_reachable hc
  refine ⟨?_, ?_, ?_, ?_⟩
  · intro e he
    have hbuilt := hsane.entries e he
    exact ⟨hbuilt.since_le_now, hbuilt.min_le_hard, hbuilt.soft_le_hard⟩
  · intro e he now
    exact ⟨Entry.softExpired_of_hardExpired (hsane.entries e he).soft_le_hard,
      fun later => Entry.stage_le_of_le⟩
  · rintro r (hr | hr)
    · exact Request.wellFormed_iff.1 (hsane.requests r hr)
    · exact Request.wellFormed_iff.1 (Request.exists_build_iff.1 hr)
  · intro l hl hs
    have hwell := hsane.requests l.request (.inHand (.inr ⟨l, hl, rfl⟩))
    obtain ⟨-, -, -, hpolicy⟩ := Request.wellFormed_iff.1 hwell
    unfold cell
    rw [hs]
    exact hpolicy l.invocation

/-- A failed reload has carried the old entry over, and what it has written waits to be reloaded in
turn. -/
def reloadAgain : List Move :=
  failedReload ++ [.tick (3 * Clock.second), .get (clinging .returning)]

/-- The entry that waits was made without a check, and has lifetimes that fit together. -/
theorem lifetimes_fit_reloadAgain :
    (Freshness.of (some (old.carriedOver (2 * Clock.second) (10 * Clock.second) 0))
        (3 * Clock.second)).stage = 1 ∧
      ∀ later, 3 * Clock.second ≤ later → 1 ≤
        (Freshness.of (some (old.carriedOver (2 * Clock.second) (10 * Clock.second) 0))
          later).stage := by
  have hc : ((overMap (.byHand none)).run reloadAgain).Reachable :=
    (reachable_overMap _).run
      (along_append.2 ⟨allows_failedReload, trivial, clinging_wellFormed _, trivial⟩)
  obtain ⟨-, hmoves, -⟩ := lifetimes_fit hc
  have hwaits : ((overMap (.byHand none)).run reloadAgain).HasEntry
      (old.carriedOver (2 * Clock.second) (10 * Clock.second) 0) :=
    .waiting _ (List.mem_singleton_self _) rfl
  exact ⟨rfl, (hmoves _ hwaits (3 * Clock.second)).2⟩

end Cache

end Evergreen
