import Evergreen.Proofs.Lifetimes

/-!
# Lifetimes of what failed loads write back

A load that fails may write the value that it was handed back as a new entry. The copy is made
now, with the lifetimes of the request whose load has failed. The entry that it takes the place
of may have been given others: it was set for a time of its own, put there as it is, or made by a
load of another request for the key. And it need not be stale: a scan judges a request by its
mark, and hands its load whatever is there.

- `lifetimes_of_result?`: what a load writes has the lifetimes of its request;
- `CopiesOver.copy_eq`: so has a copy, but it is stale at once if the policy says so;
- `livesWithin_run`: a request that covers all that its key is given covers all that is kept;
- `write_back_degrades_iff`: when a copy ends, or becomes stale, before the entry it replaces;
- `write_backs_degrade`: runs in which it does.
-/

namespace Evergreen

namespace Entry

/-- A copy must not be served any more while the entry that it replaces could have been. -/
def EndsBefore (copy found : Entry) : Prop := copy.since + copy.hard < found.since + found.hard

/-- A copy replaces an entry that is not stale, and is stale before it would have been. -/
def AgesBefore (copy found : Entry) (now : Nat) : Prop :=
  found.softExpired now = false ∧ copy.since + copy.soft < found.since + found.soft

end Entry

/-- A request covers lifetimes that are no longer than its own. -/
def Request.Covers (r : Request) (hard soft : Nat) : Prop := hard ≤ r.hard ∧ soft ≤ r.soft

/-- What a move brings for the key of a request has no longer lifetimes than the request. -/
def Request.CoversMove (r : Request) : Move → Prop
  | .set k _ ttl => k = r.key → r.Covers ttl ttl
  | .setEntry k e => k = r.key → r.Covers e.hard e.soft
  | .get q | .schedule q => q.key = r.key → r.Covers q.hard q.soft
  | _ => True

namespace Cache

/-- A load fails and replaces the entry that is kept under its key with a copy of its stale
value. -/
structure CopiesOver (c : Cache) (l : Load) (f : Failure) (found copy : Entry) : Prop where
  underWay : c.load? l.id = some l
  kept : c.backing.kept? l.key = some found
  copied : carryOver? l c.now = some copy
  written : c.Writes l (.failure f) copy
  accepted : c.backing.verdict .set = .pass

/-- A request covers all that is kept under its key, and all requests for it. -/
structure LivesWithin (r : Request) (c : Cache) : Prop where
  kept : ∀ e, c.backing.kept? r.key = some e → r.Covers e.hard e.soft
  requests : ∀ q, c.HasRequest q → q.key = r.key → r.Covers q.hard q.soft

/-! ## The lifetimes of what loads write -/

section Copies

variable {c : Cache} {l : Load} {f : Failure} {found copy : Entry}

/-- A copy has the lifetimes of the request, or none in which it is fresh. -/
theorem carryOver?_eq_some_iff {now : Nat} : carryOver? l now = some copy ↔
    ∃ stale, l.stale = some stale ∧
      ((cell l).cache = .cacheExpired ∧ copy = stale.carriedOver now l.request.hard 0 ∨
        (cell l).cache = .cacheFresh ∧
          copy = stale.carriedOver now l.request.hard l.request.soft) := by
  rw [carryOver?, Option.bind_eq_some_iff]
  refine exists_congr fun stale => and_congr_right fun _ => ?_
  cases (cell l).cache <;> simp [eq_comm]

/-- **What a load writes** has the lifetimes of its request, though it may be stale at once. -/
theorem lifetimes_of_result? {now : Nat} {o : Outcome} {e : Entry}
    (h : result? l now o = some e) : e.hard = l.request.hard ∧ e.soft ≤ l.request.soft := by
  cases o with
  | value v cacheable =>
    simp only [result?] at h
    split at h
    · cases h
      exact ⟨rfl, Nat.le_refl _⟩
    · cases h
  | failure f =>
    obtain ⟨stale, -, ⟨-, rfl⟩ | ⟨-, rfl⟩⟩ := carryOver?_eq_some_iff.1 h
    · exact ⟨rfl, Nat.zero_le _⟩
    · exact ⟨rfl, Nat.le_refl _⟩
  | panic text => cases h

/-- A copy has the value that the load was handed, and is made now with the hard lifetime of the
request. -/
theorem CopiesOver.copy_eq (h : c.CopiesOver l f found copy) :
    (∃ stale, l.stale = some stale ∧ copy.value = stale.value) ∧ copy.carried = true ∧
      copy.since = c.now ∧ copy.hard = l.request.hard ∧
      ((cell l).cache = .cacheExpired ∧ copy.soft = 0 ∨
        (cell l).cache = .cacheFresh ∧ copy.soft = l.request.soft) := by
  obtain ⟨stale, hs, ⟨hcell, rfl⟩ | ⟨hcell, rfl⟩⟩ := carryOver?_eq_some_iff.1 h.copied
  · exact ⟨⟨stale, hs, rfl⟩, rfl, rfl, rfl, .inl ⟨hcell, rfl⟩⟩
  · exact ⟨⟨stale, hs, rfl⟩, rfl, rfl, rfl, .inr ⟨hcell, rfl⟩⟩

theorem CopiesOver.soft_eq_of_cacheFresh (h : c.CopiesOver l f found copy)
    (hcell : (cell l).cache = .cacheFresh) : copy.soft = l.request.soft := by
  obtain ⟨-, -, -, -, ⟨hcell', -⟩ | ⟨-, hsoft⟩⟩ := h.copy_eq
  · rw [hcell] at hcell'
    cases hcell'
  · exact hsoft

theorem CopiesOver.soft_eq_of_cacheExpired (h : c.CopiesOver l f found copy)
    (hcell : (cell l).cache = .cacheExpired) : copy.soft = 0 := by
  obtain ⟨-, -, -, -, ⟨-, hsoft⟩ | ⟨hcell', -⟩⟩ := h.copy_eq
  · exact hsoft
  · rw [hcell] at hcell'
    cases hcell'

/-! ## What a copy makes worse -/

theorem CopiesOver.endsBefore_iff (h : c.CopiesOver l f found copy) :
    copy.EndsBefore found ↔ c.now + l.request.hard < found.since + found.hard := by
  obtain ⟨-, -, hsince, hhard, -⟩ := h.copy_eq
  rw [Entry.EndsBefore, hsince, hhard]

/-- What ages before it is replaced by something that ages earlier still was not stale. -/
theorem CopiesOver.agesBefore_iff (h : c.CopiesOver l f found copy) :
    copy.AgesBefore found c.now ↔ c.now + copy.soft < found.since + found.soft := by
  obtain ⟨-, -, hsince, -⟩ := h.copy_eq
  rw [Entry.AgesBefore, hsince, Bool.eq_false_iff, Ne, Entry.softExpired_iff]
  omega

/-- A copy does not end earlier than an entry whose hard lifetime is no longer: that was made
before. -/
theorem CopiesOver.not_endsBefore (h : c.CopiesOver l f found copy) (hc : c.Punctual)
    (hle : found.hard ≤ l.request.hard) : ¬ copy.EndsBefore found := by
  have hsince := hc.kept l.key found h.kept
  rw [h.endsBefore_iff]
  omega

theorem CopiesOver.not_agesBefore (h : c.CopiesOver l f found copy) (hc : c.Punctual)
    (hcell : (cell l).cache = .cacheFresh) (hle : found.soft ≤ l.request.soft) :
    ¬ copy.AgesBefore found c.now := by
  have hsince := hc.kept l.key found h.kept
  rw [h.agesBefore_iff, h.soft_eq_of_cacheFresh hcell]
  omega

end Copies

/-! ## Requests that cover their key -/

section Within

variable {c : Cache} {r : Request} {m : Move} {ms : List Move}

/-- What a move puts under the key of a request that covers the rest lives no longer. -/
theorem LivesWithin.puts (h : LivesWithin r c) (hm : r.CoversMove m) {e : Entry}
    (hput : c.Puts r.key e m) : r.Covers e.hard e.soft := by
  cases hput with
  | set v ttl _ => exact hm rfl
  | setEntry e _ => exact hm rfl
  | ended l o e hl hk hr _ _ =>
    obtain ⟨hhard, hsoft⟩ := lifetimes_of_result? hr
    have hmem := List.mem_of_find?_eq_some hl
    obtain ⟨hle, hle'⟩ := h.requests l.request (.inHand (.inr ⟨l, hmem, rfl⟩)) hk
    exact ⟨hhard ▸ hle, Nat.le_trans hsoft hle'⟩

theorem LivesWithin.after (h : LivesWithin r c) (hm : r.CoversMove m) :
    LivesWithin r (c.after m) := by
  constructor
  · intro e he
    rcases kept?_after_from he with he | hput
    · exact h.kept e he
    · exact h.puts hm hput
  · intro q hq hk
    rcases hq.of_after with hq | rfl | rfl
    · exact h.requests q hq hk
    · exact hm hk
    · exact hm hk

/-- **A request that covers all that its key is given** covers all that is kept there. -/
theorem livesWithin_run (h : LivesWithin r c) (hms : ∀ m ∈ ms, r.CoversMove m) :
    LivesWithin r (c.run ms) := by
  induction ms generalizing c with
  | nil => exact h
  | cons m ms ih =>
    exact ih (h.after (hms m (.head _))) fun m' hm' => hms m' (.tail _ hm')

theorem livesWithin_of_launched (hc : c.Launched)
    (hkept : ∀ e, c.backing.kept? r.key = some e → r.Covers e.hard e.soft) :
    LivesWithin r c := by
  obtain ⟨⟨b, now, hb⟩, -⟩ := hc
  exact ⟨hkept, fun q hq => absurd hq (not_hasRequest_of_build hb)⟩

end Within

/-- **When a failed load makes worse what is kept.** In a cache that can be reached, let a load
fail and replace what is kept under its key with a copy of its stale value.

1. The copy is made now, and lives as long as the request says; it is stale at once, or as late
   as the request says, by the cell of the policy;
2. so a copy written back as fresh ends before the entry it replaces exactly if the hard lifetime
   of the request, counted from now, does, and becomes stale before it exactly if the soft one
   does;
3. a copy written back as expired becomes stale before the entry exactly if that still had time
   in which it was fresh;
4. no copy ends before an entry whose hard lifetime is no longer than the request's, and none
   that is written back as fresh becomes stale before one whose soft lifetime is no longer;
5. so it is throughout a run in which the key is given nothing that lives longer than the request
   says, by sets, ready-made entries or other requests for the key. -/
theorem write_back_degrades_iff {c : Cache} (hc : c.Reachable) {l : Load} {f : Failure}
    {found copy : Entry} (h : c.CopiesOver l f found copy) :
    ((∃ stale, l.stale = some stale ∧ copy.value = stale.value) ∧ copy.carried = true ∧
      copy.since = c.now ∧ copy.hard = l.request.hard ∧
      ((cell l).cache = .cacheExpired ∧ copy.soft = 0 ∨
        (cell l).cache = .cacheFresh ∧ copy.soft = l.request.soft)) ∧
    ((cell l).cache = .cacheFresh →
      (copy.EndsBefore found ↔ c.now + l.request.hard < found.since + found.hard) ∧
      (copy.AgesBefore found c.now ↔ c.now + l.request.soft < found.since + found.soft)) ∧
    ((cell l).cache = .cacheExpired →
      (copy.AgesBefore found c.now ↔ c.now < found.since + found.soft)) ∧
    ((found.hard ≤ l.request.hard → ¬ copy.EndsBefore found) ∧
      ((cell l).cache = .cacheFresh → found.soft ≤ l.request.soft →
        ¬ copy.AgesBefore found c.now)) ∧
    (∀ (c₀ : Cache) ms, c₀.Launched → c₀.run ms = c →
      (∀ e, c₀.backing.kept? l.key = some e → l.request.Covers e.hard e.soft) →
      (∀ m ∈ ms, l.request.CoversMove m) →
      ¬ copy.EndsBefore found ∧
        ((cell l).cache = .cacheFresh → ¬ copy.AgesBefore found c.now)) := by
  have hpunctual := punctual_of_reachable hc
  refine ⟨h.copy_eq, fun hcell => ⟨h.endsBefore_iff, ?_⟩, fun hcell => ?_,
    ⟨h.not_endsBefore hpunctual, h.not_agesBefore hpunctual⟩, ?_⟩
  · rw [h.agesBefore_iff, h.soft_eq_of_cacheFresh hcell]
  · rw [h.agesBefore_iff, h.soft_eq_of_cacheExpired hcell, Nat.add_zero]
  · rintro c₀ ms hc₀ rfl hkept hms
    have hwithin := livesWithin_run (livesWithin_of_launched hc₀ hkept) hms
    obtain ⟨hhard, hsoft⟩ := hwithin.kept found h.kept
    exact ⟨h.not_endsBefore hpunctual hhard, fun hcell => h.not_agesBefore hpunctual hcell hsoft⟩

/-- The failed reload of the old entry lengthens its life: the request covers all that its key
was given. -/
theorem write_back_degrades_iff_queueReload :
    ¬ (old.carriedOver (2 * Clock.second) (10 * Clock.second) 0).EndsBefore old := by
  have hc : ((overMap (.byHand none)).run (queueReload ++ [.start 0])).Reachable :=
    (reachable_overMap _).run (along_append.2 ⟨allows_queueReload, trivial, trivial⟩)
  have h : ((overMap (.byHand none)).run (queueReload ++ [.start 0])).CopiesOver
      (reload (2 * Clock.second)) ⟨"down", []⟩ old
      (old.carriedOver (2 * Clock.second) (10 * Clock.second) 0) :=
    ⟨rfl, rfl, rfl, ⟨rfl, fun _ => rfl⟩, rfl⟩
  obtain ⟨-, -, -, -, hrun⟩ := write_back_degrades_iff hc h
  refine (hrun _ _ (launched_overMap _) rfl nofun ?_).1
  intro m hm
  simp only [queueReload, List.mem_append, List.mem_cons, List.not_mem_nil, or_false] at hm
  rcases hm with (rfl | rfl | rfl) | rfl
  · exact fun _ => ⟨by decide, by decide⟩
  · trivial
  · exact fun _ => ⟨by decide, by decide⟩
  · trivial

/-- A request that lives shortly, and has its stale value written back as fresh. -/
def shortLived : Request :=
  { profile with
    hard := 2 * Clock.second
    mode := .block
    policy := { syncExpired := ⟨.none, .returnStale, .cacheFresh⟩ } }

theorem shortLived_wellFormed : shortLived.WellFormed :=
  ⟨by decide, by decide, by decide, rfl⟩

/-- A get of the short-lived request finds the old entry stale. -/
def replacesLonger : List Move :=
  [.setEntry "profile" old, .tick (2 * Clock.second), .get shortLived]

/-- A scan hands the load of a request a value that was set for five seconds. -/
def replacesFresh : List Move :=
  [.schedule (clinging .scheduled), .set "profile" "new" (5 * Clock.second),
    .tick minPollInterval, .beginScan, .visit (clinging .scheduled), .start 0]

/-- **A failed load can make worse what is kept.** A copy that is written back as fresh may end
before an entry that was put there for longer, and one that is written back as expired replaces
a value that was still fresh. -/
theorem write_backs_degrade :
    (¬ ∀ (c : Cache) (l : Load) (f : Failure) (found copy : Entry), c.Reachable →
      (cell l).cache = .cacheFresh → c.CopiesOver l f found copy → ¬ copy.EndsBefore found) ∧
    (¬ ∀ (c : Cache) (l : Load) (f : Failure) (found copy : Entry), c.Reachable →
      (cell l).cache = .cacheExpired → c.CopiesOver l f found copy →
        ¬ copy.AgesBefore found c.now) := by
  constructor
  · intro h
    have hc : ((overMap .threads).run replacesLonger).Reachable :=
      (reachable_overMap _).run ⟨built_old, trivial, shortLived_wellFormed, trivial⟩
    refine h _ ⟨0, shortLived, some old, .caller, 2 * Clock.second⟩ ⟨"down", []⟩ old
      (old.carriedOver (2 * Clock.second) (2 * Clock.second) Clock.second) hc rfl
      ⟨rfl, rfl, rfl, ⟨rfl, fun _ => rfl⟩, rfl⟩ ?_
    unfold Entry.EndsBefore
    decide
  · intro h
    have hc : ((overMap (.byHand none)).run replacesFresh).Reachable :=
      (reachable_overMap _).run ⟨clinging_wellFormed _, trivial, trivial, trivial, trivial,
        trivial, trivial⟩
    let fresh := Entry.stamped 0 "new" (5 * Clock.second) (5 * Clock.second)
    refine h _ ⟨0, clinging .scheduled, some fresh, .worker, minPollInterval⟩ ⟨"down", []⟩ fresh
      (fresh.carriedOver minPollInterval (10 * Clock.second) 0) hc rfl
      ⟨rfl, rfl, rfl, ⟨rfl, fun _ => rfl⟩, rfl⟩ ?_
    exact ⟨by decide, by decide⟩

end Cache

end Evergreen
