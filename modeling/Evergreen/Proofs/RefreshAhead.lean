import Evergreen.Proofs.ModeTable
import Evergreen.Proofs.Upkeep

/-!
# Refresh ahead

The poller reloads a request at the first scan after its soft lifetime is over, and scans are an
interval apart. So what is kept for the request never gets older than the two together, and if
that is within its hard lifetime, nobody who gets it ever goes away empty-handed.

Two clocks are at work: the mark says when the request was last refreshed, and the entry when it
was made. They agree except at reading zero, where the mark says one, because zero stands for
never; there the entry may get a nanosecond older.

- `Paced`: how the mark stands to the clock and the poller;
- `Upheld`: how the mark stands to what is kept;
- `Watched`, `Watched.after`: both, along every run in which nothing is in the poller's way;
- `refresh_ahead`: the bound on the age, and that gets are answered;
- `refresh_falls_behind`: what it takes.
-/

namespace Evergreen

/-- The soft lifetime of a request and the interval of the poller are over before its hard
lifetime is; also where it was made at reading zero, if it can have been when it was registered at
`c₁` and last refreshed at `t`. -/
def Request.Outlasts (r : Request) (c₁ : Cache) (t : Nat) : Prop :=
  r.soft + c₁.poller.interval < r.hard ∧
    (0 < c₁.now ∨ 1 < t ∨ r.soft + c₁.poller.interval + 1 < r.hard)

namespace Cache

section Invariant

variable {r : Request} {c c₁ : Cache} {m : Move} {t : Nat}

/-! ## The mark and the poller -/

/-- A request that was last refreshed at `t` is reloaded in time: by the next scan, unless this
one is at it. -/
structure Paced (r : Request) (c : Cache) (t : Nat) : Prop where
  recent : c.now ≤ t + r.soft + c.poller.interval
  waits : ∀ d, c.poller.phase = .waiting d →
    d ≤ t + r.soft + c.poller.interval ∨ c.Outstanding r
  scans : ∀ due, c.poller.phase = .scanning due → c.now ≤ t + r.soft ∨ c.Outstanding r

/-- A request that was refreshed just now. -/
theorem paced_of_now_le (h : Tended r c) (ht : c.now ≤ t) : Paced r c t where
  recent := by omega
  waits d hd := by
    have hot := h.onTime
    unfold OnTime at hot
    rw [hd] at hot
    dsimp only at hot
    omega
  scans due _ := by omega

/-- The clock reaches no reading that is too late: the poller would have to be late itself. -/
theorem Paced.recent_tick (h : Paced r c t) (ht : Tended r c)
    (hreg : c.poller.registry.request? r.key = some r) {now : Nat} (hn : now < Clock.lap)
    (hrest : r.key ∉ c.taskKeys) (hp : c.poller.Permits now) :
    max c.now now ≤ t + r.soft + c.poller.interval := by
  have hrecent := h.recent
  have hot := ht.onTime
  unfold OnTime at hot
  unfold Poller.Permits at hp
  cases hphase : c.poller.phase with
  | unstarted => exact absurd hphase (ht.onTime.started hreg)
  | waiting d =>
    rw [hphase] at hp
    dsimp only at hp
    rcases h.waits d hphase with hd | hd | hd
    · omega
    · simp [scanLeft, hphase] at hd
    · exact absurd hd hrest
  | scanning due =>
    rw [hphase] at hp
    exact hp.elim
  | crashed =>
    -- there is no lap without a reading, and the interval is at least one
    rw [hphase] at hot
    dsimp only at hot
    omega
  | finished =>
    rw [hphase] at hot
    exact hot.elim

/-- A scan that ends leaves a poller that waits in time, as all that was due was seen to. -/
theorem Paced.waits_after (h : Paced r c t) (hround : Round c (c.after m).poller.phase)
    (hstays : c.Outstanding r → (c.after m).Outstanding r) {d : Nat}
    (hd : (c.after m).poller.phase = .waiting d) :
    d ≤ t + r.soft + c.poller.interval ∨ (c.after m).Outstanding r := by
  generalize (c.after m).poller.phase = phase at hround hd
  cases hround with
  | same => exact (h.waits d hd).imp_right hstays
  | began => cases hd
  | visited => cases hd
  | ended scans =>
    have := Poller.eq_of_await_waiting hd
    rcases h.scans [] scans with hr | hr
    · exact .inl (by omega)
    · exact .inr (hstays hr)

/-- A scan that begins is at the request, unless the request is not due. -/
theorem Paced.scans_after (h : Paced r c t) (hround : Round c (c.after m).poller.phase)
    (hstays : c.Outstanding r → (c.after m).Outstanding r)
    (hreg : c.poller.registry.request? r.key = some r) (hmark : c.marks r.family = some t)
    {due : List Request} (hdue : (c.after m).poller.phase = .scanning due) :
    c.now ≤ t + r.soft ∨ (c.after m).Outstanding r := by
  have hleft : (c.after m).scanLeft = (c.after m).poller.phase.left := scanLeft_eq _
  generalize (c.after m).poller.phase = phase at hleft hround hdue
  cases hround with
  | same => exact (h.scans due hdue).imp_right hstays
  | began d waits =>
    by_cases hd : c.isDue r = true
    · refine .inr (.inl ?_)
      rw [hleft]
      exact mem_dueRequests_iff.2 ⟨⟨r.key, hreg⟩, hd⟩
    · rw [isDue, hmark, Request.due, decide_eq_true_eq] at hd
      exact .inl (by omega)
  | visited q scans => exact (h.scans _ scans).imp_right hstays
  | ended scans => exact absurd hdue (c.poller.await_ne_scanning c.now due)

/-- A prompt move leaves a reload on its way, as long as its task is not lost. -/
theorem Paced.after (h : Paced r c t) (ht : Tended r c)
    (hreg : c.poller.registry.request? r.key = some r) (hmark : c.marks r.family = some t)
    (hm : Prompt r c m) (ho : Obliges r.key c m)
    (tasks : r.key ∈ c.taskKeys → r.key ∈ (c.after m).taskKeys) : Paced r (c.after m) t := by
  have hi : (c.after m).poller.interval = c.poller.interval :=
    (c.pollerStep_after m).interval_eq
  have hround := round_after ht hm ho hreg
  have hstays : c.Outstanding r → (c.after m).Outstanding r :=
    fun hr => hr.after ht hm ho tasks
  constructor
  · rw [hi]
    rcases c.now_after_eq_or m with hn | ⟨now, rfl⟩
    · rw [hn]
      exact h.recent
    · exact h.recent_tick ht hreg hm.1 hm.2.1.1 hm.2.2
  · intro d hd
    rw [hi]
    exact h.waits_after hround hstays hd
  · intro due hdue
    rcases c.now_after_eq_or m with hn | ⟨now, rfl⟩
    · rw [hn]
      exact h.scans_after hround hstays hreg hmark hdue
    · -- a scan takes no time
      have hp := hm.2.2
      unfold Poller.Permits at hp
      rw [show c.poller.phase = .scanning due from hdue] at hp
      exact hp.elim

/-! ## The mark and what is kept -/

/-- What is kept for a request was made when it was last refreshed, and after `c₁`; and there is
something, unless it is let go of before the poller can come round. -/
structure Upheld (r : Request) (c₁ c : Cache) (t : Nat) : Prop where
  one_le : 1 ≤ t
  dated : ∀ e, c.backing.kept? r.key = some e →
    t = max 1 e.since ∧ e.hard = r.hard ∧ c₁.now ≤ e.since
  lasts : c.backing.Lasts r.key
  alive : r.Outlasts c₁ t → c.backing.kept? r.key ≠ none

/-- What is upheld can be served. -/
theorem Upheld.finds (h : Upheld r c₁ c t) (hp : Paced r c t)
    (hi : c.poller.interval = c₁.poller.interval) (ho : r.Outlasts c₁ t) :
    ∃ e, c.backing.kept? r.key = some e ∧ c.finds r.key = some e := by
  obtain ⟨e, he⟩ := Option.ne_none_iff_exists'.1 (h.alive ho)
  obtain ⟨ht, hh, hlater⟩ := h.dated e he
  have hrecent := hp.recent
  have hn : c.now < e.since + e.hard := by
    obtain ⟨hlong, hzero⟩ := ho
    omega
  have hfind : c.backing.store.find? c.now r.key = some e := Store.find?_of_lasts h.lasts he hn
  have hexp : e.hardExpired c.now = false := by
    rw [Bool.eq_false_iff, Ne, Entry.hardExpired_iff]
    omega
  exact ⟨e, he, finds_eq_some_iff.2 ⟨hfind, hexp⟩⟩

/-- A value that is upheld stays there, or is dropped once it is dead. -/
theorem Upheld.after (h : Upheld r c₁ c t) (hp : Paced r c t) (ht : Tended r c)
    (hi : c.poller.interval = c₁.poller.interval) (hm : Prompt r c m)
    (hk : (c.after m).backing.kept? r.key = c.backing.kept? r.key ∨
      ¬ c.Live r.key ∧ (c.after m).backing.kept? r.key = none) : Upheld r c₁ (c.after m) t where
  one_le := h.one_le
  dated e he := by
    rcases hk with hk | ⟨-, hk⟩
    · rw [hk] at he
      exact h.dated e he
    · rw [hk] at he
      cases he
  lasts := lasts_after h.lasts hm.allows ht.inTime
  alive ho := by
    rcases hk with hk | ⟨hlive, -⟩
    · rw [hk]
      exact h.alive ho
    · -- what can be served is not let go of
      obtain ⟨e, he, hf⟩ := h.finds hp hi ho
      exact absurd (hf.trans he.symm) hlive

/-! ## Both along a run -/

/-- A request that was registered, and not yet loaded, at `c₁` is in the poller's care: it was
refreshed in time, or its first reload is still to come after the first scan. -/
structure Watched (r : Request) (c₁ c : Cache) : Prop where
  tended : Tended r c
  interval : c.poller.interval = c₁.poller.interval
  later : c₁.now ≤ c.now
  registered : c.poller.registry.request? r.key = some r
  unmarked : c₁.poller.registry.scans < c.poller.registry.scans →
    c.marks r.family = none → c.Outstanding r
  marked : ∀ t, c.marks r.family = some t → Paced r c t ∧ Upheld r c₁ c t

/-- A request that was never refreshed is in the poller's care as soon as it is registered. -/
theorem watched_of_registered (h : Tended r c) (hr : c.poller.registry.request? r.key = some r)
    (hmark : c.marks r.family = none) : Watched r c c where
  tended := h
  interval := rfl
  later := Nat.le_refl _
  registered := hr
  unmarked hlt := absurd hlt (Nat.lt_irrefl _)
  marked t ht := by
    rw [hmark] at ht
    cases ht

/-- A request stays registered: nobody else has its key. -/
theorem registered_after (hr : c.poller.registry.request? r.key = some r) (hm : Prompt r c m) :
    (c.after m).poller.registry.request? r.key = some r := by
  rcases (c.pollerStep_after m).request?_stays hr with hr | rfl | ⟨q, hk, rfl | rfl, hq⟩
  · exact hr
  · exact absurd rfl hm
  · rw [hq, hm.2.eq_of_key hk]
  · rw [hq, hm.2.eq_of_key hk]

/-- **The poller's care goes on.** -/
theorem Watched.after (h : Watched r c₁ c) (hm : Prompt r c m) (ho : Obliges r.key c m) :
    Watched r c₁ (c.after m) := by
  have ht := h.tended.after hm ho
  have hr := registered_after h.registered hm
  have hi := (c.pollerStep_after m).interval_eq.trans h.interval
  have hn := Nat.le_trans h.later (c.now_le_after m)
  cases upkeep_after h.tended hm with
  | loaded v now poller mark kept lasts =>
    refine ⟨ht, hi, hn, hr, fun _ hnone => ?_, fun t hmark => ?_⟩
    · rw [mark] at hnone
      cases hnone
    · rw [mark] at hmark
      cases hmark
      refine ⟨paced_of_now_le ht (by omega), ⟨by omega, fun e he => ?_, lasts, fun _ => ?_⟩⟩
      · rw [kept] at he
        cases he
        exact ⟨rfl, rfl, h.later⟩
      · rw [kept]
        nofun
  | idle mark kept tasks =>
    refine ⟨ht, hi, hn, hr, fun hlt hnone => ?_, fun t hmark => ?_⟩
    · rw [mark] at hnone
      rcases (c.pollerStep_after m).scans_eq_or with hs | hs
      · rw [hs] at hlt
        exact (h.unmarked hlt hnone).after h.tended hm ho tasks
      · -- what was never refreshed is due when a scan begins
        refine .inl ?_
        rw [scanLeft_eq, hs]
        refine mem_dueRequests_iff.2 ⟨⟨r.key, h.registered⟩, ?_⟩
        rw [isDue, hnone]
        rfl
    · rw [mark] at hmark
      obtain ⟨hp, hu⟩ := h.marked t hmark
      exact ⟨hp.after h.tended h.registered hmark hm ho tasks,
        hu.after hp h.tended h.interval hm kept⟩

/-- What is kept for a request is no older than `lag`. If that is within its hard lifetime, whoever
gets the request finds something, and is answered with a value if its loader has one. -/
structure KeptFresh (c : Cache) (r : Request) (lag : Nat) : Prop where
  age_le : ∀ e, c.backing.kept? r.key = some e → e.age c.now ≤ lag
  found : lag < r.hard → ∃ e, c.yields r.key = some e
  answered : lag < r.hard → ∀ v, ∃ w,
    (c.get r).1.comesTo (.returned (some v)) = .returned (some w)

/-- Whoever gets a request that the store yields something for is answered with a value, if its
loader has one. -/
theorem get_answers {e : Entry} (h : c.yields r.key = some e) (v : Value) :
    ∃ w, (c.get r).1.comesTo (.returned (some v)) = .returned (some w) := by
  rw [get_eq, usable_eq, h]
  cases c.nextAction r with
  | serve => exact ⟨e.value, rfl⟩
  | loadForCaller => exact ⟨v, rfl⟩
  | serveAndReload =>
    dsimp only
    split <;> exact ⟨e.value, rfl⟩
  | serveAndRegister => exact ⟨e.value, rfl⟩

/-- A request in the poller's care is kept fresh, once it has been refreshed. -/
theorem Watched.keptFresh (h : Watched r c₁ c) (ht : c.marks r.family = some t) {lag : Nat}
    (hlag : r.soft + c₁.poller.interval ≤ lag)
    (hz : r.soft + c₁.poller.interval < lag ∨ 0 < c₁.now ∨ 1 < t) : c.KeptFresh r lag := by
  obtain ⟨hp, hu⟩ := h.marked t ht
  have hyields : lag < r.hard → ∃ e, c.yields r.key = some e := by
    intro hhard
    have hout : r.Outlasts c₁ t := by
      unfold Request.Outlasts
      omega
    obtain ⟨e, -, hf⟩ := hu.finds hp h.interval hout
    obtain ⟨hfind, hexp⟩ := finds_eq_some_iff.1 hf
    exact ⟨e, yields_eq_some_iff.2 ⟨h.tended.verdict .get, hfind, hexp⟩⟩
  refine ⟨fun e he => ?_, hyields, fun hhard => ?_⟩
  · obtain ⟨hsince, -, hlater⟩ := hu.dated e he
    have hrecent := hp.recent
    have hi := h.interval
    unfold Entry.age
    omega
  · obtain ⟨e, hy⟩ := hyields hhard
    exact get_answers hy

/-- What was refreshed once stays so. -/
theorem marks_ne_none_after (h : Tended r c) (hm : Prompt r c m)
    (hmark : c.marks r.family ≠ none) : (c.after m).marks r.family ≠ none := by
  cases upkeep_after h hm with
  | loaded v now poller mark kept lasts =>
    rw [mark]
    nofun
  | idle mark kept tasks =>
    rw [mark]
    exact hmark

end Invariant

/-! ## The guarantee -/

/-- A request was registered after the first part of a run, and was not loaded before; the
second part takes it past the first scan, and nothing is in the poller's way. -/
structure Attended (r : Request) (c : Cache) (before first rest : List Move) : Prop where
  launched : c.Launched
  inTime : c.now < Clock.lap
  prompt : Along (Prompt r) c (before ++ first ++ rest)
  registered : (c.run before).poller.registry.request? r.key = some r
  unloaded : (c.run before).marks r.family = none
  scanned : (c.run before).poller.registry.scans <
    (c.run (before ++ first)).poller.registry.scans
  reloaded : ¬ (c.run (before ++ first)).Outstanding r

section Guarantee

variable {r : Request} {c : Cache} {before first rest : List Move}

/-- After the first scan the request is in the poller's care, and has been refreshed. -/
theorem Attended.watched (h : Attended r c before first rest)
    (ho : Along (Obliges r.key) c (before ++ first ++ rest)) :
    Watched r (c.run before) (c.run (before ++ first ++ rest)) ∧
      (c.run (before ++ first ++ rest)).marks r.family ≠ none := by
  have hall := h.prompt.and ho
  simp only [along_append] at hall
  obtain ⟨⟨hbefore, hfirst⟩, hrest⟩ := hall
  have htended : Tended r (c.run before) :=
    hbefore.preserves (fun _ _ ht hm => Tended.after ht hm.1 hm.2)
      (tended_of_launched h.launched h.inTime)
  have hwatched : Watched r (c.run before) (c.run (before ++ first)) := by
    rw [run_append]
    exact hfirst.preserves (fun _ _ hw hm => Watched.after hw hm.1 hm.2)
      (watched_of_registered htended h.registered h.unloaded)
  -- the first scan has seen to it
  have hmarked : (c.run (before ++ first)).marks r.family ≠ none :=
    fun hnone => h.reloaded (hwatched.unmarked h.scanned hnone)
  rw [run_append c (before ++ first)]
  refine hrest.preserves
    (I := fun c' => Watched r (c.run before) c' ∧ c'.marks r.family ≠ none) ?_
    ⟨hwatched, hmarked⟩
  rintro c' m ⟨hw, hmark⟩ hm
  exact ⟨hw.after hm.1 hm.2, marks_ne_none_after hw.tended hm.1 hmark⟩

/-- **Refresh ahead.** After the first scan since its registration a request is kept fresh, with its
soft lifetime and the interval of the poller as the lag, and a nanosecond more:

1. with the nanosecond, always;
2. without it, what was not made at reading zero is no older;
3. without it, altogether, if the request was registered after reading zero or refreshed after
   reading one. -/
theorem refresh_ahead (h : Attended r c before first rest)
    (ho : Along (Obliges r.key) c (before ++ first ++ rest)) :
    let late := c.run (before ++ first ++ rest)
    let lag := r.soft + c.poller.interval
    late.KeptFresh r (lag + 1) ∧
    (∀ e, late.backing.kept? r.key = some e → 0 < e.since → e.age late.now ≤ lag) ∧
    (0 < (c.run before).now ∨ late.marks r.family ≠ some 1 → late.KeptFresh r lag) := by
  intro late lag
  obtain ⟨hw, hmark⟩ := h.watched ho
  obtain ⟨t, ht⟩ := Option.ne_none_iff_exists'.1 hmark
  have hi : (c.run before).poller.interval = c.poller.interval := c.interval_run _
  refine ⟨hw.keptFresh ht ?_ ?_, fun e he hs => ?_, fun hz => hw.keptFresh ht ?_ ?_⟩
  · omega
  · omega
  · obtain ⟨hp, hu⟩ := hw.marked t ht
    obtain ⟨hsince, -, -⟩ := hu.dated e he
    have hrecent : late.now ≤ t + r.soft + late.poller.interval := hp.recent
    have hi' : late.poller.interval = c.poller.interval := c.interval_run _
    unfold Entry.age
    omega
  · omega
  · -- the mark is never zero
    obtain ⟨-, hu⟩ := hw.marked t ht
    have hone := hu.one_le
    have hne : 0 < (c.run before).now ∨ t ≠ 1 :=
      hz.imp_right fun hne h => hne (h ▸ ht)
    omega

end Guarantee

/-! ## Runs to the edge -/

/-- The request is registered when the clock shows one interval. -/
def registering : List Move := [.tick minPollInterval, .schedule profile]

/-- The first scan comes to it, and a hand loads it. -/
def firstScan : List Move :=
  [.tick (2 * minPollInterval), .beginScan, .visit profile, .start 0,
    .finish 0 (.value "new" true), .endScan]

/-- At the next scan it is not due, and it gets as old as it may before the one after. -/
def growingOld : List Move :=
  [.tick (3 * minPollInterval), .beginScan, .endScan, .tick (4 * minPollInterval)]

theorem attended_growingOld :
    Attended profile (overMap .threads) registering firstScan growingOld where
  launched := launched_overMap .threads
  inTime := by decide
  prompt := by
    refine ⟨⟨by decide, ⟨by decide, by decide⟩, trivial⟩, ⟨profile_wellFormed, .inl rfl⟩,
      ⟨by decide, ⟨by decide, by decide⟩, Nat.le_refl _⟩, trivial, trivial, trivial,
      fun _ _ _ => ⟨"new", rfl⟩, trivial,
      ⟨by decide, ⟨by decide, by decide⟩, Nat.le_refl _⟩, trivial, trivial,
      ⟨by decide, ⟨by decide, by decide⟩, Nat.le_refl _⟩, trivial⟩
  registered := by decide
  unloaded := by decide
  scanned := by decide
  reloaded := by
    unfold Outstanding
    decide

theorem obliges_growingOld : Along (Obliges "profile") (overMap .threads)
    (registering ++ firstScan ++ growingOld) := by
  have quiet {c : Cache} {m : Move} (h : c.offered? m = none)
      (hp : ∀ id text, m ≠ .finish id (.panic text)) : Obliges "profile" c m :=
    obliges_of_unoffered h hp
  have hoff : ((overMap .threads).run (registering ++ firstScan.take 2)).offered?
      (.visit profile) = some (profile, .done .started) := rfl
  exact ⟨quiet rfl nofun, quiet rfl nofun, quiet rfl nofun, quiet rfl nofun,
    obliges_of_taken hoff rfl nofun, quiet rfl nofun, quiet rfl nofun, quiet rfl nofun,
    quiet rfl nofun, quiet rfl nofun, quiet rfl nofun, quiet rfl nofun, trivial⟩

/-- The bound is met: the request is kept fresh, and no fresher. -/
theorem refresh_ahead_growingOld :
    ((overMap .threads).run (registering ++ firstScan ++ growingOld)).KeptFresh profile
      (profile.soft + minPollInterval) ∧
    ∃ e, ((overMap .threads).run (registering ++ firstScan ++ growingOld)).backing.kept?
      "profile" = some e ∧ e.age (4 * minPollInterval) = profile.soft + minPollInterval := by
  obtain ⟨-, -, hfresh⟩ := refresh_ahead attended_growingOld obliges_growingOld
  exact ⟨hfresh (.inl (by decide)),
    Entry.stamped (2 * minPollInterval) "new" profile.hard profile.soft, by decide, by decide⟩

/-! ## What gets in the way

Reading zero costs a nanosecond, a crew that refuses its tasks and a panic that ends the poller
cost the whole guarantee. -/

/-- A request whose soft lifetime is a nanosecond short of two intervals. -/
def slack : Request :=
  { profile with soft := 2 * minPollInterval - 1 }

/-- It is loaded at reading zero, so its mark is a nanosecond ahead of its entry, and the scan after
two intervals finds it not due. -/
def loadedAtZero : List Move :=
  [.get slack, .start 0, .finish 0 (.value "new" true),
    .tick minPollInterval, .beginScan, .endScan]

def passedOver : List Move :=
  [.tick (2 * minPollInterval), .beginScan, .endScan, .tick (3 * minPollInterval)]

theorem attended_passedOver :
    Attended slack (overMap .threads) [.schedule slack] loadedAtZero passedOver where
  launched := launched_overMap .threads
  inTime := by decide
  prompt := by
    have hr : slack.WellFormed := ⟨by decide, by decide, by decide, rfl⟩
    refine ⟨⟨hr, .inl rfl⟩, ⟨hr, .inl rfl⟩, trivial, fun _ _ _ => ⟨"new", rfl⟩,
      ⟨by decide, ⟨by decide, by decide⟩, Nat.le_refl _⟩, trivial, trivial,
      ⟨by decide, ⟨by decide, by decide⟩, Nat.le_refl _⟩, trivial, trivial,
      ⟨by decide, ⟨by decide, by decide⟩, Nat.le_refl _⟩, trivial⟩
  registered := by decide
  unloaded := by decide
  scanned := by decide
  reloaded := by
    unfold Outstanding
    decide

theorem obliges_passedOver : Along (Obliges "profile") (overMap .threads)
    ([.schedule slack] ++ loadedAtZero ++ passedOver) := by
  have quiet {c : Cache} {m : Move} (h : c.offered? m = none)
      (hp : ∀ id text, m ≠ .finish id (.panic text)) : Obliges "profile" c m :=
    obliges_of_unoffered h hp
  have hoff : ((overMap .threads).after (.schedule slack)).offered? (.get slack) =
      some (slack, .done .started) := rfl
  exact ⟨quiet rfl nofun, obliges_of_taken hoff rfl nofun, quiet rfl nofun, quiet rfl nofun,
    quiet rfl nofun, quiet rfl nofun, quiet rfl nofun, quiet rfl nofun, quiet rfl nofun,
    quiet rfl nofun, quiet rfl nofun, trivial⟩

/-- The only scan offers a reload to a crew that takes none. -/
def refusedScan : List Move :=
  [.tick minPollInterval, .beginScan, .visit profile, .endScan]

theorem attended_refusedScan :
    Attended profile (overMap (.declining .saturated)) [.schedule profile] refusedScan [] where
  launched := launched_overMap _
  inTime := by decide
  prompt := by
    refine ⟨⟨profile_wellFormed, .inl rfl⟩,
      ⟨by decide, ⟨by decide, by decide⟩, Nat.le_refl _⟩, trivial, trivial, trivial, trivial⟩
  registered := by decide
  unloaded := by decide
  scanned := by decide
  reloaded := by
    unfold Outstanding
    decide

/-- Another request, whose loader panics. -/
def faulty : Request := { profile with key := "faulty", family := 1 }

/-- The first scan loads the request on the poller's own thread. -/
def scannedInPlace : List Move :=
  [.tick minPollInterval, .beginScan, .visit profile, .finish 0 (.value "new" true), .endScan]

/-- The second one ends with the panic of another loader, and there is no third. -/
def crashed : List Move :=
  [.schedule faulty, .tick (2 * minPollInterval), .beginScan, .visit faulty,
    .finish 1 (.panic "boom"), .tick (4 * minPollInterval)]

theorem attended_crashed :
    Attended profile (overMap .inPlace) [.schedule profile] scannedInPlace crashed where
  launched := launched_overMap _
  inTime := by decide
  prompt := by
    have hf : faulty.WellFormed := ⟨by decide, by decide, by decide, rfl⟩
    refine ⟨⟨profile_wellFormed, .inl rfl⟩,
      ⟨by decide, ⟨by decide, by decide⟩, Nat.le_refl _⟩, trivial, trivial,
      fun _ _ _ => ⟨"new", rfl⟩, trivial, ⟨hf, .inr ⟨by decide, by decide⟩⟩,
      ⟨by decide, ⟨by decide, by decide⟩, Nat.le_refl _⟩, trivial, trivial,
      fun l hl hk => ?_, ⟨by decide, ⟨by decide, by decide⟩, trivial⟩, trivial⟩
    cases hl
    exact absurd hk (by decide)
  registered := by decide
  unloaded := by decide
  scanned := by decide
  reloaded := by
    unfold Outstanding
    decide

/-- **A request need not be kept fresh** if it was loaded at reading zero; or if the executor
refuses its reload; or if the panic of another loader ends the poller. -/
theorem refresh_falls_behind :
    (Attended slack (overMap .threads) [.schedule slack] loadedAtZero passedOver ∧
      Along (Obliges "profile") (overMap .threads)
        ([.schedule slack] ++ loadedAtZero ++ passedOver) ∧
      ¬ ((overMap .threads).run ([.schedule slack] ++ loadedAtZero ++ passedOver)).KeptFresh
        slack (slack.soft + minPollInterval)) ∧
    (Attended profile (overMap (.declining .saturated)) [.schedule profile] refusedScan [] ∧
      ¬ ((overMap (.declining .saturated)).run ([.schedule profile] ++ refusedScan ++ [])).KeptFresh
        profile (profile.soft + minPollInterval)) ∧
    (Attended profile (overMap .inPlace) [.schedule profile] scannedInPlace crashed ∧
      ¬ ((overMap .inPlace).run ([.schedule profile] ++ scannedInPlace ++ crashed)).KeptFresh
        profile (profile.soft + minPollInterval)) := by
  refine ⟨⟨attended_passedOver, obliges_passedOver, fun h => ?_⟩,
    ⟨attended_refusedScan, fun h => ?_⟩, ⟨attended_crashed, fun h => ?_⟩⟩
  · exact absurd (h.age_le (Entry.stamped 0 "new" slack.hard slack.soft) (by decide)) (by decide)
  · obtain ⟨e, he⟩ := h.found (by decide)
    cases he
  · exact absurd (h.age_le (Entry.stamped minPollInterval "new" profile.hard profile.soft)
      (by decide)) (by decide)

end Cache

end Evergreen
