import Mathlib.Data.List.Induction
import Evergreen.Proofs.MarkSteps
import Evergreen.Proofs.ModeTable
import Evergreen.Proofs.PollerSteps

/-!
# Which registration counts

A request is registered by a get that finds nothing fresh, or by hand. Either may be declined:
the cache is closed, the key is registered, or the one that is registered is to stay until a scan
has come by. What a registration comes to is decided by the registry of that moment alone, and
this module says what that means in terms of the moves that led there.

- `registers_get_iff`, `registers_schedule_iff`: when a registration takes effect (`Registers`);
- `registryStep_after`: a move registers a request, unregisters a key, begins a scan, or leaves
  the registry as it is;
- `find?_run_iff`: what is registered is what took effect last, with the number of scans that had
  begun by then (`LastRegistered`);
- `registers_schedule_run_iff`: so a call of `schedule` takes effect over another request if a scan
  has begun since that one did;
- `registration_rules`: these together, and what becomes of the refresh marks.
-/

namespace Evergreen.Cache

/-! ## Registrations that take effect -/

/-- A move registers a request: it is a call of `schedule` that says so, or a get that leaves its
key registered where it was not. -/
inductive Registers (c : Cache) (q : Request) : Move → Prop
  | scheduled (h : (c.schedule q).1 = .ok true) : Registers c q (.schedule q)
  | got (absent : c.isScheduled q.key = false) (present : (c.get q).2.isScheduled q.key = true) :
    Registers c q (.get q)

/-- A move begins a scan: the poller waits, and its deadline has come. -/
def BeginsScan (c : Cache) (m : Move) : Prop :=
  m = .beginScan ∧ ∃ deadline, c.poller.phase = .waiting deadline ∧ deadline ≤ c.now

/-- A move takes the request that is registered under a key out of its place: it registers one
under that key, or unregisters the key. -/
def Displaces (c : Cache) (k : Key) (m : Move) : Prop :=
  m = .unschedule k ∨ ∃ q, q.key = k ∧ c.Registers q m

section Effect

variable {c : Cache} {q : Request} {k : Key}

theorem isScheduled_eq_false_iff :
    c.isScheduled k = false ↔ c.poller.registry.requests.find? k = none := by
  simp [isScheduled, Table.contains]

theorem isScheduled_iff :
    c.isScheduled k = true ↔ ∃ reg, c.poller.registry.requests.find? k = some reg := by
  simp [isScheduled, Table.contains, Option.isSome_iff_exists]

/-- Nothing is outdated that a lookup finds fresh. -/
theorem outdated_iff : c.Outdated k ↔ Freshness.of (c.yields k) c.now ≠ .fresh := by
  cases h : c.yields k with
  | none => simp [Outdated, h, Freshness.of]
  | some e =>
    rw [freshness_of_yields h]
    cases he : e.softExpired c.now <;> simp [Outdated, h, he]

/-- Only a get in scheduled mode leaves its request to the poller, if it finds nothing fresh. -/
theorem nextAction_eq_serveAndRegister_iff :
    c.nextAction q = .serveAndRegister ↔ q.mode = .scheduled ∧ c.Outdated q.key := by
  rw [nextAction_eq, outdated_iff]
  cases q.mode <;> cases Freshness.of (c.yields q.key) c.now <;> simp [Mode.action]

/-- Any other get leaves the poller alone. -/
theorem poller_get (h : c.nextAction q ≠ .serveAndRegister) : (c.get q).2.poller = c.poller := by
  have hl := (c.storeOnly_looked q).poller
  rw [get_snd]
  cases ha : c.nextAction q with
  | serve => exact hl
  | loadForCaller => exact (tasksOnly_enter ..).poller.trans hl
  | serveAndReload => exact (tasksOnly_offer ..).poller.trans hl
  | serveAndRegister => exact absurd ha h

/-- **When a get registers its request.** -/
theorem registers_get_iff : c.Registers q (.get q) ↔
    q.mode = .scheduled ∧ c.Outdated q.key ∧ c.poller.closed = false ∧
      c.isScheduled q.key = false := by
  constructor
  · intro h
    cases h with
    | got absent present =>
      by_cases ha : c.nextAction q = .serveAndRegister
      · obtain ⟨hmode, hold⟩ := nextAction_eq_serveAndRegister_iff.1 ha
        refine ⟨hmode, hold, ?_, absent⟩
        -- a closed cache would leave the key as it was
        rw [Bool.eq_false_iff]
        intro hclosed
        have hreg := (servesAndRegisters ha).registered
        rw [if_pos (.inl hclosed)] at hreg
        simp only [isScheduled] at absent present
        rw [hreg, absent] at present
        cases present
      · simp only [isScheduled] at absent present
        rw [poller_get ha, absent] at present
        cases present
  · rintro ⟨hmode, hold, hopen, absent⟩
    have ha := nextAction_eq_serveAndRegister_iff.2 ⟨hmode, hold⟩
    have hreg := (servesAndRegisters ha).registered
    rw [if_neg (by simp [hopen, absent])] at hreg
    refine .got absent ?_
    rw [isScheduled_iff, hreg]
    exact ⟨_, Table.find?_insert_self ..⟩

/-- **When a call of `schedule` registers its request**: the key is free, or what is registered
is neither a copy of the request nor younger than the last scan. -/
theorem registers_schedule_iff : c.Registers q (.schedule q) ↔
    c.poller.closed = false ∧ ∀ old, c.poller.registry.requests.find? q.key = some old →
      c.poller.registry.keeps old q = false := by
  have hiff : c.Registers q (.schedule q) ↔ (c.schedule q).1 = .ok true :=
    ⟨fun h => by cases h; assumption, .scheduled⟩
  rw [hiff]
  unfold schedule register
  cases c.poller.closed with
  | true => simp
  | false =>
    simp only [Bool.false_eq_true, if_false, true_and]
    cases c.poller.registry.requests.find? q.key with
    | none => simp
    | some old => cases hk : c.poller.registry.keeps old q <;> simp [hk]

/-- Nothing is registered with a closed cache. -/
theorem Registers.isOpen {m : Move} (h : c.Registers q m) : c.poller.closed = false := by
  have hcases := h
  cases hcases with
  | scheduled => exact (registers_schedule_iff.1 h).1
  | got => exact (registers_get_iff.1 h).2.2.1

/-- A move registers its own request, and no other. -/
theorem Registers.eq_move {m : Move} (h : c.Registers q m) : m = .schedule q ∨ m = .get q := by
  cases h with
  | scheduled => exact .inl rfl
  | got => exact .inr rfl

/-- What a registration makes of the poller. -/
theorem Registers.poller_after {m : Move} (h : c.Registers q m) :
    (c.after m).poller = c.poller.enrolled q c.now := by
  have hcases := h
  cases hcases with
  | scheduled =>
    obtain ⟨hopen, hkeeps⟩ := registers_schedule_iff.1 h
    show (c.schedule q).2.poller = _
    unfold schedule register
    rw [if_neg (by simp [hopen])]
    cases hf : c.poller.registry.requests.find? q.key with
    | none => rw [poller_enroll]
    | some old =>
      dsimp only
      rw [if_neg (by simp [hkeeps old hf]), poller_enroll]
      rfl
  | got =>
    obtain ⟨hmode, hold, hopen, absent⟩ := registers_get_iff.1 h
    have ha := nextAction_eq_serveAndRegister_iff.2 ⟨hmode, hold⟩
    have hl := c.storeOnly_looked q
    show (c.get q).2.poller = _
    rw [get_snd, ha]
    show ((c.looked q).registerIfAbsent q).2.poller = _
    unfold registerIfAbsent
    rw [hl.poller, if_neg (by simp [hopen]), if_neg (by simpa [isScheduled] using absent),
      poller_enroll, hl.poller, hl.now]

/-- Where a request is registered, it takes the place of whatever was registered. -/
theorem Registers.registry_after {m : Move} (h : c.Registers q m) :
    (c.after m).poller.registry = c.poller.registry.insert q := by
  rw [h.poller_after, Poller.enrolled_registry]

/-- A get or a call of `schedule` that does not take effect leaves the poller as it is. -/
theorem poller_get_of_not_registers (h : ¬ c.Registers q (.get q)) :
    (c.get q).2.poller = c.poller := by
  by_cases ha : c.nextAction q = .serveAndRegister
  · obtain ⟨hmode, hold⟩ := nextAction_eq_serveAndRegister_iff.1 ha
    have hl := (c.storeOnly_looked q).poller
    rw [get_snd, ha]
    show ((c.looked q).registerIfAbsent q).2.poller = c.poller
    unfold registerIfAbsent
    rw [hl]
    split
    · exact hl
    · rename_i hopen
      split
      · exact hl
      · rename_i habsent
        refine absurd (registers_get_iff.2 ⟨hmode, hold, ?_, ?_⟩) h
        · simpa using hopen
        · simpa [isScheduled] using habsent
  · exact poller_get ha

/-- A call of `schedule` that does not take effect says why, and does nothing else. -/
theorem schedule_of_not_registers (h : ¬ c.Registers q (.schedule q)) :
    c.schedule q = if c.poller.closed then (.error .closed, c.record (.registrationDeclined q.key))
      else (.ok false, c.record (.registrationKept q.key)) := by
  rw [registers_schedule_iff] at h
  unfold schedule register
  cases hclosed : c.poller.closed with
  | true => rfl
  | false =>
    simp only [hclosed, true_and, not_forall] at h
    obtain ⟨old, hold, hkeeps⟩ := h
    simp only [hold, Bool.not_eq_false] at hkeeps ⊢
    simp [hkeeps]

end Effect

/-! ## Steps of the registry -/

/-- What a move makes of the registry. -/
inductive RegistryStep (c : Cache) (m : Move) : Registry → Prop
  | same (stays : ∀ k, ¬ c.Displaces k m) (noScan : ¬ c.BeginsScan m) :
    RegistryStep c m c.poller.registry
  | registered (q : Request) (h : c.Registers q m) : RegistryStep c m (c.poller.registry.insert q)
  | unregistered (k : Key) (h : m = .unschedule k) : RegistryStep c m (c.poller.registry.erase k)
  | scanned (h : c.BeginsScan m) :
    RegistryStep c m { c.poller.registry with scans := c.poller.registry.scans + 1 }

section Steps

variable {c : Cache} {m : Move}

theorem RegistryStep.of_eq {r : Registry} (h : r = c.poller.registry)
    (stays : ∀ k, ¬ c.Displaces k m) (noScan : ¬ c.BeginsScan m) : RegistryStep c m r := by
  rw [h]
  exact .same stays noScan

/-- A move that neither registers nor unregisters anything displaces nothing. -/
theorem not_displaces (hu : ∀ k, m ≠ .unschedule k) (hr : ∀ q, ¬ c.Registers q m) (k : Key) :
    ¬ c.Displaces k m := by
  rintro (h | ⟨q, -, h⟩)
  · exact hu k h
  · exact hr q h

theorem not_beginsScan (h : m ≠ .beginScan) : ¬ c.BeginsScan m := fun hb => h hb.1

/-- A scan that begins adds one to the count of scans and changes no registration. -/
theorem registryStep_beginScan (c : Cache) (hr : ∀ q, ¬ c.Registers q .beginScan) :
    RegistryStep c .beginScan (c.after .beginScan).poller.registry := by
  by_cases hb : c.BeginsScan .beginScan
  · obtain ⟨-, deadline, hp, hd⟩ := hb
    have hregistry : (c.after .beginScan).poller.registry =
        { c.poller.registry with scans := c.poller.registry.scans + 1 } := by
      simp only [after, beginScan?, hp, if_pos hd]
      rfl
    rw [hregistry]
    exact .scanned ⟨rfl, deadline, hp, hd⟩
  · refine .of_eq ?_ (not_displaces (by simp) hr) hb
    show (c.beginScan?.getD c).poller.registry = _
    unfold beginScan?
    split
    · rename_i deadline hp
      rw [if_neg fun hd => hb ⟨rfl, deadline, hp, hd⟩]
      rfl
    · rfl

/-- A move is about something other than registrations and the beginning of scans. -/
def leavesRegistry : Move → Bool
  | .get _ | .schedule _ | .unschedule _ | .beginScan => false
  | _ => true

theorem PollerStep.registry_eq {p : Poller} (h : PollerStep c m p) (hm : leavesRegistry m = true) :
    p.registry = c.poller.registry := by
  cases h with
  | enrolled q hq => rcases hq with rfl | rfl <;> cases hm
  | unregistered k hk =>
    subst hk
    cases hm
  | scanBegan _ hb =>
    subst hb
    cases hm
  | scanEnded => exact Poller.rested_registry ..
  | closed _ _ _ registry => exact registry
  | same | visited | crashed => rfl

/-- Most moves have no business with the registry. -/
theorem registryStep_of_leavesRegistry (hm : leavesRegistry m = true) :
    RegistryStep c m (c.after m).poller.registry := by
  refine .of_eq ((c.pollerStep_after m).registry_eq hm) (not_displaces ?_ ?_) (not_beginsScan ?_)
  · rintro k rfl
    cases hm
  · intro q hq
    rcases hq.eq_move with rfl | rfl <;> cases hm
  · rintro rfl
    cases hm

/-- **Every move is a step of the registry.** -/
theorem registryStep_after (c : Cache) (m : Move) :
    RegistryStep c m (c.after m).poller.registry := by
  by_cases hr : ∃ q, c.Registers q m
  · obtain ⟨q, hq⟩ := hr
    rw [hq.registry_after]
    exact .registered q hq
  · simp only [not_exists] at hr
    cases m with
    | get q =>
      refine .of_eq ?_ (not_displaces (by simp) hr) (not_beginsScan (by simp))
      exact congrArg Poller.registry (poller_get_of_not_registers (hr q))
    | schedule q =>
      refine .of_eq ?_ (not_displaces (by simp) hr) (not_beginsScan (by simp))
      show (c.schedule q).2.poller.registry = _
      rw [schedule_of_not_registers (hr q)]
      split <;> rfl
    | unschedule k => exact .unregistered k rfl
    | beginScan => exact c.registryStep_beginScan hr
    | _ => exact registryStep_of_leavesRegistry rfl

/-- A move registers at most one request. -/
theorem Registers.unique {q q' : Request} (h : c.Registers q m) (h' : c.Registers q' m) :
    q = q' := by
  rcases h.eq_move with rfl | rfl
  · rcases h'.eq_move with h' | h'
    · exact Move.schedule.inj h'
    · cases h'
  · rcases h'.eq_move with h' | h'
    · cases h'
    · exact Move.get.inj h'

/-- What registers a request displaces what was registered under its key. -/
theorem Registers.displaces {q : Request} (h : c.Registers q m) : c.Displaces q.key m :=
  .inr ⟨q, rfl, h⟩

/-- A move that registers a request displaces what is registered under its key, and no more. -/
theorem Registers.displaces_iff {q : Request} (h : c.Registers q m) {k : Key} :
    c.Displaces k m ↔ k = q.key := by
  constructor
  · rintro (rfl | ⟨q', rfl, hq'⟩)
    · rcases h.eq_move with h | h <;> cases h
    · rw [hq'.unique h]
  · rintro rfl
    exact h.displaces

/-- A registration that takes effect is found under its key, with the count of scans so far. -/
theorem Registers.find?_after {q : Request} (h : c.Registers q m) (k : Key) :
    (c.after m).poller.registry.requests.find? k =
      if k = q.key then some ⟨q, c.poller.registry.scans⟩
      else c.poller.registry.requests.find? k := by
  rw [h.registry_after]
  exact Table.find?_insert ..

/-- Where nothing is registered, a request stays registered unless its key is unregistered. -/
theorem find?_after_of_not_registers (h : ∀ q, ¬ c.Registers q m) (k : Key) (reg : Registration) :
    (c.after m).poller.registry.requests.find? k = some reg ↔
      c.poller.registry.requests.find? k = some reg ∧ m ≠ .unschedule k := by
  have hstep := c.registryStep_after m
  generalize (c.after m).poller.registry = registry at hstep
  cases hstep with
  | same stays =>
    have hm : m ≠ .unschedule k := fun hm => stays k (.inl hm)
    simp [hm]
  | registered q hq => exact absurd hq (h q)
  | unregistered k' hm =>
    show (c.poller.registry.requests.erase k').find? k = _ ↔ _
    rw [Table.find?_erase, hm, ne_eq, Move.unschedule.injEq]
    by_cases hk : k = k'
    · simp [hk]
    · simp [hk, Ne.symm hk]
  | scanned hb =>
    rw [hb.1]
    simp

/-- **What is registered after a move**: what the move registers, with the number of scans that
have begun, and whatever it does not displace. -/
theorem find?_after (c : Cache) (m : Move) (k : Key) (reg : Registration) :
    (c.after m).poller.registry.requests.find? k = some reg ↔
      (∃ q, c.Registers q m ∧ q.key = k ∧ reg = ⟨q, c.poller.registry.scans⟩) ∨
        c.poller.registry.requests.find? k = some reg ∧ ¬ c.Displaces k m := by
  by_cases hr : ∃ q, c.Registers q m
  · obtain ⟨q, hq⟩ := hr
    have hown : (∃ q', c.Registers q' m ∧ q'.key = k ∧ reg = ⟨q', c.poller.registry.scans⟩) ↔
        k = q.key ∧ reg = ⟨q, c.poller.registry.scans⟩ := by
      constructor
      · rintro ⟨q', hq', rfl, rfl⟩
        rw [hq'.unique hq]
        exact ⟨rfl, rfl⟩
      · rintro ⟨rfl, rfl⟩
        exact ⟨q, hq, rfl, rfl⟩
    rw [hq.find?_after, hown, hq.displaces_iff]
    by_cases hk : k = q.key
    · simp [hk, eq_comm]
    · simp [hk]
  · simp only [not_exists] at hr
    rw [find?_after_of_not_registers hr]
    simp [Displaces, hr]

/-- Scans are counted when they begin, and nothing else counts one. -/
theorem scans_after (c : Cache) (m : Move) :
    c.BeginsScan m ∧ (c.after m).poller.registry.scans = c.poller.registry.scans + 1 ∨
      ¬ c.BeginsScan m ∧ (c.after m).poller.registry.scans = c.poller.registry.scans := by
  have hstep := c.registryStep_after m
  generalize (c.after m).poller.registry = registry at hstep
  cases hstep with
  | same _ noScan => exact .inr ⟨noScan, rfl⟩
  | registered q hq =>
    refine .inr ⟨not_beginsScan ?_, rfl⟩
    rcases hq.eq_move with rfl | rfl
    · exact nofun
    · exact nofun
  | unregistered k hm =>
    refine .inr ⟨not_beginsScan ?_, rfl⟩
    rw [hm]
    exact nofun
  | scanned hb => exact .inl ⟨hb, rfl⟩

/-- Scans are only ever added to the count. -/
theorem scans_le_run (c : Cache) (ms : List Move) :
    c.poller.registry.scans ≤ (c.run ms).poller.registry.scans := by
  induction ms generalizing c with
  | nil => exact Nat.le_refl _
  | cons m ms ih =>
    refine Nat.le_trans ?_ (ih (c.after m))
    rcases c.scans_after m with ⟨-, h⟩ | ⟨-, h⟩ <;> omega

/-- The number of scans tells whether one has begun on the way. -/
theorem scans_run_eq_iff (c : Cache) (ms : List Move) :
    (c.run ms).poller.registry.scans = c.poller.registry.scans ↔ ¬ Sometime BeginsScan c ms := by
  induction ms generalizing c with
  | nil => simp [Sometime]
  | cons m ms ih =>
    have hle := (c.after m).scans_le_run ms
    simp only [run_cons, Sometime, not_or, ← ih (c.after m)]
    rcases c.scans_after m with ⟨hb, h⟩ | ⟨hb, h⟩
    · simp only [hb, not_true, false_and, iff_false]
      omega
    · simp only [hb, not_false_iff, true_and, h]

end Steps

/-! ## Registrations over runs -/

/-- In a run, a request is registered, and nothing displaces it from then on: `c'` is the cache
when it has just been registered, and `since` is what follows. -/
def LastRegistered (c : Cache) (ms : List Move) (q : Request) (c' : Cache) (since : List Move) :
    Prop :=
  ∃ before m, ms = before ++ m :: since ∧ (c.run before).Registers q m ∧
    c' = (c.run before).after m ∧ Along (fun c m => ¬ c.Displaces q.key m) c' since

section Runs

variable {c c' : Cache} {ms since : List Move} {m : Move} {q : Request} {k : Key}

/-- A run goes through the registration that it has last. -/
theorem LastRegistered.run_eq (h : c.LastRegistered ms q c' since) : c'.run since = c.run ms := by
  obtain ⟨before, m, rfl, -, rfl, -⟩ := h
  rw [run_append, run_cons]

/-- A run that goes on by one move registers a request last if that move does, or if it has done
so before and the move does not displace it. -/
theorem lastRegistered_concat_iff : c.LastRegistered (ms ++ [m]) q c' since ↔
    since = [] ∧ (c.run ms).Registers q m ∧ c' = (c.run ms).after m ∨
      ∃ rest, since = rest ++ [m] ∧ c.LastRegistered ms q c' rest ∧
        ¬ (c.run ms).Displaces q.key m := by
  constructor
  · rintro ⟨before, m', hms, hq, hc', hstays⟩
    rcases List.eq_nil_or_concat since with rfl | ⟨rest, m'', rfl⟩
    · obtain ⟨rfl, hm⟩ := List.append_inj' hms rfl
      obtain ⟨rfl, -⟩ := List.cons.inj hm
      exact .inl ⟨rfl, hq, hc'⟩
    · rw [List.concat_eq_append] at *
      rw [← List.cons_append, ← List.append_assoc] at hms
      obtain ⟨rfl, hm⟩ := List.append_inj' hms rfl
      obtain ⟨rfl, -⟩ := List.cons.inj hm
      rw [along_append] at hstays
      have hlast : c.LastRegistered (before ++ m' :: rest) q c' rest :=
        ⟨before, m', rfl, hq, hc', hstays.1⟩
      have hnot := hstays.2.1
      rw [hlast.run_eq] at hnot
      exact .inr ⟨rest, rfl, hlast, hnot⟩
  · rintro (⟨rfl, hq, hc'⟩ | ⟨rest, rfl, hlast, hnot⟩)
    · exact ⟨ms, m, rfl, hq, hc', trivial⟩
    · have hrun := hlast.run_eq
      obtain ⟨before, m', rfl, hq, hc', hstays⟩ := hlast
      refine ⟨before, m', by simp, hq, hc', ?_⟩
      rw [along_append]
      refine ⟨hstays, ?_, trivial⟩
      rwa [hrun]

/-- A cache that was just built has nothing registered. -/
theorem find?_of_launched (hc : c.Launched) (k : Key) :
    c.poller.registry.requests.find? k = none := by
  obtain ⟨⟨b, now, hb⟩, -⟩ := hc
  obtain ⟨executor, rfl⟩ := eq_of_build hb
  rfl

/-- **What is registered is what took effect last**, and the registry knows how many scans had
begun by then. -/
theorem find?_run_iff (hc : c.Launched) {reg : Registration} :
    (c.run ms).poller.registry.requests.find? k = some reg ↔
      reg.request.key = k ∧ ∃ c' since, c.LastRegistered ms reg.request c' since ∧
        c'.poller.registry.scans = reg.scansBefore := by
  induction ms using List.reverseRecOn generalizing reg with
  | nil =>
    rw [run_nil, find?_of_launched hc]
    simp [LastRegistered]
  | append_singleton ms m ih =>
    have hscans {q : Request} (hq : (c.run ms).Registers q m) :
        ((c.run ms).after m).poller.registry.scans = (c.run ms).poller.registry.scans := by
      rw [hq.registry_after]
      rfl
    rw [run_append, run_cons, run_nil, find?_after, ih]
    constructor
    · rintro (⟨q, hq, rfl, rfl⟩ | ⟨⟨rfl, c', since, hlast, hn⟩, hnot⟩)
      · exact ⟨rfl, _, [], lastRegistered_concat_iff.2 (.inl ⟨rfl, hq, rfl⟩), hscans hq⟩
      · exact ⟨rfl, c', _, lastRegistered_concat_iff.2 (.inr ⟨since, rfl, hlast, hnot⟩), hn⟩
    · rintro ⟨rfl, c', since, hlast, hn⟩
      rcases lastRegistered_concat_iff.1 hlast with ⟨rfl, hq, rfl⟩ | ⟨rest, rfl, hlast, hnot⟩
      · refine .inl ⟨reg.request, hq, rfl, ?_⟩
        rw [← hscans hq, hn]
      · exact .inr ⟨⟨rfl, c', rest, hlast, hn⟩, hnot⟩

/-- Being closed is a matter of whether anybody has closed the cache or let go of it. -/
theorem closed_after_iff (c : Cache) (m : Move) :
    (c.after m).poller.closed = true ↔ c.poller.closed = true ∨ m = .close ∨ m = .dispose := by
  have hclose : c.close.poller.closed = true := by
    unfold close
    split
    · assumption
    · dsimp only
      split <;> rfl
  by_cases hm : m = .close ∨ m = .dispose
  · refine iff_of_true ?_ (.inr hm)
    rcases hm with rfl | rfl
    · exact hclose
    · show c.dispose.poller.closed = true
      unfold dispose
      split
      · exact hclose
      · rfl
  · rw [or_iff_left hm]
    rw [not_or] at hm
    rw [(c.pollerStep_after m).closed_eq hm.1 hm.2]

/-- A cache is closed if and only if it was told so. -/
theorem closed_run_iff (hc : c.Launched) :
    (c.run ms).poller.closed = true ↔ Move.close ∈ ms ∨ Move.dispose ∈ ms := by
  have hopen : c.poller.closed = false := by
    obtain ⟨⟨b, now, hb⟩, -⟩ := hc
    obtain ⟨executor, rfl⟩ := eq_of_build hb
    rfl
  rw [run_iff_sometime (I := fun c => c.poller.closed = true) closed_after_iff,
    sometime_iff_exists_mem]
  simp only [hopen, Bool.false_eq_true, false_or, and_or_left, exists_or, exists_eq_right]

/-- **When a call of `schedule` takes effect, in terms of the run**: the key is free, or a scan has
begun since another request took effect under it. -/
theorem registers_schedule_run_iff (hc : c.Launched) : (c.run ms).Registers q (.schedule q) ↔
    (c.run ms).poller.closed = false ∧ ((c.run ms).isScheduled q.key = false ∨
      ∃ old c' since, c.LastRegistered ms old c' since ∧ old.key = q.key ∧
        old.sameAs q = false ∧ Sometime BeginsScan c' since) := by
  rw [registers_schedule_iff]
  refine and_congr_right fun _ => ?_
  cases hf : (c.run ms).poller.registry.requests.find? q.key with
  | none =>
    have hfree : ∀ old : Registration, none = some old →
        (c.run ms).poller.registry.keeps old q = false := by
      intro old hold
      cases hold
    exact iff_of_true hfree (.inl (isScheduled_eq_false_iff.2 hf))
  | some reg =>
    have hpresent : ¬ (c.run ms).isScheduled q.key = false := by
      simp [isScheduled_eq_false_iff, hf]
    rw [or_iff_right hpresent]
    -- the registry compares the number of scans then and now, so it knows whether one has begun
    have hkeeps {old : Request} {c' : Cache} {since : List Move}
        (hlast : c.LastRegistered ms old c' since) (hn : c'.poller.registry.scans = reg.scansBefore)
        (hold : reg.request = old) : (c.run ms).poller.registry.keeps reg q = false ↔
          old.sameAs q = false ∧ Sometime BeginsScan c' since := by
      have hscans := c'.scans_run_eq_iff since
      rw [hlast.run_eq, eq_comm, hn] at hscans
      rw [Registry.keeps, hold, Bool.or_eq_false_iff, beq_eq_false_iff_ne, ne_eq, hscans, not_not]
    constructor
    · intro h
      obtain ⟨hkey, c', since, hlast, hn⟩ := (find?_run_iff hc).1 hf
      obtain ⟨hsame, hscan⟩ := (hkeeps hlast hn rfl).1 (h reg rfl)
      exact ⟨reg.request, c', since, hlast, hkey, hsame, hscan⟩
    · rintro ⟨old, c', since, hlast, hkey, hsame, hscan⟩ reg' hreg'
      cases hreg'
      have hold : (c.run ms).poller.registry.requests.find? q.key =
          some ⟨old, c'.poller.registry.scans⟩ := (find?_run_iff hc).2 ⟨hkey, c', since, hlast, rfl⟩
      rw [hf, Option.some.injEq] at hold
      subst hold
      exact (hkeeps hlast rfl rfl).2 ⟨hsame, hscan⟩

end Runs

/-! ## What a registration does to the marks -/

/-- A call of `schedule` takes effect where another request is registered under the key. -/
structure Replaces (c : Cache) (q : Request) : Prop where
  registers : c.Registers q (.schedule q)
  registered : c.isScheduled q.key = true

section Marks

variable {c : Cache} {q old : Request}

/-- A request that takes the place of another is not a copy of it. -/
theorem Replaces.family_ne (h : c.Replaces q)
    (hold : c.poller.registry.request? q.key = some old) : old.family ≠ q.family := by
  obtain ⟨reg, hreg, rfl⟩ := Option.map_eq_some_iff.1 hold
  have hkeeps := (registers_schedule_iff.1 h.registers).2 reg hreg
  rw [Registry.keeps, Bool.or_eq_false_iff] at hkeeps
  simpa [Request.sameAs] using hkeeps.1

/-- A request that takes the place of another loses its mark, and no other does. -/
theorem Replaces.marks_schedule (h : c.Replaces q) (f : Nat) :
    (c.schedule q).2.marks f = if f = q.family then none else c.marks f := by
  obtain ⟨hopen, hkeeps⟩ := registers_schedule_iff.1 h.registers
  obtain ⟨reg, hreg⟩ := isScheduled_iff.1 h.registered
  unfold schedule register
  simp only [hopen, hreg, hkeeps reg hreg, Bool.false_eq_true, if_false]
  rw [(pollerOnly_enroll ..).marks]
  rfl

/-- Any other call of `schedule` leaves the marks alone. -/
theorem marks_schedule_of_not_replaces (h : ¬ c.Replaces q) : (c.schedule q).2.marks = c.marks := by
  by_cases hr : c.Registers q (.schedule q)
  · have habsent : c.poller.registry.requests.find? q.key = none := by
      rw [← isScheduled_eq_false_iff, Bool.eq_false_iff]
      exact fun hp => h ⟨hr, hp⟩
    obtain ⟨hopen, -⟩ := registers_schedule_iff.1 hr
    unfold schedule register
    simp only [hopen, habsent, Bool.false_eq_true, if_false]
    exact (pollerOnly_enroll ..).marks
  · rw [schedule_of_not_registers hr]
    split <;> rfl

end Marks

/-- **The rules of registration.** After any run of a cache that was just built, whatever was got,
scheduled, unscheduled, removed, scanned or closed on the way:

1. at most one request is registered under a key, and it is the one that took effect last, unless
   the key was unregistered since;
2. a get takes effect if it is in scheduled mode, finds nothing fresh, the cache is open and its
   key is free;
3. a call of `schedule` takes effect if the cache is open, and the key is free or a scan has begun
   since a request that is no copy of the given one took effect last under it;
4. the cache is open until it is closed or let go of;
5. a call of `schedule` that replaces another request takes away the mark of the given request,
   and leaves that of the other and all the rest;
6. no other registration touches a mark, and nothing else takes one away but a removal of what is
   stored for a registered request;
7. a registration that does not take effect says so, and leaves the poller and the marks as they
   are. -/
theorem registration_rules {c : Cache} (hc : c.Launched) (ms : List Move) :
    ((c.run ms).scheduledKeys.Nodup ∧
      ∀ k q, (c.run ms).poller.registry.request? k = some q ↔
        q.key = k ∧ ∃ c' since, c.LastRegistered ms q c' since) ∧
    (∀ q, (c.run ms).Registers q (.get q) ↔
      q.mode = .scheduled ∧ (c.run ms).Outdated q.key ∧
        (c.run ms).poller.closed = false ∧ (c.run ms).isScheduled q.key = false) ∧
    (∀ q, (c.run ms).Registers q (.schedule q) ↔
      (c.run ms).poller.closed = false ∧ ((c.run ms).isScheduled q.key = false ∨
        ∃ old c' since, c.LastRegistered ms old c' since ∧ old.key = q.key ∧
          old.sameAs q = false ∧ Sometime BeginsScan c' since)) ∧
    ((c.run ms).poller.closed = true ↔ Move.close ∈ ms ∨ Move.dispose ∈ ms) ∧
    (∀ q, (c.run ms).Replaces q →
      (∀ f, ((c.run ms).schedule q).2.marks f =
        if f = q.family then none else (c.run ms).marks f) ∧
      ∀ old, (c.run ms).poller.registry.request? q.key = some old →
        ((c.run ms).schedule q).2.marks old.family = (c.run ms).marks old.family) ∧
    ((∀ q, ¬ (c.run ms).Replaces q → ((c.run ms).schedule q).2.marks = (c.run ms).marks) ∧
      (∀ q, ((c.run ms).get q).2.marks = (c.run ms).marks) ∧
      ∀ m f, ((c.run ms).after m).marks f = none →
        (c.run ms).marks f = none ∨ ∃ q, Resets (c.run ms) q m ∧ f = q.family) ∧
    ((∀ q, ¬ (c.run ms).Registers q (.schedule q) →
        ((c.run ms).schedule q).1 =
          (if (c.run ms).poller.closed then .error .closed else .ok false) ∧
        ((c.run ms).schedule q).2.poller = (c.run ms).poller ∧
        ((c.run ms).schedule q).2.marks = (c.run ms).marks) ∧
      ∀ q, ¬ (c.run ms).Registers q (.get q) →
        ((c.run ms).get q).2.poller = (c.run ms).poller) := by
  refine ⟨⟨(c.run ms).poller.registry.requests.distinct, ?_⟩, ?_, ?_, closed_run_iff hc, ?_,
    ⟨?_, ?_, ?_⟩, ?_, ?_⟩
  · intro k q
    rw [Registry.request?, Option.map_eq_some_iff]
    constructor
    · rintro ⟨reg, hreg, rfl⟩
      obtain ⟨hk, c', since, hlast, -⟩ := (find?_run_iff hc).1 hreg
      exact ⟨hk, c', since, hlast⟩
    · rintro ⟨hk, c', since, hlast⟩
      exact ⟨⟨q, c'.poller.registry.scans⟩, (find?_run_iff hc).2 ⟨hk, c', since, hlast, rfl⟩, rfl⟩
  · intro q
    exact registers_get_iff
  · intro q
    exact registers_schedule_run_iff hc
  · intro q h
    refine ⟨h.marks_schedule, fun old hold => ?_⟩
    rw [h.marks_schedule, if_neg (h.family_ne hold)]
  · intro q h
    exact marks_schedule_of_not_replaces h
  · intro q
    exact (c.run ms).marks_get q
  · intro m f hf
    have hstep := (c.run ms).markStep_after m f
    generalize ((c.run ms).after m).marks f = mark at hstep hf
    cases hstep with
    | same => exact .inl hf
    | refreshed => cases hf
    | reset q h hq => exact .inr ⟨q, h, hq⟩
  · intro q h
    rw [schedule_of_not_registers h]
    split <;> exact ⟨rfl, rfl, rfl⟩
  · intro q h
    exact poller_get_of_not_registers h

/-- A request for the same key that is not a copy of the first. -/
def profileAnew : Request := { profile with family := 1 }

/-- The first request is registered, and a scan begins. -/
def scannedOnce : List Move := [.schedule profile, .tick minPollInterval, .beginScan]

/-- Nothing displaces the first request, and the scan begins after it took effect. -/
theorem lastRegistered_scannedOnce : (overMap .threads).LastRegistered scannedOnce profile
    ((overMap .threads).after (.schedule profile)) [.tick minPollInterval, .beginScan] := by
  have hstays {c : Cache} {m : Move} (hm : m = .tick minPollInterval ∨ m = .beginScan) :
      ¬ c.Displaces profile.key m := by
    rintro (hu | ⟨q, -, hq⟩)
    · simp [hu] at hm
    · rcases hq.eq_move with h | h <;> simp [h] at hm
  exact ⟨[], .schedule profile, rfl, .scheduled rfl, rfl, hstays (.inl rfl), hstays (.inr rfl),
    trivial⟩

/-- Once a scan has begun, another request may take the place of the first. -/
theorem registration_rules_scannedOnce :
    ((overMap .threads).run scannedOnce).poller.registry.request? "profile" = some profile ∧
      ((overMap .threads).run scannedOnce).Registers profileAnew (.schedule profileAnew) := by
  obtain ⟨⟨-, hlast⟩, -, hschedule, -⟩ :=
    registration_rules (launched_overMap .threads) scannedOnce
  have hfirst := lastRegistered_scannedOnce
  have hscan : Sometime BeginsScan ((overMap .threads).after (.schedule profile))
      [.tick minPollInterval, .beginScan] :=
    .inr (.inl ⟨rfl, minPollInterval, rfl, Nat.le_refl _⟩)
  refine ⟨(hlast "profile" profile).2 ⟨rfl, _, _, hfirst⟩, (hschedule profileAnew).2 ⟨rfl, ?_⟩⟩
  exact .inr ⟨profile, _, _, hfirst, rfl, rfl, hscan⟩

end Evergreen.Cache
