import Evergreen.Proofs.MarkSteps
import Evergreen.Proofs.ModeTable
import Evergreen.Proofs.PollerSteps
import Evergreen.Proofs.Times

/-!
# What a scan offers

A scan takes down what is registered and due when it begins, and comes to one of these requests
after the other while everything else goes on. Nothing that happens meanwhile adds to the list
or takes away from it, except that the poller comes to a request; so a scan that is not ended by
a panic offers each of them once. What is due stays due until a load of it counts as a refresh,
and that carries the guarantee from one scan to the next.

- `perm_run_within`: what a scan has offered and what it has left are together what was due;
- `exists_scans`: a scan that has begun can be brought to its end, whatever has come of its offers
  so far;
- `overdue_run`: a request stays overdue until a load renews it (`Renews`);
- `scan_offers_what_is_due`: the guarantee for one scan, for all that follow, and for the next
  one after a request was reset.
-/

namespace Evergreen.Cache

/-! ## What is registered, and what of it is due -/

/-- A request is registered. -/
def Registered (c : Cache) (q : Request) : Prop := ∃ k, c.poller.registry.request? k = some q

/-- The family of a request was never refreshed, or longer ago than its soft lifetime. -/
def Overdue (c : Cache) (q : Request) : Prop :=
  ∀ t, c.marks q.family = some t → t + q.soft < c.now

section Due

variable {c : Cache} {q : Request}

/-- A request is due if it was never refreshed or not for longer than its soft lifetime. -/
theorem isDue_iff : c.isDue q = true ↔ c.Overdue q := by
  unfold isDue Request.due Overdue
  cases c.marks q.family with
  | none => simp
  | some t =>
    simp only [decide_eq_true_eq, Option.some.injEq, forall_eq']
    omega

/-- A scan visits what is registered and overdue when it begins. -/
theorem mem_dueRequests_iff_overdue : q ∈ c.dueRequests ↔ c.Registered q ∧ c.Overdue q := by
  rw [mem_dueRequests_iff, isDue_iff]
  rfl

/-- No key is taken down twice. -/
theorem nodup_keys_dueRequests (h : c.Reachable) : (c.dueRequests.map Request.key).Nodup := by
  have hkeys : (c.poller.registry.requests.values.map (·.request)).map Request.key =
      c.poller.registry.requests.keys := by
    unfold Table.values Table.keys
    rw [List.map_map, List.map_map]
    refine List.map_congr_left fun p hp => ?_
    refine key_of_registered h ?_
    rw [Registry.request?, Table.find?_eq_some_iff.2 hp]
    rfl
  refine List.Nodup.sublist ((List.filter_sublist).map Request.key) ?_
  rw [hkeys]
  exact c.poller.registry.requests.distinct

/-- Distinct keys have distinct requests, so nothing is taken down twice. -/
theorem nodup_dueRequests (h : c.Reachable) : c.dueRequests.Nodup :=
  .of_map Request.key (nodup_keys_dueRequests h)

end Due

/-! ## One scan -/

/-- The request of which the poller offers a reload with a move. -/
def pollerOffers? (c : Cache) : Move → Option Request
  | .visit r => (c.offered? (.visit r)).map (·.1)
  | _ => none

/-- The requests of which the poller offers a reload along a run. -/
def pollerOffers (c : Cache) : List Move → List Request
  | [] => []
  | m :: ms => (c.pollerOffers? m).toList ++ (c.after m).pollerOffers ms

/-- A move that does not end the scan: it is not the end of the scan, and no panic of a loader
takes the poller down. -/
structure WithinScan (c : Cache) (m : Move) : Prop where
  goesOn : m ≠ .endScan
  noPanic : ∀ l o, c.load? l.id = some l → m = .finish l.id o → takesDown l o = false

/-- A scan has nothing left to do. -/
structure ScanDone (c : Cache) : Prop where
  nothingLeft : c.poller.phase = .scanning []
  idle : c.pollerBusy = false

/-- The poller's deadline has come, so that a scan begins, and it goes on along a run. -/
structure ScansAlong (c : Cache) (ms : List Move) : Prop where
  begins : ∃ deadline, c.poller.phase = .waiting deadline ∧ deadline ≤ c.now
  goesOn : Along WithinScan (c.after .beginScan) ms

/-- The run is all of a scan, from its beginning to where it may end. -/
structure Scans (c : Cache) (ms : List Move) : Prop extends ScansAlong c ms where
  done : ((c.after .beginScan).run ms).ScanDone

/-- What a scan that begins now offers along a run. -/
def offeredIn (c : Cache) (ms : List Move) : List Request := (c.after .beginScan).pollerOffers ms

section Scan

variable {c : Cache} {m : Move}

theorem withinScan_visit (c : Cache) (r : Request) : WithinScan c (.visit r) where
  goesOn := nofun
  noPanic _ _ _ h := nomatch h

theorem pollerOffers?_eq_some_iff {r : Request} :
    c.pollerOffers? m = some r ↔ m = .visit r ∧ c.canVisit r = true := by
  cases m with
  | visit r' =>
    simp only [pollerOffers?, offered?, Move.visit.injEq]
    split
    · rename_i hv
      simp only [Option.map_some, Option.some.injEq]
      exact ⟨fun h => h ▸ ⟨rfl, hv⟩, fun h => h.1⟩
    · rename_i hv
      simp only [Option.map_none, reduceCtorEq, false_iff]
      rintro ⟨rfl, hv'⟩
      exact hv hv'
  | _ => simp [pollerOffers?]

/-- What the poller offers is the request that it comes to, with what a lookup of its key finds
at that time. -/
theorem comes_of_pollerOffers? {r : Request} (h : c.pollerOffers? m = some r) :
    ∃ o, c.offered? m = some (r, o) ∧ Comes c r (c.lookup r.key).1 true (c.after m) o := by
  obtain ⟨rfl, hv⟩ := pollerOffers?_eq_some_iff.1 h
  obtain ⟨o, ho, hcomes⟩ := comes_visit hv
  have hfinds : c.visitFinds c.scanLeft r = (c.lookup r.key).1 := by
    rw [visitFinds, lookup_fst, lookup_fst]
    rfl
  have hafter : c.after (.visit r) = (c.visit r).2 := if_pos hv
  rw [hfinds, ← hafter] at hcomes
  exact ⟨o, ho, hcomes⟩

/-- A scan that begins has everything left that is due. -/
theorem phase_beginScan {deadline : Nat} (hp : c.poller.phase = .waiting deadline)
    (hd : deadline ≤ c.now) : (c.after .beginScan).poller.phase = .scanning c.dueRequests := by
  simp only [after, beginScan?, hp, if_pos hd]
  rfl

/-- Within a scan, a move takes off the list the request that the poller comes to, and nothing
else. -/
theorem scanning_after {due : List Request} (hp : c.poller.phase = .scanning due)
    (hm : WithinScan c m) :
    ∃ left, (c.after m).poller.phase = .scanning left ∧
      ((c.pollerOffers? m).toList ++ left).Perm due := by
  cases ho : c.pollerOffers? m with
  | some r =>
    obtain ⟨rfl, hv⟩ := pollerOffers?_eq_some_iff.1 ho
    have hleft : c.scanLeft = due := by simp only [scanLeft, hp]
    have hr : r ∈ due := by
      rw [← hleft]
      exact mem_scanLeft_of_canVisit hv
    refine ⟨due.erase r, ?_, (List.perm_cons_erase hr).symm⟩
    have hafter : c.after (.visit r) = (c.visit r).2 := if_pos hv
    rw [hafter, poller_visit hv, hleft]
  | none =>
    refine ⟨due, ?_, .refl _⟩
    have hstep := c.pollerStep_after m
    generalize (c.after m).poller = p at hstep
    cases hstep with
    | enrolled q =>
      have hstarted : c.poller.phase ≠ .unstarted := by
        intro h
        rw [hp] at h
        cases h
      rw [Poller.enrolled_phase q c.now hstarted]
      exact hp
    | scanBegan _ _ waits =>
      rw [hp] at waits
      cases waits
    | visited q hv can =>
      rw [pollerOffers?_eq_some_iff.2 ⟨hv, can⟩] at ho
      cases ho
    | scanEnded hend => exact absurd hend hm.goesOn
    | closed _ _ _ _ _ phase =>
      rcases phase with phase | ⟨-, deadline, waits⟩
      · rw [phase]
        exact hp
      · rw [hp] at waits
        cases waits
    | crashed l text hl hpanic hs =>
      have hdown := hm.noPanic l _ hl hpanic
      simp [takesDown, hs] at hdown
    | same | unregistered => exact hp

/-- Along a scan, what was offered and what is left are together what there was. -/
theorem scanning_run {due : List Request} (hp : c.poller.phase = .scanning due) {ms : List Move}
    (hms : Along WithinScan c ms) :
    ∃ left, (c.run ms).poller.phase = .scanning left ∧
      (c.pollerOffers ms ++ left).Perm due := by
  induction ms generalizing c due with
  | nil => exact ⟨due, hp, .refl _⟩
  | cons m ms ih =>
    obtain ⟨due', hp', hfirst⟩ := scanning_after hp hms.1
    obtain ⟨left, hleft, hrest⟩ := ih hp' hms.2
    refine ⟨left, hleft, ?_⟩
    show (((c.pollerOffers? m).toList ++ (c.after m).pollerOffers ms) ++ left).Perm due
    rw [List.append_assoc]
    exact (hrest.append_left _).trans hfirst

theorem ScansAlong.scanning {ms : List Move} (h : c.ScansAlong ms) :
    ∃ left, ((c.after .beginScan).run ms).poller.phase = .scanning left ∧
      (c.offeredIn ms ++ left).Perm c.dueRequests := by
  obtain ⟨deadline, hp, hd⟩ := h.begins
  exact scanning_run (phase_beginScan hp hd) h.goesOn

/-- **What a scan has offered and what it has left are what was due when it began**, whatever has
happened in the meantime. -/
theorem perm_run_within {ms : List Move} (h : c.ScansAlong ms) :
    (c.offeredIn ms ++ ((c.after .beginScan).run ms).scanLeft).Perm c.dueRequests := by
  obtain ⟨left, hleft, hperm⟩ := h.scanning
  rwa [show ((c.after .beginScan).run ms).scanLeft = left by simp only [scanLeft, hleft]]

/-- What a whole scan offers is what was due when it began, in some order. -/
theorem perm_offeredIn {ms : List Move} (h : c.Scans ms) :
    (c.offeredIn ms).Perm c.dueRequests := by
  have hperm := perm_run_within h.toScansAlong
  simpa only [scanLeft, h.done.nothingLeft, List.append_nil] using hperm

end Scan

/-! ## Bringing a scan to its end -/

/-- A move that brings a scan on: the poller comes to a request, or a load ends with a value. -/
inductive BringsOn : Move → Prop
  | visit (r : Request) : BringsOn (.visit r)
  | finish (id : Nat) (v : Value) : BringsOn (.finish id (.value v false))

theorem BringsOn.withinScan {m : Move} (h : BringsOn m) (c : Cache) : WithinScan c m := by
  cases h with
  | visit r => exact c.withinScan_visit r
  | finish id v =>
    refine ⟨nofun, fun l o _ h => ?_⟩
    obtain ⟨-, rfl⟩ := Move.finish.inj h
    rfl

/-- A bound on the moves that a scan needs to come to its end, if it is left to itself: a visit
takes one off the list and may add a load, the end of a load takes one off the loads. -/
def scanToGo (c : Cache) : Nat := 2 * c.scanLeft.length + c.crew.held.length

section Progress

variable {c : Cache}

/-- An offer puts at most one load into the executor's hands. -/
theorem Comes.length_held_le {r : Request} {stale : Option Entry} {byPoller : Bool} {c' : Cache}
    {o : Offer} (h : Comes c r stale byPoller c' o) :
    c'.crew.held.length ≤ c.crew.held.length + 1 := by
  cases h with
  | inFlight _ h | queued _ h | refused _ _ _ h =>
    rw [h.held]
    exact Nat.le_succ _
  | running _ _ h =>
    rw [h.held]
    simp [Crew.hold]

/-- The end of a load that the executor holds takes it out of the executor's hands. -/
theorem length_held_finish {l : Load} (hl : l ∈ c.crew.held) (o : Outcome) :
    (c.finish l o).2.crew.held.length < c.crew.held.length := by
  rw [(c.sameTasks_finish l o).held]
  show (c.crew.held.filter fun l' => !(l'.id == l.id)).length < _
  refine List.length_filter_lt_length_iff_exists.2 ⟨l, hl, ?_⟩
  simp

/-- Within a scan, the list gets shorter by what the poller offers. -/
theorem length_scanLeft_after {m : Move} {due : List Request}
    (hp : c.poller.phase = .scanning due) (hm : WithinScan c m) :
    (c.pollerOffers? m).toList.length + (c.after m).scanLeft.length = c.scanLeft.length := by
  obtain ⟨left, hleft, hperm⟩ := scanning_after hp hm
  have hlength := hperm.length_eq
  rw [List.length_append] at hlength
  simpa only [scanLeft, hleft, hp] using hlength

/-- A visit brings a scan nearer to its end. -/
theorem scanToGo_visit {r : Request} (hv : c.canVisit r = true) :
    (c.after (.visit r)).scanToGo < c.scanToGo := by
  have ho : c.pollerOffers? (.visit r) = some r := pollerOffers?_eq_some_iff.2 ⟨rfl, hv⟩
  obtain ⟨o, -, hcomes⟩ := comes_of_pollerOffers? ho
  have hheld := hcomes.length_held_le
  have hlength := length_scanLeft_after (scanning_of_canVisit hv) (c.withinScan_visit r)
  rw [ho] at hlength
  simp only [Option.toList_some, List.length_singleton] at hlength
  unfold scanToGo
  omega

/-- So does the end of a reload that runs on the poller's own thread. -/
theorem scanToGo_finish (hc : c.Accounted) {due : List Request} {l : Load} {v : Value}
    (hp : c.poller.phase = .scanning due) (hl : l ∈ c.crew.held)
    (hm : WithinScan c (.finish l.id (.value v false))) :
    (c.after (.finish l.id (.value v false))).scanToGo < c.scanToGo := by
  have hload : c.load? l.id = some l := hc.load?_of_mem (List.mem_append_right _ hl)
  have hlength := length_scanLeft_after hp hm
  have hheld := length_held_finish hl (.value v false)
  rw [← after_finish hload] at hheld
  unfold scanToGo
  omega

/-- A scan that is not done can be brought nearer to its end. -/
theorem exists_nearer (hc : c.Accounted) {due : List Request}
    (hp : c.poller.phase = .scanning due) (hd : ¬ c.ScanDone) :
    ∃ m, BringsOn m ∧ (c.after m).scanToGo < c.scanToGo := by
  cases hbusy : c.pollerBusy with
  | true =>
    obtain ⟨l, hl, -⟩ := List.any_eq_true.1 hbusy
    have hm : BringsOn (.finish l.id (.value "" false)) := .finish ..
    exact ⟨_, hm, scanToGo_finish hc hp hl (hm.withinScan c)⟩
  | false =>
    cases due with
    | nil => exact absurd ⟨hp, hbusy⟩ hd
    | cons r due =>
      have hv : c.canVisit r = true := by simp [canVisit, scanLeft, hp, hbusy]
      exact ⟨.visit r, .visit r, scanToGo_visit hv⟩

/-- A scan needs nothing else to come to its end. -/
theorem exists_bringsOn (hc : c.Accounted) {due : List Request}
    (hp : c.poller.phase = .scanning due) :
    ∃ rest, Along (fun _ => BringsOn) c rest ∧ (c.run rest).ScanDone := by
  induction hn : c.scanToGo using Nat.strongRecOn generalizing c due with
  | ind n ih =>
    by_cases hd : c.ScanDone
    · exact ⟨[], trivial, hd⟩
    · obtain ⟨m, hm, hlt⟩ := exists_nearer hc hp hd
      obtain ⟨left, hleft, -⟩ := scanning_after hp (hm.withinScan c)
      obtain ⟨rest, hrest, hdone⟩ := ih _ (hn ▸ hlt) (hc.after m) hleft rfl
      exact ⟨m :: rest, ⟨hm, hrest⟩, hdone⟩

/-- **A scan that is under way** can be brought to its end. -/
theorem exists_scanDone (hc : c.Accounted) {due : List Request}
    (hp : c.poller.phase = .scanning due) :
    ∃ rest, Along WithinScan c rest ∧ (c.run rest).ScanDone := by
  obtain ⟨rest, hrest, hdone⟩ := exists_bringsOn hc hp
  exact ⟨rest, hrest.mono fun c _ h => h.withinScan c, hdone⟩

/-- A scan that has begun can be brought to its end, whatever has come of its offers so far. -/
theorem exists_scans (hc : c.Reachable) {ms : List Move} (h : c.ScansAlong ms) :
    ∃ rest, c.Scans (ms ++ rest) := by
  obtain ⟨left, hleft, -⟩ := h.scanning
  have hacc := ((accounted_of_reachable hc).after .beginScan).run ms
  obtain ⟨rest, hrest, hdone⟩ := exists_scanDone hacc hleft
  refine ⟨rest, ⟨h.begins, along_append.2 ⟨h.goesOn, hrest⟩⟩, ?_⟩
  rwa [run_append]

end Progress

/-! ## From one scan to the next -/

/-- A move is the end of a load that counts as a refresh of a request: the load is of its family,
and has a value, or fails where the policy has the stale value written back as fresh. -/
inductive Renews (c : Cache) (q : Request) : Move → Prop
  | value (l : Load) (v : Value) (cacheable : Bool) (hl : c.load? l.id = some l)
      (hf : l.request.family = q.family) : Renews c q (.finish l.id (.value v cacheable))
  | writtenBack (l : Load) (e : Entry) (f : Failure) (hl : c.load? l.id = some l)
      (hf : l.request.family = q.family) (stale : l.stale = some e)
      (asFresh : (cell l).cache = .cacheFresh) : Renews c q (.finish l.id (.failure f))

/-- Every scan that begins from now on offers a request once, as long as it is registered and
no load has renewed it. -/
def OfferedByEveryScan (c : Cache) (q : Request) : Prop :=
  ∀ before ms, Along (fun c m => c.Allows m ∧ ¬ c.Renews q m) c before →
    (c.run before).Registered q → (c.run before).Scans ms →
      ((c.run before).offeredIn ms).count q = 1

section Retry

variable {c : Cache} {m : Move} {q : Request}

/-- A load renews its family when its end counts as a refresh. -/
theorem renews_iff : c.Renews q m ↔ ∃ l o, c.load? l.id = some l ∧ m = .finish l.id o ∧
    refreshes l o = true ∧ l.request.family = q.family := by
  constructor
  · intro h
    cases h with
    | value l v cacheable hl hf => exact ⟨l, _, hl, rfl, rfl, hf⟩
    | writtenBack l e f hl hf stale asFresh =>
      exact ⟨l, _, hl, rfl, by simp [refreshes, stale, asFresh], hf⟩
  · rintro ⟨l, o, hl, rfl, ho, hf⟩
    cases o with
    | value v cacheable => exact .value l v cacheable hl hf
    | failure f =>
      simp only [refreshes, Bool.and_eq_true, beq_iff_eq, Option.isSome_iff_exists] at ho
      obtain ⟨⟨e, stale⟩, asFresh⟩ := ho
      exact .writtenBack l e f hl hf stale asFresh
    | panic text => cases ho

/-- A refresh is dated by the clock, which a 64-bit mark can hold within the first lap. Zero
stands for never. -/
theorem Renews.marks_after (h : c.Renews q m) (hn : c.now < Clock.lap) :
    (c.after m).marks q.family = some (max 1 c.now) := by
  obtain ⟨l, o, hl, rfl, ho, hf⟩ := renews_iff.1 h
  rw [after_finish hl, marks_finish_eq, if_pos ⟨ho, hf.symm⟩, markNow, Clock.wrap_of_lt hn]

/-- What is overdue stays so until it is renewed. -/
theorem Overdue.after (h : c.Overdue q) (hm : ¬ c.Renews q m) : (c.after m).Overdue q := by
  intro t ht
  have hn := c.now_le_after m
  have hstep := c.markStep_after m q.family
  rw [ht] at hstep
  generalize hmark : some t = mark at hstep
  cases hstep with
  | same => exact Nat.lt_of_lt_of_le (h t hmark.symm) hn
  | refreshed l o hl hfin ho hf => exact absurd (renews_iff.2 ⟨l, o, hl, hfin, ho, hf.symm⟩) hm
  | reset => cases hmark

/-- What is overdue stays so until it is renewed. -/
theorem overdue_run {ms : List Move} (h : c.Overdue q)
    (hms : Along (fun c m => ¬ c.Renews q m) c ms) : (c.run ms).Overdue q :=
  hms.preserves (fun _ _ => Overdue.after) h

/-- Each request that is registered and overdue is offered once. -/
theorem count_offeredIn (hc : c.Reachable) {ms : List Move} (hms : c.Scans ms)
    (hq : c.Registered q) (ho : c.Overdue q) : (c.offeredIn ms).count q = 1 := by
  rw [(perm_offeredIn hms).count_eq]
  exact List.count_eq_one_of_mem (nodup_dueRequests hc) (mem_dueRequests_iff_overdue.2 ⟨hq, ho⟩)

/-- A request that is overdue is offered by every scan until it is renewed. -/
theorem offeredByEveryScan_of_overdue (hc : c.Reachable) (ho : c.Overdue q) :
    c.OfferedByEveryScan q := by
  intro before ms hbefore hq hms
  have hc' : (c.run before).Reachable := hc.run (hbefore.mono fun _ _ h => h.1)
  have ho' : (c.run before).Overdue q := overdue_run ho (hbefore.mono fun _ _ h => h.2)
  exact count_offeredIn hc' hms hq ho'

/-- Resets take away the marks of all that they reset, and set none. -/
theorem marks_foldl_resetMark {f : Nat} (regs : List Registration) (c : Cache)
    (h : c.marks f = none ∨ f ∈ regs.map (·.request.family)) :
    (regs.foldl (fun c reg => c.resetMark reg.request.family) c).marks f = none := by
  induction regs generalizing c with
  | nil => simpa using h
  | cons reg regs ih =>
    refine ih _ ?_
    show (if f = reg.request.family then none else c.marks f) = none ∨ _
    by_cases hf : f = reg.request.family
    · exact .inl (if_pos hf)
    · rw [if_neg hf]
      simpa [hf] using h

/-- A reset of everything takes the mark of whatever is registered. -/
theorem marks_resetAll {k : Key} (hq : c.poller.registry.request? k = some q) :
    c.resetAll.marks q.family = none := by
  simp only [Registry.request?, Option.map_eq_some_iff, Table.find?_eq_some_iff] at hq
  obtain ⟨reg, hreg, rfl⟩ := hq
  refine marks_foldl_resetMark _ c (.inr ?_)
  exact List.mem_map.2 ⟨reg, List.mem_map.2 ⟨_, hreg, rfl⟩, rfl⟩

/-- A move that resets a request takes its mark away, and the request is registered after it. -/
theorem Resets.after (h : Resets c q m) :
    (c.after m).marks q.family = none ∧ (c.after m).Registered q := by
  cases h with
  | removed k hk =>
    constructor
    · show ((c.resetRegistered k).drop k).2.marks q.family = none
      rw [(storeOnly_drop ..).marks, resetRegistered, hk]
      exact if_pos rfl
    · refine ⟨k, ?_⟩
      rwa [show (c.after (.remove k)).poller = c.poller from (c.storeAndMarks_remove k).poller]
  | removedAll k hk =>
    have hpoller : c.dropAll.poller = c.poller := c.storeOnly_dropAll.poller
    constructor
    · exact marks_resetAll (by rwa [hpoller])
    · refine ⟨k, ?_⟩
      rwa [show (c.after .removeAll).poller = c.poller from c.storeAndMarks_removeAll.poller]
  | replaces old isOpen hk changes =>
    have hafter : c.after (.schedule q) = (c.resetMark q.family).enroll q := by
      simp only [after, schedule, register, isOpen, hk, changes, Bool.false_eq_true, if_false]
    rw [hafter]
    constructor
    · rw [(pollerOnly_enroll ..).marks]
      exact if_pos rfl
    · refine ⟨q.key, ?_⟩
      rw [poller_enroll, Poller.enrolled_registry, Registry.request?_insert, if_pos rfl]

/-- A request whose mark was taken away is overdue. -/
theorem Resets.overdue_after (h : Resets c q m) : (c.after m).Overdue q := by
  intro t ht
  rw [h.after.1] at ht
  cases ht

end Retry

/-- **A scan offers exactly what is due.** In every cache that can be reached:

1. a scan offers each request once that is registered and was never refreshed, or longer ago than
   its soft lifetime, and it offers no other;
2. each is offered when the poller comes to it, with what a lookup of its key finds then;
3. what comes of some of the offers makes no difference to the others: at any time, the scan has
   left what was due and was not offered yet, and it can be brought to its end;
4. a request that is overdue is offered by every scan, as long as it is registered, until a load
   of it has a value, or fails and has its stale value written back as fresh, whatever else
   becomes of its reloads;
5. so is a request whose entry was removed, or that has taken the place of another;
6. such loads date the refresh by the clock, in its first lap. -/
theorem scan_offers_what_is_due {c : Cache} (hc : c.Reachable) :
    (∀ ms, c.Scans ms → ∀ q,
      (c.Registered q ∧ c.Overdue q → (c.offeredIn ms).count q = 1) ∧
      (q ∈ c.offeredIn ms → c.Registered q ∧ c.Overdue q)) ∧
    (∀ (c' : Cache) m r, c'.pollerOffers? m = some r →
      ∃ o, c'.offered? m = some (r, o) ∧ Comes c' r (c'.lookup r.key).1 true (c'.after m) o) ∧
    (∀ ms, c.ScansAlong ms →
      (c.offeredIn ms ++ ((c.after .beginScan).run ms).scanLeft).Perm c.dueRequests ∧
        ∃ rest, c.Scans (ms ++ rest)) ∧
    (∀ q, c.Overdue q → c.OfferedByEveryScan q) ∧
    (∀ q m, Resets c q m → c.Allows m →
      (c.after m).Registered q ∧ (c.after m).OfferedByEveryScan q) ∧
    (∀ q m, c.Renews q m → c.now < Clock.lap →
      (c.after m).marks q.family = some (max 1 c.now)) := by
  refine ⟨fun ms hms q => ⟨fun hq => ?_, fun hq => ?_⟩, ?_, ?_, ?_, ?_, ?_⟩
  · exact count_offeredIn hc hms hq.1 hq.2
  · exact mem_dueRequests_iff_overdue.1 ((perm_offeredIn hms).mem_iff.1 hq)
  · intro c' m r h
    exact comes_of_pollerOffers? h
  · intro ms h
    exact ⟨perm_run_within h, exists_scans hc h⟩
  · intro q ho
    exact offeredByEveryScan_of_overdue hc ho
  · intro q m hreset hm
    exact ⟨hreset.after.2, offeredByEveryScan_of_overdue (hc.after hm) hreset.overdue_after⟩
  · intro q m h hn
    exact h.marks_after hn

/-- A registered request, and the first deadline. -/
def untilDeadline : List Move := [.schedule profile, .tick minPollInterval]

/-- The executor takes nothing, so that the scan is in vain, and the next deadline comes. -/
def scannedInVain : List Move :=
  [.beginScan, .visit profile, .endScan, .tick (2 * minPollInterval)]

/-- A request whose reload is refused is offered again by the next scan. -/
theorem scan_offers_what_is_due_refused :
    (((overMap (.declining .saturated)).run untilDeadline).offeredIn [.visit profile]).count
      profile = 1 ∧
    (((overMap (.declining .saturated)).run (untilDeadline ++ scannedInVain)).offeredIn
      [.visit profile]).count profile = 1 := by
  have hc : ((overMap (.declining .saturated)).run untilDeadline).Reachable :=
    (reachable_overMap _).run ⟨profile_wellFormed, trivial, trivial⟩
  have hscan {c : Cache} (hbegins : ∃ deadline, c.poller.phase = .waiting deadline ∧
      deadline ≤ c.now) (hdone : ((c.after .beginScan).run [.visit profile]).ScanDone) :
      c.Scans [.visit profile] :=
    ⟨⟨hbegins, withinScan_visit _ _, trivial⟩, hdone⟩
  obtain ⟨-, -, -, hretried, -, -⟩ := scan_offers_what_is_due hc
  have hoffered := hretried profile (isDue_iff.1 (by decide))
  constructor
  · exact hoffered [] _ trivial ⟨"profile", by decide⟩
      (hscan ⟨minPollInterval, rfl, Nat.le_refl _⟩ ⟨rfl, rfl⟩)
  · rw [run_append]
    refine hoffered scannedInVain _ ?_ ⟨"profile", by decide⟩
      (hscan ⟨2 * minPollInterval, rfl, Nat.le_refl _⟩ ⟨rfl, rfl⟩)
    exact ⟨⟨trivial, nofun⟩, ⟨trivial, nofun⟩, ⟨trivial, nofun⟩, ⟨trivial, nofun⟩, trivial⟩

end Evergreen.Cache
