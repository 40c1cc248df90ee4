import Evergreen.Proofs.Crews
import Evergreen.Proofs.Endurance
import Evergreen.Proofs.LocalSteps
import Evergreen.Proofs.Scans

/-!
# The order of a scan

A scan takes down what is due in no particular order. What it does about one request is local to
the key of that request, and so is the reload that comes of it; the keys are all different. So it
makes no difference in which order the poller comes to the requests, or in which order the
reloads are run, but for the order of what stands in the queue and in the journal.

- `Does.agree`: the same deeds in any order, with the same cells left, lead to the same;
- `does_foldl`: local steps about different keys, one after the other;
- `local_lookAndOffer`, `exists_scan_deeds`: visits of the poller, and scans;
- `local_handBack`, `exists_run_deeds`: ends of reloads, and reloads one after the other;
- `scan_order_irrelevant`: two scans that differ in their order, and two orders of the reloads.
-/

namespace Evergreen.Cache

/-! ## The same in any order -/

/-- Two caches agree in all cells, in what was counted and marked, and in the calls of the
store. -/
structure Agree (c d : Cache) : Prop extends SameSetting c d where
  cell : ∀ k, d.cell? k = c.cell? k
  calls : ∀ op, d.backing.calls op = c.backing.calls op
  counters : ∀ n, d.counters n = c.counters n
  marks : ∀ f, d.marks f = c.marks f

theorem Agree.refl (c : Cache) : Agree c c :=
  ⟨.refl c, fun _ => rfl, fun _ => rfl, fun _ => rfl, fun _ => rfl⟩

/-- **The same deeds in any order** lead from caches that agree to caches that agree, if the same
cells are left. -/
theorem Does.agree {ks ks' : List Key} {ds ds' : List Deed} {x x' y y' : Cache}
    (hx : Does ks ds x x') (hy : Does ks' ds' y y') (hxy : Agree x y) (hds : ds.Perm ds')
    (hks : ks.Perm ks') (hcell : ∀ k ∈ ks, y'.cell? k = x'.cell? k) : Agree x' y' where
  now := by rw [hy.now, hxy.now, hx.now]
  executor := by rw [hy.executor, hxy.executor, hx.executor]
  room := by rw [hy.room, hxy.room, hx.room]
  refusal := by rw [hy.refusal, hxy.refusal, hx.refusal]
  forecast := by rw [hy.forecast, hxy.forecast, hx.forecast]
  kind := by rw [hy.kind, hxy.kind, hx.kind]
  cell k := by
    by_cases hk : k ∈ ks
    · exact hcell k hk
    · rw [hy.cell k (mt hks.mem_iff.2 hk), hxy.cell, hx.cell k hk]
  calls op := by rw [hy.calls, hx.calls, hxy.calls, hds.count_eq]
  counters n := by rw [hy.counters, hx.counters, hxy.counters, hds.count_eq]
  marks f := by
    rw [hy.marks, hx.marks, hxy.marks, markNow_congr hxy.now]
    simp only [hds.mem_iff]

/-! ## One after the other -/

section Steps

variable {ι : Type} {b : Cache} {key : ι → Key} {deeds : ι → List Deed} {cell : ι → Cell}
  {step : Cache → ι → Cache} {Ready : Cache → List ι → Prop}
  {R : List Key → List Deed → Cache → Cache → Prop}

/-- **Local steps about different keys.** Each does in its turn what it would have done at the
beginning: the steps before it have left its cell alone. -/
theorem does_foldl (hrefl : ∀ d, R [] [] d d)
    (htrans : ∀ {ks ks' ds ds' c d e}, R ks ds c d → R ks' ds' d e →
      R (ks ++ ks') (ds ++ ds') c e)
    (hdoes : ∀ {ks ds c d}, R ks ds c d → Does ks ds c d)
    (hstep : ∀ d i is, Ready d (i :: is) → SameSetting b d → d.cell? (key i) = b.cell? (key i) →
      R [key i] (deeds i) d (step d i) ∧ (step d i).cell? (key i) = cell i ∧
        Ready (step d i) is)
    {is : List ι} (hkeys : (is.map key).Nodup) {d : Cache} (hready : Ready d is)
    (hd : SameSetting b d) (hcells : ∀ i ∈ is, d.cell? (key i) = b.cell? (key i)) :
    R (is.map key) (is.flatMap deeds) d (is.foldl step d) ∧
      (∀ i ∈ is, (is.foldl step d).cell? (key i) = cell i) ∧ Ready (is.foldl step d) [] := by
  induction is generalizing d with
  | nil => exact ⟨hrefl d, nofun, hready⟩
  | cons i is ih =>
    simp only [List.map_cons, List.nodup_cons] at hkeys
    obtain ⟨hi, hkeys⟩ := hkeys
    obtain ⟨hfirst, hcell, hready⟩ := hstep d i is hready hd (hcells i (.head _))
    have hne : ∀ j ∈ is, key j ∉ [key i] := fun j hj hk =>
      hi (List.mem_singleton.1 hk ▸ List.mem_map_of_mem hj)
    obtain ⟨hrest, hlater, hend⟩ := ih hkeys hready (hd.trans (hdoes hfirst).toSameSetting)
      fun j hj => ((hdoes hfirst).cell _ (hne j hj)).trans (hcells j (.tail _ hj))
    refine ⟨htrans hfirst hrest, fun j hj => ?_, hend⟩
    rcases List.mem_cons.1 hj with rfl | hj
    · exact ((hdoes hrest).cell _ hi).trans hcell
    · exact hlater j hj

end Steps

/-! ## Visits -/

/-- What the poller does about a request once it is off the list. -/
def lookAndOffer (c : Cache) (r : Request) : Cache :=
  match (c.lookup r.key).2.offer r (c.lookup r.key).1 true with
  | (.done o, c) => c.record (.refreshOffered r.key o)
  | (.running _, c) => c

theorem visit_lookAndOffer {c : Cache} {due : List Request} (h : c.poller.phase = .scanning due)
    (r : Request) :
    (c.visit r).2 =
      { c with poller := { c.poller with phase := .scanning (due.erase r) } }.lookAndOffer r := by
  rw [visit_eq h]
  unfold visited visitFinds lookAndOffer
  obtain ⟨o, c'⟩ := Cache.offer _ r _ true
  cases o <;> rfl

/-- The executor has any number of hands and puts every task in its queue, however many wait. -/
structure QueuesAll (c : Cache) : Prop where
  executor : c.executor = .threads ∨ c.executor = .byHand none
  isOpen : c.crew.refusal = none

section Visits

variable {b c : Cache}

theorem QueuesAll.not_inPlace (h : c.QueuesAll) : c.executor ≠ .inPlace := by
  rcases h.executor with hx | hx <;> rw [hx] <;> nofun

theorem QueuesAll.crew_eq (h : c.QueuesAll) : c.executor.crew = {} := by
  rcases h.executor with hx | hx <;> rw [hx] <;> rfl

theorem QueuesAll.congr (h : b.QueuesAll) (hs : SameSetting b c) : c.QueuesAll :=
  ⟨hs.executor ▸ h.executor, hs.refusal ▸ h.isOpen⟩

theorem local_lookAndOffer (hf : c.backing.forecast.Steady) (hq : c.QueuesAll) (hs : c.Staffed)
    (r : Request) : Local c r.key fun d => ((), d.lookAndOffer r) := by
  have hroom : c.crew.room = none := by rw [hs.room, hq.crew_eq]
  refine Local.congr (((local_lookup hf).bind fun stale =>
    local_offer hq.not_inPlace hroom hq.isOpen r stale).bind (f := fun o d => ((), match o with
      | .done o => d.record (.refreshOffered r.key o)
      | .running _ => d)) fun o => ?_) fun d _ => ?_
  · cases o with
    | done o => exact local_record () _
    | running l => exact .pure ()
  · unfold lookAndOffer
    obtain ⟨o, d'⟩ := Cache.offer _ r _ true
    cases o <;> rfl

/-- The poller has these requests left, in some order, and its thread is free. -/
structure HasLeft (b d : Cache) (rs : List Request) : Prop where
  poller : ∃ left, d.poller = { b.poller with phase := .scanning left } ∧ left.Perm rs
  free : d.pollerBusy = false

/-- A visit of one of them takes it off the list, and then looks it up and offers it. -/
theorem HasLeft.after_visit {d : Cache} {r : Request} {rs : List Request}
    (h : HasLeft b d (r :: rs)) :
    ∃ left, left.Perm rs ∧
      (d.after (.visit r)).poller = { b.poller with phase := .scanning left } ∧
      d.after (.visit r) =
        { d with poller := { b.poller with phase := .scanning left } }.lookAndOffer r := by
  obtain ⟨⟨left, hp, hleft⟩, hfree⟩ := h
  have hphase : d.poller.phase = .scanning left := by rw [hp]
  have hscan : d.scanLeft = left := by simp only [scanLeft, hphase]
  have hcan : d.canVisit r = true := by simp [canVisit, hscan, hfree, hleft.mem_iff]
  have hafter : d.after (.visit r) = (d.visit r).2 := if_pos hcan
  refine ⟨left.erase r, ?_, ?_, ?_⟩
  · simpa using hleft.erase r
  · rw [hafter, poller_visit hcan, hscan, hp]
  · rw [hafter, visit_lookAndOffer hphase, hp]

theorem doesOnly_poller (c : Cache) (p : Poller) : DoesOnly [] [] c { c with poller := p } :=
  { DoesOnly.refl [] c with }

/-- What a scan does about each request, and what it leaves in the cell of its key. -/
theorem exists_visit_deeds (hf : b.backing.forecast.Steady) (hq : b.QueuesAll) (hs : b.Staffed) :
    ∃ (deeds : Request → List Deed) (cell : Request → Cell), ∀ d r rs, HasLeft b d (r :: rs) →
      SameSetting b d → d.cell? r.key = b.cell? r.key →
      DoesOnly [r.key] (deeds r) d (d.after (.visit r)) ∧
        (d.after (.visit r)).cell? r.key = cell r ∧ HasLeft b (d.after (.visit r)) rs := by
  choose _ deeds cell hdoes using fun r => local_lookAndOffer hf hq hs r (b.cell? r.key)
  refine ⟨deeds, cell, fun d r rs hleft hd hx => ?_⟩
  obtain ⟨left, hperm, hpoller, hafter⟩ := hleft.after_visit
  have hmoved := d.doesOnly_poller { b.poller with phase := .scanning left }
  obtain ⟨-, hlook, hcell⟩ := hdoes r _ (hd.trans hmoved.toSameSetting) hx
  have honly : DoesOnly [r.key] (deeds r) d (d.after (.visit r)) := by
    rw [hafter]
    exact hmoved.trans hlook
  refine ⟨honly, by rwa [hafter], ⟨left, hpoller, hperm⟩, ?_⟩
  unfold pollerBusy
  rw [honly.held]
  exact hleft.free

end Visits

/-! ## Scans -/

/-- A scan that begins now and comes to requests in some order. -/
def scan (c : Cache) (order : List Request) : Cache :=
  ((c.after .beginScan).run (order.map .visit)).after .endScan

/-- What the end of a scan adds: its count and, if the poller has been closed, a note. -/
def endDeeds (p : Poller) : List Deed :=
  .counted .schedulerTicks :: if p.closed then [.noted .pollerStopped] else []

section Scans

variable {b c d : Cache}

theorem run_map {ι : Type} (f : ι → Move) (c : Cache) (is : List ι) :
    c.run (is.map f) = is.foldl (fun d i => d.after (f i)) c := by
  induction is generalizing c with
  | nil => rfl
  | cons i is ih => exact ih (c.after (f i))

theorem doesOnly_endScan (h : HasLeft b d []) :
    DoesOnly [] (endDeeds b.poller) d (d.after .endScan) ∧
      (d.after .endScan).poller =
        if b.poller.closed then { b.poller with phase := .finished } else b.poller.await d.now := by
  obtain ⟨⟨left, hp, hleft⟩, hfree⟩ := h
  rw [List.perm_nil.1 hleft] at hp
  have hafter : d.after .endScan = d.endScan := if_neg (by simp [hfree])
  have hcounted : (d.count .schedulerTicks).poller = { b.poller with phase := .scanning [] } := hp
  have hcount : DoesOnly [] [.counted .schedulerTicks] d (d.count .schedulerTicks) :=
    doesOnly_count ..
  rw [hafter]
  simp only [endScan, endDeeds, hp, hcounted]
  by_cases hclosed : b.poller.closed = true
  · simp only [if_pos hclosed]
    exact ⟨(hcount.trans (doesOnly_poller ..)).trans (doesOnly_record ..), rfl⟩
  · simp only [if_neg hclosed]
    exact ⟨hcount.trans (doesOnly_poller ..), rfl⟩

/-- The beginning of a scan changes the poller and nothing that operations go by. -/
theorem sameSetting_beginScan (c : Cache) : SameSetting c (c.after .beginScan) := by
  have hbegun := c.pollerOnly_beginScan
  exact ⟨hbegun.now, hbegun.executor, congrArg Crew.room hbegun.crew,
    congrArg Crew.refusal hbegun.crew, congrArg Backing.forecast hbegun.backing,
    congrArg (·.store.isMemory) hbegun.backing⟩

/-- Where no task runs in place, the poller's thread is always free. -/
theorem pollerBusy_eq_false (hc : c.Reachable) (hx : c.executor ≠ .inPlace) :
    c.pollerBusy = false := by
  rw [pollerBusy, List.any_eq_false]
  intro l hl hseat
  refine hx (lendsInPlace_of_reachable hc l (List.mem_append_right _ hl) ?_)
  rw [eq_of_beq hseat]
  rfl

/-- **What a scan does is the same in any order:** the deeds for each request, and what it leaves
in the cells, do not depend on when the poller comes to it. -/
theorem exists_scan_deeds (hc : c.Reachable) (hf : c.backing.forecast.Steady) (hq : c.QueuesAll)
    {deadline : Nat} (hp : c.poller.phase = .waiting deadline) (hd : deadline ≤ c.now) :
    ∃ (deeds : Request → List Deed) (cell : Request → Cell) (last : List Deed) (p : Poller),
      ∀ order, order.Perm c.dueRequests →
        DoesOnly (order.map Request.key) (order.flatMap deeds ++ last) (c.after .beginScan)
            (c.scan order) ∧
          (∀ r ∈ order, (c.scan order).cell? r.key = cell r) ∧ (c.scan order).poller = p := by
  have hphase := phase_beginScan hp hd
  have hkeys := nodup_keys_dueRequests hc
  generalize c.dueRequests = due at hphase hkeys ⊢
  have hset := c.sameSetting_beginScan
  have hb : (c.after .beginScan).Reachable := hc.after trivial
  unfold scan
  generalize c.after .beginScan = b at *
  have hqueues : b.QueuesAll := hq.congr hset
  have hsteady : b.backing.forecast.Steady := hset.forecast ▸ hf
  obtain ⟨deeds, cell, hvisit⟩ :=
    exists_visit_deeds hsteady hqueues (staffed_of_reachable hb)
  refine ⟨deeds, cell, endDeeds b.poller, if b.poller.closed then
    { b.poller with phase := .finished } else b.poller.await b.now, fun order horder => ?_⟩
  -- the requests that the poller has left are those of the order, however it has listed them
  have hleft : HasLeft b b order :=
    ⟨⟨due, by rw [← hphase], horder.symm⟩, pollerBusy_eq_false hb hqueues.not_inPlace⟩
  obtain ⟨hdoes, hcells, hdone⟩ := does_foldl (.refl []) .trans DoesOnly.toDoes
    (fun d r rs => hvisit d r rs) ((horder.map Request.key).nodup_iff.2 hkeys) hleft (.refl _)
    fun _ _ => rfl
  rw [run_map]
  obtain ⟨hend, hpoller⟩ := doesOnly_endScan hdone
  refine ⟨by simpa using hdoes.trans hend, fun r hr => ?_, ?_⟩
  · rw [hend.cell _ List.not_mem_nil, hcells r hr]
  · rw [hpoller, hdoes.now]

end Scans

/-! ## Reloads, one after the other -/

/-- A hand takes up a reload that waits, and the loader returns at once. -/
def runTask (outcome : Reload → Outcome) (c : Cache) (t : Reload) : Cache :=
  c.run [.start (c.crew.waiting.idxOf t), .finish c.nextLoad (outcome t)]

/-- Reloads that wait are run one after the other. -/
def runTasks (c : Cache) (outcome : Reload → Outcome) (ts : List Reload) : Cache :=
  ts.foldl (runTask outcome) c

/-- The end of a load that a hand has had, once the hand is free again. -/
def handBack (c : Cache) (l : Load) (o : Outcome) : Cache :=
  match c.settle l o with
  | (.failed fault, c) => (c.record (.failureDropped fault l.key)).clearInFlight l.key
  | (_, c) => c.clearInFlight l.key

section Tasks

variable {b c d : Cache} {t : Reload} {outcome : Reload → Outcome}

theorem finish_worker (hq : c.QueuesAll) {l : Load} (hl : l.seat = .worker) (o : Outcome) :
    (c.finish l o).2 = (c.leave l).handBack l o := by
  have hexecutor : ((c.leave l).settle l o).2.executor = c.executor :=
    ((c.leave l).storeAndMarks_settle l o).executor
  have hplain := hq.executor
  rw [← hexecutor] at hplain
  unfold finish handBack
  generalize (c.leave l).settle l o = p at hplain ⊢
  obtain ⟨ending, c'⟩ := p
  rw [hl]
  cases ending with
  | returned v => rfl
  | failed fault => rfl
  | panicked text =>
    have hcleared : (c'.clearInFlight l.key).executor = c'.executor := rfl
    dsimp only at hplain ⊢
    rcases hplain with hx | hx <;> rw [hcleared, hx]

/-- The cache once a reload of a key has ended, with its failure noted if it has failed. -/
def closed (c : Cache) (k : Key) : Ending → Cache
  | .failed fault => (c.record (.failureDropped fault k)).clearInFlight k
  | _ => c.clearInFlight k

/-- **The end of a reload is local to its key.** -/
theorem local_handBack (hf : c.backing.forecast.Steady) (l : Load) (o : Outcome) :
    Local c l.key fun d => ((), d.handBack l o) := by
  refine Local.congr ((local_settle hf l o).bind (f := fun ending d => ((), d.closed l.key ending))
    fun ending => ?_) fun d _ => ?_
  · cases ending with
    | returned _ => exact local_clearInFlight _
    | failed fault => exact (local_record () _).bind fun _ => local_clearInFlight _
    | panicked _ => exact local_clearInFlight _
  · unfold handBack
    obtain ⟨ending, d'⟩ := d.settle l o
    cases ending <;> rfl

/-- The number of a load tells it apart from others, and makes no difference to its end. -/
theorem handBack_renumbered (c : Cache) (l : Load) (id : Nat) (o : Outcome) :
    c.handBack { l with id } o = c.handBack l o := by
  cases o <;> rfl

/-- The load of a reload that a hand takes up, but for its number. -/
def loadOf (now : Nat) (t : Reload) : Load :=
  { id := 0, request := t.request, stale := t.stale, seat := .worker, started := now }

/-- A hand has taken up a reload. -/
def taken (c : Cache) (t : Reload) : Cache :=
  ({ c with crew := { c.crew with waiting := c.crew.waiting.erase t } }.enter
    t.request t.stale .worker).2

theorem after_start_idxOf (hs : c.Staffed) (hq : c.QueuesAll) (ht : t ∈ c.crew.waiting) :
    c.after (.start (c.crew.waiting.idxOf t)) = c.taken t := by
  have hidle : (c.crew.idle && (!c.crew.inOrder || c.crew.waiting.idxOf t == 0)) = true := by
    simp [Crew.idle, hs.hands, hs.inOrder, hq.crew_eq]
  simp only [after, start?_eq, if_pos hidle, List.getElem?_idxOf ht,
    List.eraseIdx_idxOf_eq_erase]
  rfl

theorem crew_handBack (c : Cache) (l : Load) (o : Outcome) : (c.handBack l o).crew = c.crew := by
  have hs := c.storeAndMarks_settle l o
  unfold handBack
  generalize c.settle l o = p at hs ⊢
  obtain ⟨ending, c'⟩ := p
  cases ending <;> exact hs.crew

/-- A reload that is run: a hand takes it up, is free again, and hands back its load. -/
theorem runTask_eq (hc : c.Reachable) (hq : c.QueuesAll) (ht : t ∈ c.crew.waiting) :
    runTask outcome c t =
      ((c.taken t).leave (c.nextOf t.request t.stale .worker)).handBack (loadOf c.now t)
        (outcome t) := by
  have hstart := after_start_idxOf (staffed_of_reachable hc) hq ht
  have htaken : (c.taken t).Reachable := hstart ▸ hc.after trivial
  have hq' : (c.taken t).QueuesAll := ⟨hq.executor, hq.isOpen⟩
  let l := c.nextOf t.request t.stale .worker
  have hl : l ∈ (c.taken t).loads :=
    List.mem_append_right _ (List.mem_append_right _ (.head _))
  have hload : (c.taken t).load? l.id = some l :=
    (accounted_of_reachable htaken).load?_of_mem hl
  calc runTask outcome c t = (c.taken t).after (.finish l.id (outcome t)) := by
        simp only [runTask, run, hstart]
        rfl
    _ = ((c.taken t).leave l).handBack l (outcome t) := by
        rw [after_finish hload, finish_worker hq' rfl]
    _ = ((c.taken t).leave l).handBack (loadOf c.now t) (outcome t) :=
        handBack_renumbered _ (loadOf c.now t) c.nextLoad _

/-- To be taken up changes no cell, and counts. -/
theorem does_taken (c : Cache) (t : Reload) (l : Load) :
    Does [] [.counted .backgroundLoads] c ((c.taken t).leave l) :=
  { (doesOnly_count c .backgroundLoads).toDoes with }

/-- What is left to be run: some of the tasks that wait. -/
structure HasWaiting (rest : List Reload) (d : Cache) (ts : List Reload) : Prop where
  reachable : d.Reachable
  queuesAll : d.QueuesAll
  waiting : d.crew.waiting.Perm (ts ++ rest)

/-- What a reload does, and what it leaves in the cell of its key. -/
theorem exists_task_deeds (hf : b.backing.forecast.Steady) (outcome : Reload → Outcome) :
    ∃ (deeds : Reload → List Deed) (cell : Reload → Cell), ∀ rest d t ts,
      HasWaiting rest d (t :: ts) → SameSetting b d → d.cell? t.key = b.cell? t.key →
      Does [t.key] (deeds t) d (runTask outcome d t) ∧
        (runTask outcome d t).cell? t.key = cell t ∧
        HasWaiting rest (runTask outcome d t) ts := by
  choose _ deeds cell hdoes using fun t =>
    local_handBack hf (loadOf b.now t) (outcome t) (b.cell? t.key)
  refine ⟨fun t => .counted .backgroundLoads :: deeds t, cell, fun rest d t ts h hset hcell => ?_⟩
  have ht : t ∈ d.crew.waiting := h.waiting.mem_iff.2 (.head _)
  have htaken := does_taken d t (d.nextOf t.request t.stale .worker)
  have hrun : runTask outcome d t = _ := runTask_eq h.reachable h.queuesAll ht
  obtain ⟨-, hback, hcell'⟩ := hdoes t _ (hset.trans htaken.toSameSetting) hcell
  rw [← hset.now] at hback hcell'
  have hdoes : Does [t.key] (.counted .backgroundLoads :: deeds t) d (runTask outcome d t) := by
    rw [hrun]
    exact htaken.trans hback.toDoes
  have hcrew : (runTask outcome d t).crew = ((d.taken t).leave _).crew :=
    hrun ▸ crew_handBack ..
  refine ⟨hdoes, by rwa [hrun], ⟨?_, h.queuesAll.congr hdoes.toSameSetting, ?_⟩⟩
  · exact h.reachable.run ⟨trivial, trivial, trivial⟩
  · have hwaiting : (d.crew.waiting.erase t).Perm (ts ++ rest) := by
      simpa using h.waiting.erase t
    rw [hcrew]
    exact hwaiting

/-- **What reloads do is the same in any order**, and from any cache of the same setting where
their cells are the same. -/
theorem exists_run_deeds (hf : b.backing.forecast.Steady) (outcome : Reload → Outcome) :
    ∃ (deeds : Reload → List Deed) (cell : Reload → Cell), ∀ rest d ts,
      HasWaiting rest d ts → SameSetting b d → (∀ t ∈ ts, d.cell? t.key = b.cell? t.key) →
      Does (ts.map Reload.key) (ts.flatMap deeds) d (d.runTasks outcome ts) ∧
        (∀ t ∈ ts, (d.runTasks outcome ts).cell? t.key = cell t) ∧
        (d.runTasks outcome ts).crew.waiting.Perm rest := by
  obtain ⟨deeds, cell, htask⟩ := exists_task_deeds hf outcome
  refine ⟨deeds, cell, fun rest d ts h hset hcells => ?_⟩
  -- no key has two tasks
  have hkeys : (ts.map Reload.key).Nodup := by
    have hnodup := (accounted_of_reachable h.reachable).nodup
    rw [taskKeys, List.nodup_append, (h.waiting.map Reload.key).nodup_iff, List.map_append,
      List.nodup_append] at hnodup
    exact hnodup.1.1
  obtain ⟨hdoes, hafter, hleft⟩ := does_foldl (.refl []) .trans id
    (fun d t ts => htask rest d t ts) hkeys h hset hcells
  have hrest := hleft.waiting
  rw [List.nil_append] at hrest
  exact ⟨hdoes, hafter, hrest⟩

end Tasks

/-! ## The order makes no difference -/

/-- Two caches have come to the same: the same in the store, the same reloads in flight, the same
refresh marks and the same counts. -/
structure SameOutcome (c d : Cache) : Prop where
  slots : ∀ k, d.backing.slot? k = c.backing.slot? k
  kind : d.backing.store.isMemory = c.backing.store.isMemory
  forecast : d.backing.forecast = c.backing.forecast
  storeCalls : d.backing.calls = c.backing.calls
  inFlight : d.inFlight.Perm c.inFlight
  marks : d.marks = c.marks
  counters : d.counters = c.counters

/-- Two caches have come to the same, and are the same but for the order of the queue and of the
journal. -/
structure SameButOrder (c d : Cache) : Prop extends SameOutcome c d where
  /-- Each task waits with the same stale entry. -/
  queue : d.crew.waiting.Perm c.crew.waiting
  journal : d.journal.Perm c.journal
  /-- The poller with its registry is the same, and so is everything else. -/
  rest : d = { c with
    backing := d.backing
    inFlight := d.inFlight
    crew := { c.crew with waiting := d.crew.waiting }
    journal := d.journal }

section Order

variable {c d : Cache}

theorem Agree.sameOutcome (h : Agree c d) : SameOutcome c d where
  slots k := congrArg Cell.slot (h.cell k)
  kind := h.kind
  forecast := h.forecast
  storeCalls := funext h.calls
  inFlight := List.perm_iff_count.2 fun k => congrArg Cell.inFlight (h.cell k)
  marks := funext h.marks
  counters := funext h.counters

/-- Where tasks, loads and the journal have only been added to, the additions can have come in
another order. -/
theorem DoesOnly.sameButOrder {ks ks' : List Key} {ds ds' : List Deed} {b : Cache}
    (hc : DoesOnly ks ds b c) (hd : DoesOnly ks' ds' b d) (hagree : Agree c d)
    (hds : ds'.Perm ds) (hpoller : d.poller = c.poller) : SameButOrder c d where
  toSameOutcome := hagree.sameOutcome
  queue := by
    rw [hd.waiting, hc.waiting]
    exact (hds.filterMap _).append_left _
  journal := by
    rw [hd.journal, hc.journal]
    exact (((List.reverse_perm _).trans (hds.filterMap _)).trans
      (List.reverse_perm _).symm).append_right _
  rest := by
    have hcrew : d.crew = { c.crew with waiting := d.crew.waiting } := by
      rw [Crew.mk.injEq]
      exact ⟨hagree.room, hd.hands.trans hc.hands.symm, hd.inOrder.trans hc.inOrder.symm,
        hagree.refusal, rfl, hd.held.trans hc.held.symm⟩
    rw [Cache.mk.injEq]
    exact ⟨hagree.now, hd.createdAt.trans hc.createdAt.symm, rfl, hagree.executor, hcrew, rfl,
      hd.callers.trans hc.callers.symm, hpoller, funext hagree.marks,
      hd.loaderCalls.trans hc.loaderCalls.symm, funext hagree.counters,
      hd.nextLoad.trans hc.nextLoad.symm, rfl⟩

theorem reachable_scan (hc : c.Reachable) (order : List Request) : (c.scan order).Reachable := by
  have hbegun : (c.after .beginScan).Reachable := hc.after trivial
  have hvisited : ((c.after .beginScan).run (order.map .visit)).Reachable := by
    rw [run_map]
    exact List.foldlRecOn order _ hbegun fun d hd r _ => hd.after trivial
  exact hvisited.after trivial

theorem scan_agree (hc : c.Reachable) (hf : c.backing.forecast.Steady) (hq : c.QueuesAll)
    {deadline : Nat} (hp : c.poller.phase = .waiting deadline) (hd : deadline ≤ c.now)
    {order order' : List Request} (h : order.Perm c.dueRequests)
    (h' : order'.Perm c.dueRequests) :
    Agree (c.scan order) (c.scan order') ∧ SameButOrder (c.scan order) (c.scan order') := by
  obtain ⟨deeds, cell, last, p, hscan⟩ := exists_scan_deeds hc hf hq hp hd
  obtain ⟨hx, hxcell, hxp⟩ := hscan order h
  obtain ⟨hy, hycell, hyp⟩ := hscan order' h'
  have horders : order.Perm order' := h.trans h'.symm
  have hdeeds := (horders.flatMap_right deeds).append_right last
  have hagree : Agree (c.scan order) (c.scan order') := by
    refine hx.toDoes.agree hy.toDoes (.refl _) hdeeds (horders.map _) fun k hk => ?_
    obtain ⟨r, hr, rfl⟩ := List.mem_map.1 hk
    rw [hxcell r hr, hycell r (horders.mem_iff.1 hr)]
  exact ⟨hagree, hx.sameButOrder hy hagree hdeeds.symm (hyp.trans hxp.symm)⟩

/-- A scan goes on in the setting in which it began. -/
theorem sameSetting_scan (hc : c.Reachable) (hf : c.backing.forecast.Steady) (hq : c.QueuesAll)
    {deadline : Nat} (hp : c.poller.phase = .waiting deadline) (hd : deadline ≤ c.now)
    {order : List Request} (h : order.Perm c.dueRequests) : SameSetting c (c.scan order) := by
  obtain ⟨deeds, cell, last, p, hscan⟩ := exists_scan_deeds hc hf hq hp hd
  exact c.sameSetting_beginScan.trans (hscan order h).1.toSameSetting

/-- Two caches that agree, with the same tasks in their queues, go on agreeing when these are
run, in whichever orders. -/
theorem Agree.runTasks (hcd : Agree c d) (hc : c.Reachable) (hd : d.Reachable)
    (hf : c.backing.forecast.Steady) (hq : c.QueuesAll)
    (hqueue : d.crew.waiting.Perm c.crew.waiting) (outcome : Reload → Outcome)
    {ts ts' : List Reload} (hts : ts.Subperm c.crew.waiting) (hts' : ts'.Perm ts) :
    Agree (c.runTasks outcome ts) (d.runTasks outcome ts') ∧
      (ts ++ (c.runTasks outcome ts).crew.waiting).Perm c.crew.waiting ∧
      (d.runTasks outcome ts').crew.waiting.Perm (c.runTasks outcome ts).crew.waiting := by
  obtain ⟨left, hleft, hsub⟩ := hts
  obtain ⟨rest, hrest⟩ := hsub.exists_perm_append
  have hwaiting : c.crew.waiting.Perm (ts ++ rest) := hrest.trans (hleft.append_right rest)
  have hwaiting' : d.crew.waiting.Perm (ts' ++ rest) :=
    (hqueue.trans hwaiting).trans (hts'.symm.append_right rest)
  have hq' : d.QueuesAll := hq.congr hcd.toSameSetting
  -- what a reload does in either cache is what it would do now in the first
  obtain ⟨deeds, cell, hrun⟩ := exists_run_deeds hf outcome
  obtain ⟨hx, hxcell, hxleft⟩ := hrun rest c ts ⟨hc, hq, hwaiting⟩ (.refl _) fun _ _ => rfl
  obtain ⟨hy, hycell, hyleft⟩ := hrun rest d ts' ⟨hd, hq', hwaiting'⟩ hcd.toSameSetting
    fun t _ => hcd.cell _
  have hdeeds := hts'.symm.flatMap_right deeds
  refine ⟨hx.agree hy hcd hdeeds (hts'.symm.map _) fun k hk => ?_,
    (hxleft.append_left ts).trans hwaiting.symm, hyleft.trans hxleft.symm⟩
  obtain ⟨t, ht, rfl⟩ := List.mem_map.1 hk
  rw [hxcell t ht, hycell t (hts'.mem_iff.2 ht)]

/-- **The order of a scan makes no difference**, and neither does the order in which reloads are
run after it, if the outcome of each depends on its request and its stale value alone. All those
that are run leave the queue, and the rest stays. -/
theorem scan_order_irrelevant (hc : c.Reachable) (hf : c.backing.forecast.Steady)
    (hq : c.QueuesAll) {deadline : Nat} (hp : c.poller.phase = .waiting deadline)
    (hd : deadline ≤ c.now) {order order' : List Request} (h : order.Perm c.dueRequests)
    (h' : order'.Perm c.dueRequests) :
    SameButOrder (c.scan order) (c.scan order') ∧
      ∀ (outcome : Reload → Outcome) (ts ts' : List Reload),
        ts.Subperm (c.scan order).crew.waiting → ts'.Perm ts →
          SameOutcome ((c.scan order).runTasks outcome ts)
              ((c.scan order').runTasks outcome ts') ∧
            (ts ++ ((c.scan order).runTasks outcome ts).crew.waiting).Perm
              (c.scan order).crew.waiting ∧
            ((c.scan order').runTasks outcome ts').crew.waiting.Perm
              ((c.scan order).runTasks outcome ts).crew.waiting := by
  obtain ⟨hagree, hsame⟩ := scan_agree hc hf hq hp hd h h'
  refine ⟨hsame, fun outcome ts ts' hts hts' => ?_⟩
  have hset := sameSetting_scan hc hf hq hp hd h
  have hsteady : (c.scan order).backing.forecast.Steady := by
    rw [hset.forecast]
    exact hf
  obtain ⟨hruns, hleft, hleft'⟩ := hagree.runTasks (reachable_scan hc order)
    (reachable_scan hc order') hsteady (hq.congr hset) hsame.queue outcome hts hts'
  exact ⟨hruns.sameOutcome, hleft, hleft'⟩

end Order

/-- Two requests come due together. There is a value of the second. -/
def twoDue : List Move :=
  [.schedule settings, .schedule profile, .set "profile" "old" (10 * Clock.second),
    .tick minPollInterval]

/-- Loads that have a stale value fail, others do not. -/
def newOrFailed (t : Reload) : Outcome :=
  if t.stale.isSome then .failure ⟨"timeout", []⟩ else .value "new" true

/-- A scan comes to the two requests in one order or the other, and a hand to the two reloads,
one of them with a stale value. -/
theorem scan_order_irrelevant_twoDue :
    ∃ c t t', c = (overMap (.byHand none)).run twoDue ∧
      (c.scan [profile, settings]).crew.waiting = [t, t'] ∧
      (c.scan [settings, profile]).crew.waiting = [t', t] ∧
      t.stale.isSome = true ∧ t'.stale = none ∧
      SameButOrder (c.scan [profile, settings]) (c.scan [settings, profile]) ∧
      SameOutcome ((c.scan [profile, settings]).runTasks newOrFailed [t, t'])
        ((c.scan [settings, profile]).runTasks newOrFailed [t', t]) := by
  have hsettings : settings.WellFormed := ⟨by decide, by decide, by decide, rfl⟩
  have hc : ((overMap (.byHand none)).run twoDue).Reachable :=
    (reachable_overMap _).run ⟨hsettings, profile_wellFormed, trivial, trivial, trivial⟩
  have hdue : ((overMap (.byHand none)).run twoDue).dueRequests = [profile, settings] := rfl
  have horder : [profile, settings].Perm ((overMap (.byHand none)).run twoDue).dueRequests :=
    hdue ▸ .refl _
  have horder' : [settings, profile].Perm ((overMap (.byHand none)).run twoDue).dueRequests :=
    hdue ▸ .swap ..
  obtain ⟨hsame, hruns⟩ := scan_order_irrelevant hc Forecast.fair_fair.steady
    ⟨.inr rfl, rfl⟩ rfl (Nat.le_refl _) horder horder'
  have hboth := hruns newOrFailed _ _ (List.Perm.refl _).subperm (.swap ..)
  exact ⟨_, _, _, rfl, rfl, rfl, rfl, rfl, hsame, hboth.1⟩

end Evergreen.Cache
