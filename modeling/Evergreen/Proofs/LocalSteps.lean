import Evergreen.Proofs.Deadlines
import Evergreen.Proofs.MarkSteps
import Evergreen.Proofs.StoreCalls

/-!
# Operations that are local to a key

Most of what a cache does about a key goes by two things alone: the slot of the key and its mark
of a reload in flight, which are together its `Cell`. What it does outside that cell is to add to
tallies and to lists: it counts, notes, calls the store, puts a task in the queue, or marks a
family as refreshed now. Such an addition is a `Deed`.

`Does ks ds c d` says that `d` is `c` after the deeds `ds`, with changes to the cells of `ks` at
most; `DoesOnly` adds that tasks, loads and the journal have changed by the deeds alone. An
operation is `Local` to a key if its answer, its deeds and the cell it leaves depend on the cell
it finds, and on nothing else that changes while requests are handled (`SameSetting`):

- `Local.bind`: one local operation after the other is local;
- `local_lookup`, `local_writeLoaded`: so are the operations of the store, if the store does not
  go by the number of a call (`Forecast.Steady`);
- `local_offer`: the offer of a reload, where the executor queues all that it is offered;
- `local_settle`: the end of a load.
-/

namespace Evergreen

/-- A store that treats all calls of one operation alike: it never fails in the middle, or
declines one write and takes the next. -/
def Forecast.Steady (f : Forecast) : Prop := ∀ op n n', f op n = f op n'

theorem Forecast.Fair.steady {f : Forecast} (h : f.Fair) : f.Steady := fun op n n' =>
  (h op n).trans (h op n').symm

/-- There is something to remove where a slot is filled. -/
theorem Store.remove_fst (s : Store) (k : Key) : (s.remove k).1 = (s.slot? k).isSome := by
  cases s with
  | memory s => rfl
  | plain t => exact (Option.isSome_map ..).symm

/-- What a store answers to a call that meets a verdict. -/
def Verdict.answer {α : Type} (v : Verdict) (passed ignored : α) : Except StoreFault α :=
  match v with
  | .pass => .ok passed
  | .fail fault => .error fault
  | .ignore => .ok ignored

/-- How the journal shows an answer of the store. -/
def StoreAnswer.of {α : Type} (note : α → StoreAnswer) : Except StoreFault α → StoreAnswer
  | .ok a => note a
  | .error _ => .failed

namespace Backing

variable (b : Backing) (now : Nat) (k : Key) (op : StoreOp)

theorem calls_get : (b.get now k).2.calls op =
    if op = .get then b.calls .get + 1 else b.calls op := by
  unfold get
  split <;> rfl

theorem calls_set (e : Entry) (hint : Option Nat) : (b.set now k e hint).2.calls op =
    if op = .set then b.calls .set + 1 else b.calls op := by
  unfold set
  split <;> rfl

theorem calls_remove : (b.remove k).2.calls op =
    if op = .remove then b.calls .remove + 1 else b.calls op := by
  unfold remove
  split <;> rfl

end Backing

namespace Cache

/-! ## Cells and deeds -/

/-- What an operation about a key goes by. -/
structure Cell where
  slot : Option Slot
  /-- How often the key is marked as being reloaded. -/
  inFlight : Nat

/-- The cell of a key. -/
def cell? (c : Cache) (k : Key) : Cell := ⟨c.backing.slot? k, c.inFlight.count k⟩

/-- Something that an operation adds to what the whole cache has. -/
inductive Deed where
  | noted (e : Event)
  | counted (n : Counter)
  | called (op : StoreOp)
  | queued (task : Reload)
  /-- A family is marked as refreshed now. -/
  | refreshed (family : Nat)
  deriving DecidableEq

def Deed.event? : Deed → Option Event
  | noted e => some e
  | _ => none

def Deed.task? : Deed → Option Reload
  | queued task => some task
  | _ => none

/-- Two caches agree in all that operations go by, apart from cells. -/
structure SameSetting (c d : Cache) : Prop where
  now : d.now = c.now
  executor : d.executor = c.executor
  room : d.crew.room = c.crew.room
  refusal : d.crew.refusal = c.crew.refusal
  forecast : d.backing.forecast = c.backing.forecast
  kind : d.backing.store.isMemory = c.backing.store.isMemory

theorem SameSetting.refl (c : Cache) : SameSetting c c := ⟨rfl, rfl, rfl, rfl, rfl, rfl⟩

theorem SameSetting.trans {a b c : Cache} (h : SameSetting a b) (h' : SameSetting b c) :
    SameSetting a c where
  now := h'.now.trans h.now
  executor := h'.executor.trans h.executor
  room := h'.room.trans h.room
  refusal := h'.refusal.trans h.refusal
  forecast := h'.forecast.trans h.forecast
  kind := h'.kind.trans h.kind

/-- The cache `d` is `c` after some deeds. No cell has changed but those of `ks`. -/
structure Does (ks : List Key) (ds : List Deed) (c d : Cache) : Prop extends SameSetting c d where
  cell : ∀ k, k ∉ ks → d.cell? k = c.cell? k
  calls : ∀ op, d.backing.calls op = c.backing.calls op + ds.count (.called op)
  counters : ∀ n, d.counters n = c.counters n + ds.count (.counted n)
  marks : ∀ f, d.marks f = if .refreshed f ∈ ds then some c.markNow else c.marks f

/-- The deeds are also all that has changed of the queue and the journal, and loads have not
changed at all. -/
structure DoesOnly (ks : List Key) (ds : List Deed) (c d : Cache) : Prop
    extends Does ks ds c d where
  waiting : d.crew.waiting = c.crew.waiting ++ ds.filterMap Deed.task?
  journal : d.journal = (ds.filterMap Deed.event?).reverse ++ c.journal
  held : d.crew.held = c.crew.held
  hands : d.crew.hands = c.crew.hands
  inOrder : d.crew.inOrder = c.crew.inOrder
  callers : d.callers = c.callers
  createdAt : d.createdAt = c.createdAt
  loaderCalls : d.calls = c.calls
  nextLoad : d.nextLoad = c.nextLoad

section Does

variable {ks ks' : List Key} {ds ds' : List Deed} {c d e : Cache} {k : Key}

theorem Does.refl (ks : List Key) (c : Cache) : Does ks [] c c :=
  ⟨.refl c, fun _ _ => rfl, fun _ => rfl, fun _ => rfl, fun f => by simp⟩

theorem Does.trans (h : Does ks ds c d) (h' : Does ks' ds' d e) :
    Does (ks ++ ks') (ds ++ ds') c e where
  toSameSetting := h.toSameSetting.trans h'.toSameSetting
  cell k hk := by
    simp only [List.mem_append, not_or] at hk
    exact (h'.cell k hk.2).trans (h.cell k hk.1)
  calls op := by rw [h'.calls, h.calls, List.count_append, Nat.add_assoc]
  counters n := by rw [h'.counters, h.counters, List.count_append, Nat.add_assoc]
  marks f := by
    rw [h'.marks, h.marks, markNow_congr h.now]
    simp only [List.mem_append]
    split <;> split <;> simp_all

theorem Does.mono (h : Does ks ds c d) (hk : ∀ k ∈ ks, k ∈ ks') : Does ks' ds c d :=
  ⟨h.toSameSetting, fun k hn => h.cell k fun hm => hn (hk k hm), h.calls, h.counters, h.marks⟩

theorem DoesOnly.refl (ks : List Key) (c : Cache) : DoesOnly ks [] c c where
  toDoes := .refl ks c
  waiting := by simp
  journal := rfl
  held := rfl
  hands := rfl
  inOrder := rfl
  callers := rfl
  createdAt := rfl
  loaderCalls := rfl
  nextLoad := rfl

theorem DoesOnly.trans (h : DoesOnly ks ds c d) (h' : DoesOnly ks' ds' d e) :
    DoesOnly (ks ++ ks') (ds ++ ds') c e where
  toDoes := h.toDoes.trans h'.toDoes
  waiting := by rw [h'.waiting, h.waiting, List.filterMap_append, List.append_assoc]
  journal := by
    rw [h'.journal, h.journal, List.filterMap_append, List.reverse_append, List.append_assoc]
  held := h'.held.trans h.held
  hands := h'.hands.trans h.hands
  inOrder := h'.inOrder.trans h.inOrder
  callers := h'.callers.trans h.callers
  createdAt := h'.createdAt.trans h.createdAt
  loaderCalls := h'.loaderCalls.trans h.loaderCalls
  nextLoad := h'.nextLoad.trans h.nextLoad

theorem DoesOnly.mono (h : DoesOnly ks ds c d) (hk : ∀ k ∈ ks, k ∈ ks') : DoesOnly ks' ds c d :=
  { h with toDoes := h.toDoes.mono hk }

/-- What is done to the cell of one key, in two steps. -/
theorem DoesOnly.trans_self (h : DoesOnly [k] ds c d) (h' : DoesOnly [k] ds' d e) :
    DoesOnly [k] (ds ++ ds') c e :=
  (h.trans h').mono fun _ hk => by simpa using hk

/-! ## Single deeds -/

/-- What it takes to be a deed: everything else is left as it is. -/
theorem doesOnly_update {backing : Backing} {inFlight : List Key} {waiting : List Reload}
    {marks : Nat → Option Nat} {counters : Counters} {journal : List Event}
    (forecast : backing.forecast = c.backing.forecast)
    (kind : backing.store.isMemory = c.backing.store.isMemory)
    (slot : ∀ k, k ∉ ks → backing.slot? k = c.backing.slot? k)
    (marked : ∀ k, k ∉ ks → inFlight.count k = c.inFlight.count k)
    (hcalls : ∀ op, backing.calls op = c.backing.calls op + ds.count (.called op))
    (hcounters : ∀ n, counters n = c.counters n + ds.count (.counted n))
    (hmarks : ∀ f, marks f = if .refreshed f ∈ ds then some c.markNow else c.marks f)
    (hwaiting : waiting = c.crew.waiting ++ ds.filterMap Deed.task?)
    (hjournal : journal = (ds.filterMap Deed.event?).reverse ++ c.journal) :
    DoesOnly ks ds c
      { c with backing, inFlight, crew := { c.crew with waiting }, marks, counters, journal } where
  now := rfl
  executor := rfl
  room := rfl
  refusal := rfl
  forecast := forecast
  kind := kind
  cell k hk := by simp only [cell?, slot k hk, marked k hk]
  calls := hcalls
  counters := hcounters
  marks := hmarks
  waiting := hwaiting
  journal := hjournal
  held := rfl
  hands := rfl
  inOrder := rfl
  callers := rfl
  createdAt := rfl
  loaderCalls := rfl
  nextLoad := rfl

theorem doesOnly_record (c : Cache) (e : Event) : DoesOnly ks [.noted e] c (c.record e) :=
  doesOnly_update rfl rfl (fun _ _ => rfl) (fun _ _ => rfl) (fun _ => rfl) (fun _ => rfl)
    (fun f => by simp) (by simp [Deed.task?]) rfl

theorem doesOnly_count (c : Cache) (n : Counter) : DoesOnly ks [.counted n] c (c.count n) := by
  refine doesOnly_update rfl rfl (fun _ _ => rfl) (fun _ _ => rfl) (fun _ => rfl) (fun n' => ?_)
    (fun f => by simp) (by simp [Deed.task?]) rfl
  by_cases hn : n' = n
  · subst hn
    simp
  · have hne : Deed.counted n ≠ .counted n' := fun h => hn (Deed.counted.inj h).symm
    rw [Counters.bump_other _ hn, List.count_singleton, if_neg (by simpa using hne)]
    rfl

theorem doesOnly_markRefreshed (c : Cache) (family : Nat) :
    DoesOnly ks [.refreshed family] c (c.markRefreshed family) := by
  refine doesOnly_update rfl rfl (fun _ _ => rfl) (fun _ _ => rfl) (fun _ => rfl) (fun _ => rfl)
    (fun f => ?_) (by simp [Deed.task?]) rfl
  simp only [List.mem_singleton, Deed.refreshed.injEq]
  rfl

/-- A task is put at the end of the queue. -/
theorem doesOnly_queue (c : Cache) (task : Reload) :
    DoesOnly ks [.queued task] c
      { c with crew := { c.crew with waiting := c.crew.waiting ++ [task] } } :=
  doesOnly_update rfl rfl (fun _ _ => rfl) (fun _ _ => rfl) (fun _ => rfl) (fun _ => rfl)
    (fun f => by simp) rfl rfl

theorem doesOnly_markInFlight (c : Cache) (k : Key) : DoesOnly [k] [] c (c.markInFlight k) := by
  refine doesOnly_update rfl rfl (fun _ _ => rfl) (fun k' hk => ?_) (fun _ => rfl) (fun _ => rfl)
    (fun f => by simp) (by simp) rfl
  exact List.count_cons_of_ne (by simpa using Ne.symm (by simpa using hk))

theorem doesOnly_clearInFlight (c : Cache) (k : Key) :
    DoesOnly [k] [] c (c.clearInFlight k) := by
  refine doesOnly_update rfl rfl (fun _ _ => rfl) (fun k' hk => ?_) (fun _ => rfl) (fun _ => rfl)
    (fun f => by simp) (by simp) rfl
  exact List.count_erase_of_ne (by simpa using hk)

/-- A call of the store about a key. -/
theorem doesOnly_call {op : StoreOp} {e : Event} {backing : Backing}
    (forecast : backing.forecast = c.backing.forecast)
    (kind : backing.store.isMemory = c.backing.store.isMemory)
    (slot : ∀ k', k' ≠ k → backing.slot? k' = c.backing.slot? k')
    (hcalls : ∀ op', backing.calls op' = if op' = op then c.backing.calls op + 1
      else c.backing.calls op') :
    DoesOnly [k] [.called op, .noted e] c ({ c with backing }.record e) := by
  refine doesOnly_update forecast kind (fun k' hk => slot k' (by simpa using hk)) (fun _ _ => rfl)
    (fun op' => ?_) (fun _ => rfl) (fun f => by simp) (by simp [Deed.task?]) rfl
  rw [hcalls]
  by_cases ho : op' = op
  · subst ho
    simp
  · have hne : Deed.called op ≠ .called op' := fun h => ho (Deed.called.inj h).symm
    rw [if_neg ho, List.count_cons_of_ne hne]
    rfl

end Does

/-! ## Local operations -/

/-- An operation is local to a key, in the setting of `c`: its answer, its deeds and the cell that
it leaves depend on the cell that it finds. -/
def Local (c : Cache) (k : Key) {α : Type} (op : Cache → α × Cache) : Prop :=
  ∀ x : Cell, ∃ (a : α) (ds : List Deed) (x' : Cell), ∀ d, SameSetting c d → d.cell? k = x →
    (op d).1 = a ∧ DoesOnly [k] ds d (op d).2 ∧ (op d).2.cell? k = x'

section Local

variable {c : Cache} {k : Key} {α β : Type}

theorem Local.congr {op op' : Cache → α × Cache} (h : Local c k op')
    (he : ∀ d, SameSetting c d → op d = op' d) : Local c k op := by
  intro x
  obtain ⟨a, ds, x', hop⟩ := h x
  refine ⟨a, ds, x', fun d hd hx => ?_⟩
  rw [he d hd]
  exact hop d hd hx

theorem Local.pure (a : α) : Local c k fun d => (a, d) :=
  fun x => ⟨a, [], x, fun d _ hx => ⟨rfl, .refl [k] d, hx⟩⟩

/-- **One after the other.** What comes second may depend on the first answer. -/
theorem Local.bind {op : Cache → α × Cache} {f : α → Cache → β × Cache} (h : Local c k op)
    (hf : ∀ a, Local c k (f a)) : Local c k fun d => f (op d).1 (op d).2 := by
  intro x
  obtain ⟨a, ds, x₁, hop⟩ := h x
  obtain ⟨b, ds', x₂, hfa⟩ := hf a x₁
  refine ⟨b, ds ++ ds', x₂, fun d hd hx => ?_⟩
  obtain ⟨ha, hdoes, hx₁⟩ := hop d hd hx
  obtain ⟨hb, hdoes', hx₂⟩ := hfa (op d).2 (hd.trans hdoes.toSameSetting) hx₁
  dsimp only
  rw [ha]
  exact ⟨hb, hdoes.trans_self hdoes', hx₂⟩

/-- What does the same deeds wherever it is done, and changes the cell of its key by a rule, is
local. -/
theorem Local.update {u : Cache → Cache} {ds : List Deed} (a : α) (rule : Cell → Cell)
    (hu : ∀ d, DoesOnly [k] ds d (u d)) (hcell : ∀ d, (u d).cell? k = rule (d.cell? k)) :
    Local c k fun d => (a, u d) :=
  fun x => ⟨a, ds, rule x, fun d _ hx => ⟨rfl, hu d, hx ▸ hcell d⟩⟩

theorem local_record (a : α) (e : Event) : Local c k fun d => (a, d.record e) :=
  .update a id (doesOnly_record · e) fun _ => rfl

theorem local_count (a : α) (n : Counter) : Local c k fun d => (a, d.count n) :=
  .update a id (doesOnly_count · n) fun _ => rfl

theorem local_markRefreshed (a : α) (family : Nat) :
    Local c k fun d => (a, d.markRefreshed family) :=
  .update a id (doesOnly_markRefreshed · family) fun _ => rfl

theorem local_queue (a : α) (task : Reload) : Local c k fun d =>
    (a, { d with crew := { d.crew with waiting := d.crew.waiting ++ [task] } }) :=
  .update a id (doesOnly_queue · task) fun _ => rfl

theorem local_markInFlight (a : α) : Local c k fun d => (a, d.markInFlight k) :=
  .update a (fun x => ⟨x.slot, x.inFlight + 1⟩) (doesOnly_markInFlight · k) fun _ =>
    congrArg (Cell.mk _) List.count_cons_self

theorem local_clearInFlight (a : α) : Local c k fun d => (a, d.clearInFlight k) :=
  .update a (fun x => ⟨x.slot, x.inFlight - 1⟩) (doesOnly_clearInFlight · k) fun _ =>
    congrArg (Cell.mk _) List.count_erase_self

/-! ## Calls of the store -/

/-- What a call meets is the same for all caches in a setting. -/
theorem SameSetting.verdict {d : Cache} (hd : SameSetting c d) (hf : c.backing.forecast.Steady)
    (op : StoreOp) : d.backing.verdict op = c.backing.verdict op := by
  unfold Backing.verdict
  rw [hd.forecast]
  exact hf ..

/-- A call about a key, as it stands in the journal: local, if its answer and what it leaves in
the slot of the key depend on what was there. -/
theorem local_call (op : StoreOp) (call : Cache → α × Backing) (note : α → Event)
    (hcall : ∀ x, ∃ a slot, ∀ d, SameSetting c d → d.cell? k = x →
      (call d).1 = a ∧ (call d).2.slot? k = slot)
    (forecast : ∀ d, (call d).2.forecast = d.backing.forecast)
    (kind : ∀ d, (call d).2.store.isMemory = d.backing.store.isMemory)
    (slot : ∀ d k', k' ≠ k → (call d).2.slot? k' = d.backing.slot? k')
    (hcalls : ∀ d op', (call d).2.calls op' = if op' = op then d.backing.calls op + 1
      else d.backing.calls op') :
    Local c k fun d => ((call d).1, { d with backing := (call d).2 }.record (note (call d).1)) := by
  intro x
  obtain ⟨a, slot', hcall⟩ := hcall x
  refine ⟨a, [.called op, .noted (note a)], ⟨slot', x.inFlight⟩, fun d hd hx => ?_⟩
  obtain ⟨ha, hslot⟩ := hcall d hd hx
  dsimp only
  rw [ha]
  refine ⟨rfl, doesOnly_call (forecast d) (kind d) (slot d) (hcalls d), ?_⟩
  rw [← hx, ← hslot]
  rfl

theorem local_fetch (hf : c.backing.forecast.Steady) : Local c k fun d => d.fetch k := by
  refine Local.congr (local_call .get (fun d => d.backing.get d.now k)
    (fun answer => .storeCalled .get (some k) (.of (.found ·.isSome) answer)) ?_ ?_ ?_ ?_ ?_)
    fun d _ => ?_
  · intro x
    refine ⟨(c.backing.verdict .get).answer
        ((x.slot.filter fun slot => !slot.expired c.now).map (·.entry)) none,
      if c.backing.verdict .get = .pass then x.slot.filter (fun slot => !slot.expired c.now)
      else x.slot, ?_⟩
    rintro d hd rfl
    have hfst : (d.backing.get d.now k).1 =
        (d.backing.verdict .get).answer (d.backing.store.find? d.now k) none := d.fetch_fst k
    rw [hd.now, hd.verdict hf, Store.find?_eq_slot?] at hfst
    rw [Backing.slot?_get, hd.verdict hf, hd.now]
    exact ⟨hfst, by simp [cell?]⟩
  · exact fun d => d.backing.forecast_get d.now k
  · exact fun d => d.backing.isMemory_get d.now k
  · exact fun d k' hk => by rw [Backing.slot?_get, if_neg (by simp [hk])]
  · exact fun d op' => d.backing.calls_get d.now k op'
  · unfold fetch
    obtain ⟨_ | _, backing⟩ := d.backing.get d.now k <;> rfl

theorem local_delete (hf : c.backing.forecast.Steady) : Local c k fun d => d.delete k := by
  refine Local.congr (local_call .remove (fun d => d.backing.remove k)
    (fun answer => .storeCalled .remove (some k) (.of .removed answer)) ?_ ?_ ?_ ?_ ?_)
    fun d _ => ?_
  · intro x
    refine ⟨(c.backing.verdict .remove).answer x.slot.isSome false,
      if c.backing.verdict .remove = .pass then none else x.slot, ?_⟩
    rintro d hd rfl
    have hfst : (d.backing.remove k).1 =
        (d.backing.verdict .remove).answer (d.backing.store.slot? k).isSome false := by
      unfold Backing.remove
      cases d.backing.verdict .remove with
      | pass => exact congrArg Except.ok (d.backing.store.remove_fst k)
      | fail fault => rfl
      | ignore => rfl
    rw [hd.verdict hf] at hfst
    rw [Backing.slot?_remove, hd.verdict hf]
    exact ⟨hfst, by simp [cell?]⟩
  · exact fun d => d.backing.forecast_remove k
  · exact fun d => d.backing.isMemory_remove k
  · exact fun d k' hk => by rw [Backing.slot?_remove, if_neg (by simp [hk])]
  · exact fun d op' => d.backing.calls_remove k op'
  · unfold delete
    obtain ⟨_ | _, backing⟩ := d.backing.remove k <;> rfl

theorem local_put (hf : c.backing.forecast.Steady) (e : Entry) :
    Local c k fun d => d.put k e := by
  refine Local.congr (local_call .set (fun d => d.backing.set d.now k e (e.expiresIn d.now))
    (fun answer => .storeCalled .set (some k) (.of (.accepted · (e.expiresIn c.now)) answer))
    ?_ ?_ ?_ ?_ ?_) fun d hd => ?_
  · intro x
    refine ⟨(c.backing.verdict .set).answer true false,
      if c.backing.verdict .set = .pass then
        some (c.backing.store.filled c.now e (e.expiresIn c.now)) else x.slot, ?_⟩
    rintro d hd rfl
    have hfst : (d.backing.set d.now k e (e.expiresIn d.now)).1 =
        (d.backing.verdict .set).answer true false := by
      unfold Backing.set
      cases d.backing.verdict .set <;> rfl
    rw [hd.verdict hf] at hfst
    rw [Backing.slot?_set, hd.verdict hf, hd.now, Store.filled_congr hd.kind]
    exact ⟨hd.now ▸ hfst, by simp [cell?]⟩
  · exact fun d => d.backing.forecast_set d.now k e _
  · exact fun d => d.backing.isMemory_set d.now k e _
  · exact fun d k' hk => by rw [Backing.slot?_set, if_neg (by simp [hk])]
  · exact fun d op' => d.backing.calls_set d.now k op' e _
  · rw [← hd.now]
    dsimp only [put]
    obtain ⟨_ | _, backing⟩ := d.backing.set d.now k e (e.expiresIn d.now) <;> rfl

/-! ## Operations of the store -/

theorem local_reported {γ : Type} (a : α) (op : StoreOp) (answer : Except StoreFault γ) :
    Local c k fun d => (a, d.reported op (some k) answer) := by
  cases answer with
  | ok _ => exact .pure a
  | error fault => exact (local_count a _).bind fun a => local_record a _

theorem local_drop (hf : c.backing.forecast.Steady) : Local c k fun d => d.drop k := by
  refine Local.congr ((local_delete hf).bind fun answer =>
    local_reported (took answer) .remove answer) fun d _ => ?_
  exact d.drop_eq k

theorem local_lookup (hf : c.backing.forecast.Steady) : Local c k fun d => d.lookup k := by
  refine Local.congr ((local_fetch hf).bind (f := fun answer d => (hit answer).elim
    (none, d.reported .get (some k) answer) fun e =>
      if e.hardExpired c.now then
        (none, (((d.reported .get (some k) answer).record (.evicting k)).drop k).2)
      else (some e, d.reported .get (some k) answer)) fun answer => ?_) fun d hd => ?_
  · cases hit answer with
    | none => exact local_reported none _ _
    | some e =>
      dsimp only [Option.elim_some]
      split
      · exact ((local_reported () .get answer).bind fun _ => local_record () (.evicting k)).bind
          fun _ => (local_drop hf).bind fun _ => .pure none
      · exact local_reported (some e) _ _
  · rw [lookup_eq, hd.now]
    cases hit (d.fetch k).1 <;> rfl

theorem local_write (hf : c.backing.forecast.Steady) (e : Entry) :
    Local c k fun d => d.write k e := by
  refine Local.congr ((local_put hf e).bind (f := fun answer d =>
    (took answer, if took answer then (d.reported .set (some k) answer).count .writes
      else d.reported .set (some k) answer)) fun answer => ?_) fun d hd => ?_
  · cases took answer with
    | false => exact local_reported false _ _
    | true => exact (local_reported true _ _).bind fun a => local_count a .writes
  · exact d.write_eq k e

theorem local_writeLoaded (hf : c.backing.forecast.Steady) (e : Entry) (started : Nat) :
    Local c k fun d => d.writeLoaded k e started := by
  refine Local.congr ((local_fetch hf).bind (f := fun answer d =>
    if holdsOff started (hit answer) then
      (false, (d.count .writesSuperseded).record (.superseded k))
    else d.write k e) fun answer => ?_) fun d hd => ?_
  · cases holdsOff started (hit answer) with
    | true => exact (local_count false _).bind fun a => local_record a _
    | false => exact local_write hf e
  · rw [writeLoaded_eq]
    cases holdsOff started (hit (d.fetch k).1) <;> rfl

/-! ## Reloads that are offered -/

/-- To read the cell is local. -/
theorem local_read (p : Cell → α) : Local c k fun d => (p (d.cell? k), d) :=
  fun x => ⟨p x, [], x, fun d _ hx => ⟨congrArg p hx, .refl [k] d, hx⟩⟩

theorem local_offer (hx : c.executor ≠ .inPlace) (hroom : c.crew.room = none)
    (hrefusal : c.crew.refusal = none) (r : Request) (stale : Option Entry) :
    Local c r.key fun d => d.offer r stale true := by
  -- all that is asked is whether the key is marked
  refine Local.congr ((local_read fun x => decide (0 < x.inFlight)).bind
    (f := fun marked d => if marked then (.done .alreadyInFlight, d.deduplicated r.key)
      else (.done .started, d.accepted r.key
        { d.crew with waiting := d.crew.waiting ++ [⟨r, stale⟩] })) fun marked => ?_)
    fun d hd => ?_
  · cases marked with
    | true => exact (local_record _ (.reloadInFlight r.key)).bind fun a => local_count a _
    | false =>
      exact ((local_markInFlight _).bind fun a => local_queue a ⟨r, stale⟩).bind fun a =>
        local_count a .reloadsStarted
  · have hoffer : d.crew.offer ⟨r, stale⟩ =
        .ok { d.crew with waiting := d.crew.waiting ++ [⟨r, stale⟩] } := by
      refine Crew.offer_eq_ok_iff.2 ⟨hd.refusal.trans hrefusal, ?_, rfl⟩
      simp [Crew.full, hd.room, hroom]
    have hexecutor : d.executor ≠ .inPlace := by rwa [hd.executor]
    rw [offer_eq]
    by_cases hk : r.key ∈ d.inFlight
    · rw [if_pos (by simpa using hk), if_pos (by simpa [cell?, List.count_pos_iff] using hk)]
    · rw [if_neg (by simpa using hk), if_neg hexecutor, hoffer,
        if_neg (by simpa [cell?, List.count_pos_iff] using hk)]

/-! ## Loads that end -/

theorem local_succeed (hf : c.backing.forecast.Steady) (l : Load) (v : Value) (cacheable : Bool)
    (a : α) : Local c l.key fun d => (a, d.succeed l v cacheable) := by
  cases cacheable with
  | false => exact local_markRefreshed a l.request.family
  | true =>
    have hwrite := local_writeLoaded (k := l.key) hf
      (Entry.stamped c.now v l.request.hard l.request.soft) l.started
    refine Local.congr (hwrite.bind fun _ => local_markRefreshed a l.request.family) fun d hd => ?_
    rw [← hd.now]
    rfl

theorem local_failed (l : Load) (f : Failure) (a : α) :
    Local c l.key fun d => (a, d.failed l f) := by
  unfold failed
  cases (cell l).log.text? f with
  | none => exact local_count a _
  | some text => exact (local_count a .loadFailures).bind fun a => local_record a _

theorem local_writeBack (hf : c.backing.forecast.Steady) (l : Load) (e : Entry) (how : WriteBack)
    (a : α) : Local c l.key fun d => (a, d.writeBack l e how) := by
  cases how with
  | dontCache => exact .pure a
  | cacheExpired =>
    refine Local.congr ((local_writeLoaded hf (e.carriedOver c.now l.request.hard 0)
      l.started).bind fun _ => .pure a) fun d hd => ?_
    rw [← hd.now]
    rfl
  | cacheFresh =>
    refine Local.congr ((local_writeLoaded hf (e.carriedOver c.now l.request.hard l.request.soft)
      l.started).bind fun _ => local_markRefreshed a l.request.family) fun d hd => ?_
    rw [← hd.now]
    rfl

theorem local_recover (hf : c.backing.forecast.Steady) (l : Load) (f : Failure) :
    Local c l.key fun d => d.recover l f := by
  refine Local.congr ((local_failed l f (fallback l f)).bind (f := fun result d =>
    (result, l.stale.elim d fun e => d.writeBack l e (cell l).cache)) fun result => ?_)
    fun d _ => ?_
  · cases l.stale with
    | none => exact .pure result
    | some e => exact local_writeBack hf l e _ result
  · refine (d.recover_eq l f).trans ?_
    cases l.stale <;> rfl

/-- **The end of a load is local to its key.** -/
theorem local_settle (hf : c.backing.forecast.Steady) (l : Load) (o : Outcome) :
    Local c l.key fun d => d.settle l o := by
  cases o with
  | value v cacheable => exact local_succeed hf l v cacheable _
  | panic text => exact .pure _
  | failure f =>
    refine Local.congr ((local_recover hf l f).bind fun result => .pure (match result with
      | .ok v => Ending.returned v
      | .error fault => .failed fault)) fun d _ => ?_
    simp only [settle]
    obtain ⟨result, d'⟩ := d.recover l f
    cases result <;> rfl

end Local

end Cache

end Evergreen
