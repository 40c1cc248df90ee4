import Evergreen.Proofs.Moves

/-!
# What operations leave alone

Most of a cache is untouched by most operations. `StoreOnly c c'` says that the only
differences between two caches are in the store, the counters and the journal: so it is after
every operation that reads or writes the store (`storeOnly_lookup`, `storeOnly_writeLoaded`).
`SameStore c c'` says that the store is the same and the clock stands where it stood.
`StoreAndMarks c c'` allows the refresh marks to differ as well, as they may after the end of a
load as such (`storeAndMarks_settle`). In the same way `TasksOnly c c'` is about tasks and loads,
and `PollerOnly c c'` about the poller. `SameTasks c c'` says that the same tasks wait and run,
and that the same keys are marked as being reloaded: so it is after every operation that neither
hands over, takes up nor drops a task.

A failed load is the one thing that is taken apart here: `recover_eq` says what one cell of its
policy makes of it.
-/

namespace Evergreen.Cache

/-! ## Operations on the store -/

/-- Two caches that differ in the store, the counters and the journal alone. -/
structure StoreOnly (c c' : Cache) : Prop where
  now : c'.now = c.now
  executor : c'.executor = c.executor
  crew : c'.crew = c.crew
  inFlight : c'.inFlight = c.inFlight
  callers : c'.callers = c.callers
  poller : c'.poller = c.poller
  marks : c'.marks = c.marks
  calls : c'.calls = c.calls
  nextLoad : c'.nextLoad = c.nextLoad
  forecast : c'.backing.forecast = c.backing.forecast

/-- Nothing differs from itself. -/
theorem StoreOnly.refl (c : Cache) : StoreOnly c c := by constructor <;> rfl

/-- One operation after another leaves alone what each of them does. -/
theorem StoreOnly.trans {a b c : Cache} (h : StoreOnly a b) (h' : StoreOnly b c) :
    StoreOnly a c where
  now := h'.now.trans h.now
  executor := h'.executor.trans h.executor
  crew := h'.crew.trans h.crew
  inFlight := h'.inFlight.trans h.inFlight
  callers := h'.callers.trans h.callers
  poller := h'.poller.trans h.poller
  marks := h'.marks.trans h.marks
  calls := h'.calls.trans h.calls
  nextLoad := h'.nextLoad.trans h.nextLoad
  forecast := h'.forecast.trans h.forecast

/-- The journal may differ. -/
theorem storeOnly_record (c : Cache) (e : Event) : StoreOnly c (c.record e) := by
  constructor <;> rfl

/-- The counters may differ. -/
theorem storeOnly_count (c : Cache) (k : Counter) : StoreOnly c (c.count k) := by
  constructor <;> rfl

/-- A report is a count and a note. -/
theorem storeOnly_storeFailed (c : Cache) (op : StoreOp) (k : Option Key)
    (fault : StoreFault) : StoreOnly c (c.storeFailed op k fault) := by
  constructor <;> rfl

/-- The store may differ, if the weather is the same. -/
theorem storeOnly_backing (c : Cache) (b : Backing) (h : b.forecast = c.backing.forecast) :
    StoreOnly c { c with backing := b } := by
  constructor <;> first | rfl | exact h

/-- A call of the store is about the store, with a note of its answer. -/
theorem storeOnly_fetch (c : Cache) (k : Key) : StoreOnly c (c.fetch k).2 :=
  (c.storeOnly_backing _ (c.backing.forecast_get c.now k)).trans (storeOnly_record _ _)

theorem storeOnly_put (c : Cache) (k : Key) (e : Entry) : StoreOnly c (c.put k e).2 :=
  (c.storeOnly_backing _ (c.backing.forecast_set c.now k e _)).trans (storeOnly_record _ _)

theorem storeOnly_delete (c : Cache) (k : Key) : StoreOnly c (c.delete k).2 :=
  (c.storeOnly_backing _ (c.backing.forecast_remove k)).trans (storeOnly_record _ _)

theorem storeOnly_wipe (c : Cache) : StoreOnly c c.wipe.2 :=
  (c.storeOnly_backing _ c.backing.forecast_clear).trans (storeOnly_record _ _)

/-- A removal is a call, and a report if the call failed. -/
theorem storeOnly_drop (c : Cache) (k : Key) : StoreOnly c (c.drop k).2 := by
  have h := c.storeOnly_delete k
  unfold drop
  split
  · rename_i was c' hd
    rw [hd] at h
    exact h
  · rename_i fault c' hd
    rw [hd] at h
    exact h.trans (c'.storeOnly_storeFailed ..)

/-- So is the removal of everything. -/
theorem storeOnly_dropAll (c : Cache) : StoreOnly c c.dropAll := by
  have h := c.storeOnly_wipe
  unfold dropAll
  split
  · rename_i was c' hd
    rw [hd] at h
    exact h
  · rename_i fault c' hd
    rw [hd] at h
    exact h.trans (c'.storeOnly_storeFailed ..)

/-- **A lookup is about the store,** also where it removes what it finds. -/
theorem storeOnly_lookup (c : Cache) (k : Key) : StoreOnly c (c.lookup k).2 := by
  have h := c.storeOnly_fetch k
  unfold lookup
  split
  · rename_i e c' hf
    rw [hf] at h
    split
    · exact (h.trans (c'.storeOnly_record _)).trans (storeOnly_drop _ k)
    · exact h
  · rename_i c' hf
    rw [hf] at h
    exact h
  · rename_i fault c' hf
    rw [hf] at h
    exact h.trans (c'.storeOnly_storeFailed ..)

/-- A write is a call, with a count or a report. -/
theorem storeOnly_write (c : Cache) (k : Key) (e : Entry) : StoreOnly c (c.write k e).2 := by
  have h := c.storeOnly_put k e
  unfold write
  split
  · rename_i c' hp
    rw [hp] at h
    exact h.trans (c'.storeOnly_count _)
  · rename_i c' hp
    rw [hp] at h
    exact h
  · rename_i fault c' hp
    rw [hp] at h
    exact h.trans (c'.storeOnly_storeFailed ..)

/-- The read of the write guard is a call. -/
theorem storeOnly_newer (c : Cache) (k : Key) (started : Nat) :
    StoreOnly c (c.newer k started).2 := by
  have h := c.storeOnly_fetch k
  unfold newer
  split
  · rename_i e c' hf
    rw [hf] at h
    exact h
  · rename_i found c' _ hf
    rw [hf] at h
    exact h

/-- **The write of a load is about the store,** whether it is held off or not. -/
theorem storeOnly_writeLoaded (c : Cache) (k : Key) (e : Entry) (started : Nat) :
    StoreOnly c (c.writeLoaded k e started).2 := by
  have h := c.storeOnly_newer k started
  unfold writeLoaded
  split
  · rename_i c' hn
    rw [hn] at h
    exact (h.trans (c'.storeOnly_count _)).trans (storeOnly_record _ _)
  · rename_i c' hn
    rw [hn] at h
    exact h.trans (c'.storeOnly_write k e)

/-- What a get finds is counted. -/
theorem storeOnly_countFound (c : Cache) (f : Freshness) : StoreOnly c (c.countFound f) :=
  c.storeOnly_count _

/-- A peek is a lookup. -/
theorem storeOnly_peek (c : Cache) (k : Key) : StoreOnly c (c.peek k).2 :=
  c.storeOnly_lookup k

/-- What is set is written, unless the key is blank. -/
theorem storeOnly_setEntry (c : Cache) (k : Key) (e : Entry) :
    StoreOnly c (c.setEntry k e).2 := by
  unfold setEntry
  split
  · exact .refl c
  · exact c.storeOnly_write k e

/-- So is a value, in an entry of its own. -/
theorem storeOnly_set (c : Cache) (k : Key) (v : Value) (ttl : Nat) :
    StoreOnly c (c.set k v ttl).2 := by
  unfold set
  split
  · exact .refl c
  · exact .refl c
  · exact c.storeOnly_write k _

/-- A purge is about the store. -/
theorem storeOnly_purged (c : Cache) : StoreOnly c c.purged := by
  unfold purged
  split
  · exact .refl c
  · constructor <;> rfl

/-! ## Loads that fail -/

/-- The cell of its policy that a load selects if its loader fails. -/
def cell (l : Load) : OnFailure := l.request.policy.select l.invocation l.stale.isSome

/-- The cache when a failed load has been counted and logged. -/
def failed (c : Cache) (l : Load) (f : Failure) : Cache :=
  let c := c.count .loadFailures
  match (cell l).log.text? f with
  | none => c
  | some text => c.record (.loaderFailed l.request.key l.request.mode l.invocation text)

/-- What a caller gets for a failed load. -/
def fallback (l : Load) (f : Failure) : Except CallFault (Option Value) :=
  match (cell l).fallback with
  | .propagate => .error (.load l.request.key f)
  | .returnNone => .ok none
  | .returnStale => .ok (l.stale.map (·.value))

/-- A failed load is logged, its stale value is written back, and its caller gets the
fallback: all of it as one cell says. -/
theorem recover_eq (c : Cache) (l : Load) (f : Failure) :
    c.recover l f = (fallback l f, match l.stale with
      | none => c.failed l f
      | some e => (c.failed l f).writeBack l e (cell l).cache) := rfl

/-- A failed load leaves the cache as `recover` does; how the result is handed on changes
nothing. -/
theorem settle_failure (c : Cache) (l : Load) (f : Failure) :
    (c.settle l (.failure f)).2 = (c.recover l f).2 := by
  simp only [settle]
  split
  · rename_i hr
    rw [hr]
  · rename_i hr
    rw [hr]

/-- A failed load is counted, and noted as its policy says. -/
theorem storeOnly_failed (c : Cache) (l : Load) (f : Failure) : StoreOnly c (c.failed l f) := by
  unfold failed
  cases (cell l).log.text? f with
  | none => exact c.storeOnly_count _
  | some text => exact (c.storeOnly_count _).trans (storeOnly_record _ _)

/-! ## Operations on the store and the marks -/

/-- Two caches that differ in the store, the marks, the counters and the journal alone. -/
structure StoreAndMarks (c c' : Cache) : Prop where
  now : c'.now = c.now
  executor : c'.executor = c.executor
  crew : c'.crew = c.crew
  inFlight : c'.inFlight = c.inFlight
  callers : c'.callers = c.callers
  poller : c'.poller = c.poller
  calls : c'.calls = c.calls
  nextLoad : c'.nextLoad = c.nextLoad

/-- Nothing differs from itself. -/
theorem StoreAndMarks.refl (c : Cache) : StoreAndMarks c c := by constructor <;> rfl

/-- One operation after another leaves alone what each of them does. -/
theorem StoreAndMarks.trans {a b c : Cache} (h : StoreAndMarks a b) (h' : StoreAndMarks b c) :
    StoreAndMarks a c where
  now := h'.now.trans h.now
  executor := h'.executor.trans h.executor
  crew := h'.crew.trans h.crew
  inFlight := h'.inFlight.trans h.inFlight
  callers := h'.callers.trans h.callers
  poller := h'.poller.trans h.poller
  calls := h'.calls.trans h.calls
  nextLoad := h'.nextLoad.trans h.nextLoad

/-- What is about the store alone leaves the marks alone as well. -/
theorem StoreOnly.storeAndMarks {c c' : Cache} (h : StoreOnly c c') : StoreAndMarks c c' where
  now := h.now
  executor := h.executor
  crew := h.crew
  inFlight := h.inFlight
  callers := h.callers
  poller := h.poller
  calls := h.calls
  nextLoad := h.nextLoad

/-- A family may be marked as refreshed. -/
theorem storeAndMarks_markRefreshed (c : Cache) (family : Nat) :
    StoreAndMarks c (c.markRefreshed family) := by
  constructor <;> rfl

/-- The mark of a family may be taken away. -/
theorem storeAndMarks_resetMark (c : Cache) (family : Nat) :
    StoreAndMarks c (c.resetMark family) := by
  constructor <;> rfl

/-- What is registered under a key may be made due. -/
theorem storeAndMarks_resetRegistered (c : Cache) (k : Key) :
    StoreAndMarks c (c.resetRegistered k) := by
  unfold resetRegistered
  split
  · exact .refl c
  · exact c.storeAndMarks_resetMark _

/-- All that is registered may be made due. -/
theorem storeAndMarks_resetAll (c : Cache) : StoreAndMarks c c.resetAll := by
  unfold resetAll
  generalize c.poller.registry.requests.values = regs
  induction regs generalizing c with
  | nil => exact .refl c
  | cons reg regs ih => exact (c.storeAndMarks_resetMark _).trans (ih _)

/-- A removal is about the store, and about the mark of what is registered. -/
theorem storeAndMarks_remove (c : Cache) (k : Key) : StoreAndMarks c (c.remove k).2 :=
  (c.storeAndMarks_resetRegistered k).trans (storeOnly_drop _ k).storeAndMarks

/-- The removal of everything is about the store and the marks. -/
theorem storeAndMarks_removeAll (c : Cache) : StoreAndMarks c c.removeAll :=
  c.storeOnly_dropAll.storeAndMarks.trans (storeAndMarks_resetAll _)

/-- A load with a value writes it, and marks its family. -/
theorem storeAndMarks_succeed (c : Cache) (l : Load) (v : Value) (cacheable : Bool) :
    StoreAndMarks c (c.succeed l v cacheable) := by
  unfold succeed
  split
  · exact (c.storeOnly_writeLoaded ..).storeAndMarks.trans (storeAndMarks_markRefreshed _ _)
  · exact c.storeAndMarks_markRefreshed _

/-- A stale value may be written back, and then the family may be marked. -/
theorem storeAndMarks_writeBack (c : Cache) (l : Load) (e : Entry) (how : WriteBack) :
    StoreAndMarks c (c.writeBack l e how) := by
  unfold writeBack
  split
  · exact .refl c
  · exact (c.storeOnly_writeLoaded ..).storeAndMarks
  · exact (c.storeOnly_writeLoaded ..).storeAndMarks.trans (storeAndMarks_markRefreshed _ _)

/-- A failed load is noted, and may write its stale value back. -/
theorem storeAndMarks_recover (c : Cache) (l : Load) (f : Failure) :
    StoreAndMarks c (c.recover l f).2 := by
  have h := (c.storeOnly_failed l f).storeAndMarks
  rw [recover_eq]
  cases l.stale with
  | none => exact h
  | some e => exact h.trans (storeAndMarks_writeBack _ l e _)

/-- **The end of a load as such** is about the store and the marks. -/
theorem storeAndMarks_settle (c : Cache) (l : Load) (o : Outcome) :
    StoreAndMarks c (c.settle l o).2 := by
  cases o with
  | value v cacheable => exact c.storeAndMarks_succeed l v cacheable
  | failure f =>
    rw [settle_failure]
    exact c.storeAndMarks_recover l f
  | panic text => exact .refl c

/-! ## Loads that begin -/

/-- Two caches that differ in tasks and loads, the counters and the journal alone. -/
structure TasksOnly (c c' : Cache) : Prop where
  now : c'.now = c.now
  executor : c'.executor = c.executor
  backing : c'.backing = c.backing
  poller : c'.poller = c.poller
  marks : c'.marks = c.marks

/-- **A load that begins is about loads:** the store and the marks are left for its end. -/
theorem tasksOnly_enter (c : Cache) (r : Request) (stale : Option Entry) (seat : Seat) :
    TasksOnly c (c.enter r stale seat).2 := by
  cases seat <;> constructor <;> rfl

/-! ## Operations of the poller -/

/-- Two caches that differ in the poller, the counters and the journal alone. -/
structure PollerOnly (c c' : Cache) : Prop where
  now : c'.now = c.now
  executor : c'.executor = c.executor
  backing : c'.backing = c.backing
  crew : c'.crew = c.crew
  inFlight : c'.inFlight = c.inFlight
  callers : c'.callers = c.callers
  marks : c'.marks = c.marks
  calls : c'.calls = c.calls
  nextLoad : c'.nextLoad = c.nextLoad

/-- Nothing differs from itself. -/
theorem PollerOnly.refl (c : Cache) : PollerOnly c c := by constructor <;> rfl

/-- One operation after another leaves alone what each of them does. -/
theorem PollerOnly.trans {a b c : Cache} (h : PollerOnly a b) (h' : PollerOnly b c) :
    PollerOnly a c where
  now := h'.now.trans h.now
  executor := h'.executor.trans h.executor
  backing := h'.backing.trans h.backing
  crew := h'.crew.trans h.crew
  inFlight := h'.inFlight.trans h.inFlight
  callers := h'.callers.trans h.callers
  marks := h'.marks.trans h.marks
  calls := h'.calls.trans h.calls
  nextLoad := h'.nextLoad.trans h.nextLoad

theorem pollerOnly_record (c : Cache) (e : Event) : PollerOnly c (c.record e) := by
  constructor <;> rfl

theorem pollerOnly_count (c : Cache) (k : Counter) : PollerOnly c (c.count k) := by
  constructor <;> rfl

/-- The poller may differ in anything. -/
theorem pollerOnly_poller (c : Cache) (p : Poller) : PollerOnly c { c with poller := p } := by
  constructor <;> rfl

/-- The first registration starts the poller, and notes it. -/
theorem pollerOnly_startPoller (c : Cache) : PollerOnly c c.startPoller := by
  unfold startPoller
  split
  · exact (c.pollerOnly_poller _).trans (pollerOnly_record _ _)
  · exact .refl c

/-- A request is put into the registry, which belongs to the poller. -/
theorem pollerOnly_enroll (c : Cache) (r : Request) : PollerOnly c (c.enroll r) :=
  (c.pollerOnly_poller _).trans (pollerOnly_startPoller _)

/-- A registration by a get is about the poller, or declined with a note. -/
theorem pollerOnly_registerIfAbsent (c : Cache) (r : Request) :
    PollerOnly c (c.registerIfAbsent r).2 := by
  unfold registerIfAbsent
  split
  · exact c.pollerOnly_record _
  · split
    · exact .refl c
    · exact c.pollerOnly_enroll r

/-- A scan that begins fixes what it will visit, and offers nothing yet. -/
theorem pollerOnly_beginScan (c : Cache) : PollerOnly c (c.beginScan?.getD c) := by
  unfold beginScan?
  split
  · split
    · exact (c.pollerOnly_poller _).trans (pollerOnly_record _ _)
    · exact .refl c
  · exact .refl c

/-- The end of a scan is counted, and sets the next deadline. -/
theorem pollerOnly_endScan (c : Cache) : PollerOnly c c.endScan := by
  unfold endScan
  split
  · have h := c.pollerOnly_count .schedulerTicks
    dsimp only
    split
    · exact (h.trans (pollerOnly_poller _ _)).trans (pollerOnly_record _ _)
    · exact h.trans (pollerOnly_poller _ _)
  · exact .refl c

/-- So does the move, if nothing runs on the poller's thread. -/
theorem pollerOnly_after_endScan (c : Cache) : PollerOnly c (c.after .endScan) := by
  simp only [after]
  split
  · exact .refl c
  · exact c.pollerOnly_endScan

/-- **A close is about the poller:** what was handed over, and what runs, stays. -/
theorem pollerOnly_close (c : Cache) : PollerOnly c c.close := by
  unfold close
  split
  · exact .refl c
  · have h := c.pollerOnly_poller { c.poller with closed := true }
    dsimp only
    split
    · exact (h.trans (pollerOnly_poller _ _)).trans (pollerOnly_record _ _)
    · exact h.trans (pollerOnly_record _ _)
    · exact h

/-- So is what is left when nobody holds the cache. -/
theorem pollerOnly_dispose (c : Cache) : PollerOnly c c.dispose := by
  unfold dispose
  split
  · exact c.pollerOnly_close
  · exact c.pollerOnly_poller _

/-! ## Operations that leave the store alone -/

/-- Two caches with the same store at the same time. -/
structure SameStore (c c' : Cache) : Prop where
  backing : c'.backing = c.backing
  now : c'.now = c.now

/-- Nothing differs from itself. -/
theorem SameStore.refl (c : Cache) : SameStore c c := ⟨rfl, rfl⟩

/-- The store stays the same from one operation to the next. -/
theorem SameStore.trans {a b c : Cache} (h : SameStore a b) (h' : SameStore b c) :
    SameStore a c :=
  ⟨h'.backing.trans h.backing, h'.now.trans h.now⟩

/-- What is about the poller leaves the store alone. -/
theorem PollerOnly.sameStore {c c' : Cache} (h : PollerOnly c c') : SameStore c c' :=
  ⟨h.backing, h.now⟩

/-- What is about tasks leaves the store alone. -/
theorem TasksOnly.sameStore {c c' : Cache} (h : TasksOnly c c') : SameStore c c' :=
  ⟨h.backing, h.now⟩

/-- Marks are not in the store. -/
theorem sameStore_resetMark (c : Cache) (family : Nat) : SameStore c (c.resetMark family) :=
  ⟨rfl, rfl⟩

/-- A load leaves without a trace in the store. -/
theorem sameStore_leave (c : Cache) (l : Load) : SameStore c (c.leave l) := ⟨rfl, rfl⟩

/-- A registration never calls the store. -/
theorem sameStore_schedule (c : Cache) (r : Request) : SameStore c (c.schedule r).2 := by
  unfold schedule register
  split
  · exact ⟨rfl, rfl⟩
  · split
    · exact (c.pollerOnly_enroll r).sameStore
    · split
      · exact ⟨rfl, rfl⟩
      · exact (c.sameStore_resetMark _).trans (pollerOnly_enroll _ r).sameStore

/-- To make a request due does not call the store. -/
theorem sameStore_resetRegistered (c : Cache) (k : Key) :
    SameStore c (c.resetRegistered k) := by
  unfold resetRegistered
  split <;> exact ⟨rfl, rfl⟩

/-- Nor does it to make all of them due. -/
theorem sameStore_resetAll (c : Cache) : SameStore c c.resetAll := by
  unfold resetAll
  generalize c.poller.registry.requests.values = regs
  induction regs generalizing c with
  | nil => exact .refl c
  | cons reg regs ih => exact (c.sameStore_resetMark _).trans (ih _)

/-- A failed load is noted before the store is called. -/
theorem sameStore_failed (c : Cache) (l : Load) (f : Failure) :
    SameStore c (c.failed l f) := by
  unfold failed
  cases (cell l).log.text? f <;> exact ⟨rfl, rfl⟩

/-! ## Operations that move no task -/

/-- Two caches with the same tasks, the same loads of callers and the same keys marked as being
reloaded. -/
structure SameTasks (c c' : Cache) : Prop where
  waiting : c'.crew.waiting = c.crew.waiting
  held : c'.crew.held = c.crew.held
  inFlight : c'.inFlight = c.inFlight
  callers : c'.callers = c.callers
  nextLoad : c'.nextLoad = c.nextLoad

/-- Nothing differs from itself. -/
theorem SameTasks.refl (c : Cache) : SameTasks c c := by constructor <;> rfl

/-- The tasks stay the same from one operation to the next. -/
theorem SameTasks.trans {a b c : Cache} (h : SameTasks a b) (h' : SameTasks b c) :
    SameTasks a c where
  waiting := h'.waiting.trans h.waiting
  held := h'.held.trans h.held
  inFlight := h'.inFlight.trans h.inFlight
  callers := h'.callers.trans h.callers
  nextLoad := h'.nextLoad.trans h.nextLoad

/-- With the same tasks, the same loads are under way. -/
theorem SameTasks.loads {c c' : Cache} (h : SameTasks c c') : c'.loads = c.loads := by
  unfold Cache.loads
  rw [h.callers, h.held]

/-- What is about the store leaves the tasks alone. -/
theorem StoreOnly.sameTasks {c c' : Cache} (h : StoreOnly c c') : SameTasks c c' where
  waiting := by rw [h.crew]
  held := by rw [h.crew]
  inFlight := h.inFlight
  callers := h.callers
  nextLoad := h.nextLoad

/-- What is about the store and the marks leaves the tasks alone. -/
theorem StoreAndMarks.sameTasks {c c' : Cache} (h : StoreAndMarks c c') : SameTasks c c' where
  waiting := by rw [h.crew]
  held := by rw [h.crew]
  inFlight := h.inFlight
  callers := h.callers
  nextLoad := h.nextLoad

/-- What is about the poller leaves the tasks alone. -/
theorem PollerOnly.sameTasks {c c' : Cache} (h : PollerOnly c c') : SameTasks c c' where
  waiting := by rw [h.crew]
  held := by rw [h.crew]
  inFlight := h.inFlight
  callers := h.callers
  nextLoad := h.nextLoad

/-- The clock moves no task. -/
theorem sameTasks_tick (c : Cache) (now : Nat) : SameTasks c (c.tick now) := by
  constructor <;> rfl

/-- A registration begins no reload, not even of what it makes due. -/
theorem sameTasks_schedule (c : Cache) (r : Request) : SameTasks c (c.schedule r).2 := by
  unfold schedule register
  split
  · exact (c.pollerOnly_record _).sameTasks
  · split
    · exact (c.pollerOnly_enroll r).sameTasks
    · split
      · exact (c.pollerOnly_record _).sameTasks
      · exact (c.storeAndMarks_resetMark _).sameTasks.trans (pollerOnly_enroll _ r).sameTasks

end Evergreen.Cache
