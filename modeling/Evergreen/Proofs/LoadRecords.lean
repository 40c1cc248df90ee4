import Evergreen.Proofs.CarryOvers
import Evergreen.Proofs.Endurance
import Evergreen.Proofs.StoreReports

/-!
# What is logged of loads

Of loads and reloads three things are logged: that a loader has failed, that a reload was not
handed over because another of its key is in flight, and that the executor has refused one. Each
is an event of its own (`Event.ofLoads`), noted where it happens and nowhere else. So the log of
a run is known from two lists: the loads whose loaders came back with a failure (`failedLoads`),
and the offers of reloads (`offersMade`).

- `NotesLoads`: what an operation notes of loads, piece by piece;
- `notesLoads_finish`, `notesLoads_offer`: the two operations that note anything;
- `notesLoads_after`, `filter_noted`: what a move notes;
- `trace_eq`: the text of a failure is made of the messages of its whole chain;
- `loaderWarnings_history`, `reloadRecords_history`: the log of a run.
-/

namespace Evergreen

namespace Event

/-- An event that tells of a loader that failed, or of a reload that was not taken up. -/
def ofLoads : Event → Bool
  | loaderFailed .. | reloadInFlight _ | reloadRefused .. => true
  | _ => false

end Event

namespace Cache

/-! ## What operations note of loads -/

/-- The journal has grown, and of what it has grown by, `es` are the events of loads. -/
def NotesLoads (c c' : Cache) (es : List Event) : Prop :=
  ∃ all, c'.journal = all ++ c.journal ∧ all.filter Event.ofLoads = es

section Pieces

variable {a b c : Cache} {es es' : List Event}

theorem NotesLoads.trans (h : NotesLoads a b es) (h' : NotesLoads b c es') :
    NotesLoads a c (es' ++ es) := by
  obtain ⟨all, hj, hes⟩ := h
  obtain ⟨all', hj', hes'⟩ := h'
  exact ⟨all' ++ all, by rw [hj', hj, List.append_assoc], by rw [List.filter_append, hes, hes']⟩

theorem NotesLoads.andThen (h : NotesLoads a b es) (h' : NotesLoads b c []) :
    NotesLoads a c es := h.trans h'

theorem NotesLoads.after (h : NotesLoads b c es) (h' : NotesLoads a b []) : NotesLoads a c es := by
  simpa only [List.append_nil] using h'.trans h

/-- Where nothing is noted, nothing is noted of loads. -/
theorem notesLoads_nothing (h : b.journal = a.journal) : NotesLoads a b [] := ⟨[], h, rfl⟩

theorem NotesLoads.refl (c : Cache) : NotesLoads c c [] := notesLoads_nothing rfl

/-- Only the journal matters. -/
theorem NotesLoads.congr (h : NotesLoads a b es) (hj : c.journal = b.journal) :
    NotesLoads a c es := h.andThen (notesLoads_nothing hj)

theorem NotesLoads.congr_left (h : NotesLoads b c es) (hj : b.journal = a.journal) :
    NotesLoads a c es := h.after (notesLoads_nothing hj)

/-- An event of loads. -/
theorem notesLoads_event {e : Event} (he : e.ofLoads = true) (hj : b.journal = e :: a.journal) :
    NotesLoads a b [e] := ⟨[e], hj, by simp [he]⟩

/-- Any other event. -/
theorem notesLoads_other {e : Event} (he : e.ofLoads = false) (hj : b.journal = e :: a.journal) :
    NotesLoads a b [] := ⟨[e], hj, by simp [he]⟩

theorem notesLoads_record {e : Event} (he : e.ofLoads = false) (c : Cache) :
    NotesLoads c (c.record e) [] := notesLoads_other he rfl

end Pieces

section Store

variable (c : Cache)

theorem notesLoads_reported {α : Type} (op : StoreOp) (key : Option Key)
    (answer : Except StoreFault α) : NotesLoads c (c.reported op key answer) [] := by
  cases answer with
  | ok _ => exact .refl c
  | error fault => exact notesLoads_other (e := .storeFailed op key fault) rfl rfl

theorem notesLoads_fetch (k : Key) : NotesLoads c (c.fetch k).2 [] :=
  notesLoads_other (e := .storeCalled .get (some k) _) rfl rfl

theorem notesLoads_drop (k : Key) : NotesLoads c (c.drop k).2 [] := by
  have hcall : NotesLoads c (c.delete k).2 [] :=
    notesLoads_other (e := .storeCalled .remove (some k) _) rfl rfl
  rw [drop_eq]
  exact hcall.andThen (notesLoads_reported ..)

theorem notesLoads_dropAll : NotesLoads c c.dropAll [] := by
  have hcall : NotesLoads c c.wipe.2 [] :=
    notesLoads_other (e := .storeCalled .clear none _) rfl rfl
  rw [dropAll_eq]
  exact hcall.andThen (notesLoads_reported ..)

theorem notesLoads_lookup (k : Key) : NotesLoads c (c.lookup k).2 [] := by
  have hg : NotesLoads c (c.glanced k) [] :=
    (c.notesLoads_fetch k).andThen (notesLoads_reported ..)
  rw [lookup_eq]
  cases hit (c.fetch k).1 with
  | none => exact hg
  | some e =>
    dsimp only
    split
    · exact (hg.andThen (notesLoads_record rfl _)).andThen (notesLoads_drop _ k)
    · exact hg

theorem notesLoads_write (k : Key) (e : Entry) : NotesLoads c (c.write k e).2 [] := by
  have hcall : NotesLoads c (c.put k e).2 [] :=
    notesLoads_other (e := .storeCalled .set (some k) _) rfl rfl
  rw [write_eq]
  have hr := hcall.andThen (notesLoads_reported (c.put k e).2 .set (some k) (c.put k e).1)
  cases took (c.put k e).1 with
  | true => exact hr.congr rfl
  | false => exact hr

theorem notesLoads_writeLoaded (k : Key) (e : Entry) (started : Nat) :
    NotesLoads c (c.writeLoaded k e started).2 [] := by
  have hf := c.notesLoads_fetch k
  rw [writeLoaded_eq]
  cases holdsOff started (hit (c.fetch k).1) with
  | true => exact hf.andThen (notesLoads_other (e := .superseded k) rfl rfl)
  | false => exact hf.andThen (notesLoads_write _ k e)

end Store

/-- What is noted of a load whose loader fails: a text, if its cell has one logged. -/
def failureNotes (l : Load) (f : Failure) : List Event :=
  ((cell l).log.text? f).toList.map (.loaderFailed l.key l.request.mode l.invocation)

/-- What is noted of a load that ends. -/
def endNotes (l : Load) : Outcome → List Event
  | .failure f => failureNotes l f
  | _ => []

section Loads

variable (c : Cache)

theorem notesLoads_enter (r : Request) (stale : Option Entry) (seat : Seat) :
    NotesLoads c (c.enter r stale seat).2 [] := by
  cases seat <;> exact notesLoads_other (e := .loaderCalled ..) rfl rfl

theorem notesLoads_failed (l : Load) (f : Failure) :
    NotesLoads c (c.failed l f) (failureNotes l f) := by
  unfold failed failureNotes
  cases (cell l).log.text? f with
  | none => exact notesLoads_nothing rfl
  | some text => exact notesLoads_event rfl rfl

theorem notesLoads_writeBack (l : Load) (e : Entry) (how : WriteBack) :
    NotesLoads c (c.writeBack l e how) [] := by
  cases how with
  | dontCache => exact .refl c
  | cacheExpired => exact c.notesLoads_writeLoaded ..
  | cacheFresh => exact (c.notesLoads_writeLoaded ..).congr rfl

theorem notesLoads_settle (l : Load) (o : Outcome) :
    NotesLoads c (c.settle l o).2 (endNotes l o) := by
  cases o with
  | value v cacheable =>
    cases cacheable with
    | false => exact notesLoads_nothing rfl
    | true => exact (c.notesLoads_writeLoaded ..).congr rfl
  | failure f =>
    have hf := c.notesLoads_failed l f
    rw [settle_failure, recover_eq]
    cases l.stale with
    | none => exact hf
    | some e => exact hf.andThen (notesLoads_writeBack _ l e _)
  | panic text => exact .refl c

/-- What the end of a load means to the thread it ran on is noted, but not as an event of
loads. -/
theorem notesLoads_ended (l : Load) (o : Outcome) :
    NotesLoads ((c.leave l).settle l o).2 (c.finish l o).2 [] := by
  unfold finish
  obtain ⟨ending, c'⟩ := (c.leave l).settle l o
  have hclear : NotesLoads c' (c'.clearInFlight l.key) [] := notesLoads_nothing rfl
  have hdropped (fault : CallFault) : NotesLoads c'
      ((c'.record (.failureDropped fault l.key)).clearInFlight l.key) [] :=
    notesLoads_other (e := .failureDropped fault l.key) rfl rfl
  cases l.seat with
  | caller => exact .refl c'
  | worker =>
    cases ending with
    | returned v => exact hclear
    | failed fault => exact hdropped fault
    | panicked text =>
      obtain ⟨_, _, _, executor, _, _, _, _, _, _, _, _, _⟩ := c'
      cases executor with
      | pool workers room => exact hclear.andThen (notesLoads_record rfl _)
      | _ => exact hclear
  | lent byPoller =>
    -- the offer is over, too, unless the loader has panicked
    have hoffered {d : Cache} (hd : NotesLoads c' d []) : NotesLoads c'
        (if byPoller then (d.count .reloadsStarted).record (.refreshOffered l.key .started)
          else d.count .reloadsStarted) [] := by
      cases byPoller with
      | false => exact hd.congr rfl
      | true => exact hd.andThen (notesLoads_other (e := .refreshOffered l.key .started) rfl rfl)
    cases ending with
    | returned v => exact hoffered hclear
    | failed fault => exact hoffered (hdropped fault)
    | panicked text =>
      cases byPoller with
      | false => exact hclear
      | true => exact hclear.congr rfl

theorem notesLoads_finish (l : Load) (o : Outcome) :
    NotesLoads c (c.finish l o).2 (endNotes l o) := by
  have hs : NotesLoads c ((c.leave l).settle l o).2 (endNotes l o) :=
    ((c.leave l).notesLoads_settle l o).congr_left rfl
  exact hs.andThen (c.notesLoads_ended l o)

end Loads

/-- What is noted of a reload that is offered under a key, if the executor does not get it. -/
def offerNotes (k : Key) : Offer → List Event
  | .done .alreadyInFlight => [.reloadInFlight k]
  | .done (.refused why) => [.reloadRefused k why]
  | .done .started | .running _ => []

section Offers

variable (c : Cache)

theorem notesLoads_offer (r : Request) (stale : Option Entry) (byPoller : Bool) :
    NotesLoads c (c.offer r stale byPoller).2 (offerNotes r.key (c.offer r stale byPoller).1) := by
  rcases c.offer_cases r stale byPoller with
    ⟨-, ho⟩ | ⟨-, -, ho⟩ | ⟨-, crew, -, ho⟩ | ⟨-, why, -, ho⟩
  · rw [ho]
    exact notesLoads_event rfl rfl
  · rw [ho]
    exact (notesLoads_enter (c.markInFlight r.key) r stale (.lent byPoller)).congr_left rfl
  · rw [ho]
    exact notesLoads_nothing rfl
  · rw [ho]
    exact notesLoads_event rfl rfl

theorem notesLoads_looked (r : Request) : NotesLoads c (c.looked r) [] :=
  (c.notesLoads_lookup r.key).congr rfl

theorem notesLoads_startPoller : NotesLoads c c.startPoller [] := by
  unfold startPoller
  split
  · exact notesLoads_other (e := .pollerStarted _) rfl rfl
  · exact .refl c

theorem notesLoads_enroll (r : Request) : NotesLoads c (c.enroll r) [] :=
  (notesLoads_startPoller { c with
    poller := { c.poller with registry := c.poller.registry.insert r } }).congr_left rfl

theorem notesLoads_registerIfAbsent (r : Request) :
    NotesLoads c (c.registerIfAbsent r).2 [] := by
  unfold registerIfAbsent
  split
  · exact notesLoads_record rfl c
  · split
    · exact .refl c
    · exact c.notesLoads_enroll r

/-- What is noted of the reload that a move offers, if it offers one. -/
def offerNotesOf (c : Cache) (m : Move) : List Event :=
  (c.offered? m).elim [] fun p => offerNotes p.1.key p.2

theorem notesLoads_get (r : Request) :
    NotesLoads c (c.get r).2 (c.offerNotesOf (.get r)) := by
  have hl := c.notesLoads_looked r
  have hnotes : c.offerNotesOf (.get r) = if c.nextAction r = .serveAndReload then
      offerNotes r.key ((c.looked r).offer r (c.usable r) false).1 else [] := by
    unfold offerNotesOf offered?
    dsimp only
    split <;> rfl
  rw [get_snd, hnotes]
  cases c.nextAction r with
  | serve => exact hl
  | loadForCaller => exact hl.andThen (notesLoads_enter ..)
  | serveAndReload => exact (notesLoads_offer ..).after hl
  | serveAndRegister => exact hl.andThen (notesLoads_registerIfAbsent ..)

theorem notesLoads_visit {r : Request} (hv : c.canVisit r = true) :
    NotesLoads c (c.visit r).2 (c.offerNotesOf (.visit r)) := by
  have hp := scanning_of_canVisit hv
  have hl : NotesLoads c (c.visited c.scanLeft r) [] := (notesLoads_lookup
    { c with poller := { c.poller with phase := .scanning (c.scanLeft.erase r) } } r.key).congr_left
      rfl
  have ho := (notesLoads_offer (c.visited c.scanLeft r) r (c.visitFinds c.scanLeft r) true).after hl
  simp only [offerNotesOf, offered?, if_pos hv, Option.elim_some]
  rcases visit_snd hp r with hv | ⟨o, hv⟩
  · rw [hv]
    exact ho
  · rw [hv]
    exact ho.andThen (notesLoads_record rfl _)

end Offers

section Others

variable (c : Cache)

theorem notesLoads_set (k : Key) (v : Value) (ttl : Nat) : NotesLoads c (c.set k v ttl).2 [] := by
  rcases c.set_eq_or k v ttl with ⟨fault, h⟩ | h
  · rw [h]
    exact .refl c
  · rw [h]
    exact c.notesLoads_write k _

theorem notesLoads_setEntry (k : Key) (e : Entry) : NotesLoads c (c.setEntry k e).2 [] := by
  rcases c.setEntry_eq_or k e with ⟨fault, h⟩ | h
  · rw [h]
    exact .refl c
  · rw [h]
    exact c.notesLoads_write k e

theorem notesLoads_remove (k : Key) : NotesLoads c (c.remove k).2 [] := by
  have hr : NotesLoads c (c.resetRegistered k) [] := by
    unfold resetRegistered
    split <;> exact notesLoads_nothing rfl
  exact hr.andThen (notesLoads_drop _ k)

theorem notesLoads_resetAll : NotesLoads c c.resetAll [] := by
  unfold resetAll
  generalize c.poller.registry.requests.values = regs
  induction regs generalizing c with
  | nil => exact .refl c
  | cons reg regs ih => exact (ih (c.resetMark reg.request.family)).congr_left rfl

theorem notesLoads_schedule (r : Request) : NotesLoads c (c.schedule r).2 [] := by
  unfold schedule register
  split
  · exact notesLoads_record rfl c
  · split
    · exact c.notesLoads_enroll r
    · split
      · exact notesLoads_record rfl c
      · exact (notesLoads_enroll (c.resetMark r.family) r).congr_left rfl

theorem notesLoads_beginScan : NotesLoads c (c.beginScan?.getD c) [] := by
  unfold beginScan?
  split
  · split
    · exact notesLoads_other (e := .scanBegan c.now) rfl rfl
    · exact .refl c
  · exact .refl c

theorem notesLoads_endScan : NotesLoads c c.endScan [] := by
  unfold endScan
  split
  · dsimp only
    split
    · exact notesLoads_other (e := .pollerStopped) rfl rfl
    · exact notesLoads_nothing rfl
  · exact .refl c

theorem notesLoads_close : NotesLoads c c.close [] := by
  unfold close
  split
  · exact .refl c
  · dsimp only
    split
    · exact notesLoads_other (e := .pollerStopped) rfl rfl
    · exact notesLoads_other (e := .pollerPanicked) rfl rfl
    · exact notesLoads_nothing rfl

theorem notesLoads_dispose : NotesLoads c c.dispose [] := by
  unfold dispose
  split
  · exact c.notesLoads_close
  · exact notesLoads_nothing rfl

theorem notesLoads_purged : NotesLoads c c.purged [] := by
  unfold purged
  split <;> exact notesLoads_nothing rfl

end Others

/-! ## Moves and runs -/

/-- The load whose loader comes back with a failure, and the failure, where a move is that. -/
def failedLoad? (c : Cache) : Move → Option (Load × Failure)
  | .finish id (.failure f) => (c.load? id).map (·, f)
  | _ => none

/-- What is noted of the load whose loader fails with a move. -/
def failureNotesOf (c : Cache) (m : Move) : List Event :=
  (c.failedLoad? m).elim [] fun p => failureNotes p.1 p.2

section Moves

variable (c : Cache)

/-- **What a move notes of loads,** unless it takes the journal away: the failure of a loader and
the offer of a reload, and no move is both. -/
theorem notesLoads_after {m : Move} (hm : m ≠ .forget) :
    NotesLoads c (c.after m) (c.failureNotesOf m ++ c.offerNotesOf m) := by
  cases m with
  | get r => exact c.notesLoads_get r
  | peek k => exact c.notesLoads_lookup k
  | set k v ttl => exact c.notesLoads_set k v ttl
  | setEntry k e => exact c.notesLoads_setEntry k e
  | remove k => exact c.notesLoads_remove k
  | removeAll => exact c.notesLoads_dropAll.andThen (notesLoads_resetAll _)
  | schedule r => exact c.notesLoads_schedule r
  | close => exact c.notesLoads_close
  | dispose => exact c.notesLoads_dispose
  | start place =>
    rcases c.after_start place with h | ⟨task, -, h⟩
    · rw [h]
      exact .refl c
    · rw [h]
      exact (notesLoads_enter
        { c with crew := { c.crew with waiting := c.crew.waiting.eraseIdx place } }
        task.request task.stale .worker).congr_left rfl
  | discard place =>
    rcases c.after_discard place with h | ⟨task, -, h⟩
    · rw [h]
      exact .refl c
    · rw [h]
      exact notesLoads_nothing rfl
  | finish id o =>
    have hnotes : c.failureNotesOf (.finish id o) = (c.load? id).elim [] fun l => endNotes l o := by
      cases o with
      | failure f =>
        show ((c.load? id).map (·, f)).elim [] _ = _
        cases c.load? id <;> rfl
      | _ => cases c.load? id <;> rfl
    rw [hnotes, show c.offerNotesOf (.finish id o) = [] from rfl, List.append_nil]
    simp only [after]
    cases c.load? id with
    | none => exact .refl c
    | some l => exact c.notesLoads_finish l o
  | beginScan => exact c.notesLoads_beginScan
  | visit r =>
    simp only [after]
    split
    · rename_i hv
      exact c.notesLoads_visit hv
    · rename_i hv
      simp only [failureNotesOf, failedLoad?, offerNotesOf, offered?, if_neg hv]
      exact .refl c
  | endScan =>
    simp only [after]
    split
    · exact .refl c
    · exact c.notesLoads_endScan
  | purge => exact c.notesLoads_purged
  | tick _ | unschedule _ | shut | forecast _ => exact notesLoads_nothing rfl
  | forget => exact absurd rfl hm

theorem filter_noted (m : Move) :
    (c.noted m).filter Event.ofLoads = c.failureNotesOf m ++ c.offerNotesOf m := by
  by_cases hm : m = .forget
  · subst hm
    simp [noted, after, failureNotesOf, failedLoad?, offerNotesOf, offered?]
  · obtain ⟨all, hj, hes⟩ := c.notesLoads_after hm
    have hn : c.noted m = all := by simp [noted, hj]
    rw [hn, hes]

/-- The loads of a run whose loaders came back with a failure, and the failures, the latest
first. -/
def failedLoads (c : Cache) : List Move → List (Load × Failure)
  | [] => []
  | m :: ms => (c.after m).failedLoads ms ++ (c.failedLoad? m).toList

/-- The offers of reloads that a run makes, and what comes of them, the latest first. -/
def offersMade (c : Cache) : List Move → List (Request × Offer)
  | [] => []
  | m :: ms => (c.after m).offersMade ms ++ (c.offered? m).toList

end Moves

/-! ## The log -/

end Cache

namespace LogRecord

/-- A record that warns of a loader that failed. -/
def warnsOfLoader (r : LogRecord) : Bool := r.level == .warn && r.message == "loader failed"

/-- A record of a reload that was not taken up. -/
def ofReload (r : LogRecord) : Bool :=
  r.message == "reload already in flight, dropping request" ||
    r.message == "background reload not started"

end LogRecord

namespace Cache

/-- The text of a failure under a log action, if there is one: its message, or those of its whole
chain, outermost first. -/
def failureText? (f : Failure) : LogAction → Option String
  | .none => none
  | .message => some f.message
  | .fullStack => some ("\n  caused by: ".intercalate f.messages)

/-- The warning of a load whose loader failed, if its cell has one logged. -/
def failureWarning? (p : Load × Failure) : Option LogRecord :=
  (failureText? p.2 (cell p.1).log).map fun text =>
    ⟨.warn, "loader failed", [("key", .text p.1.key), ("mode", .text p.1.request.mode.word),
      ("background", .flag (p.1.seat != .caller)), ("error", .text text)]⟩

/-- The record of an offer under a key that came to nothing. -/
def offerRecord? (k : Key) : Offer → Option LogRecord
  | .done .alreadyInFlight =>
    some ⟨.debug, "reload already in flight, dropping request", [("key", .text k)]⟩
  | .done (.refused why) =>
    some ⟨.warn, "background reload not started",
      [("key", .text k), ("reason", .text why.message)]⟩
  | .done .started | .running _ => none

section Log

/-- What stands between messages stands before each but the first. -/
theorem intercalate_cons (sep m : List Char) (ms : List (List Char)) :
    sep.intercalate (m :: ms) = m ++ ms.flatMap (sep ++ ·) := by
  induction ms generalizing m with
  | nil => simp
  | cons m' ms ih =>
    rw [List.intercalate_cons_cons, ih, List.flatMap_cons, List.append_assoc, List.append_assoc]

theorem trace_eq (f : Failure) : f.trace = "\n  caused by: ".intercalate f.messages := by
  apply String.toList_inj.1
  rw [String.toList_intercalate, Failure.messages, List.map_cons, intercalate_cons, Failure.trace,
    String.toList_append, String.toList_join, List.flatMap_map, List.flatMap_map]
  simp only [String.toList_append]

theorem text?_eq (f : Failure) (a : LogAction) : a.text? f = failureText? f a := by
  cases a with
  | fullStack => exact congrArg some (trace_eq f)
  | _ => rfl

/-- Only events of loads are logged by records that warn of loaders, or are about reloads. -/
theorem ofLoads_of_record? {e : Event} {r : LogRecord} (he : e.record? = some r)
    (hr : r.warnsOfLoader = true ∨ r.ofReload = true) : e.ofLoads = true := by
  cases e with
  | loaderFailed | reloadInFlight | reloadRefused => rfl
  | _ =>
    cases he
    all_goals simp [LogRecord.warnsOfLoader, LogRecord.ofReload] at hr

/-- The log of loads is made from the events of loads. -/
theorem filter_records {p : LogRecord → Bool}
    (hp : ∀ r, p r = true → r.warnsOfLoader = true ∨ r.ofReload = true) (es : List Event) :
    (es.filterMap Event.record?).filter p =
      ((es.filter Event.ofLoads).filterMap Event.record?).filter p := by
  rw [List.filterMap_filter, List.filter_filterMap, List.filter_filterMap]
  refine List.filterMap_congr fun e _ => ?_
  cases he : e.ofLoads with
  | true => rfl
  | false =>
    -- whatever is logged of another event is none of the records in question
    cases hr : e.record? with
    | none => rfl
    | some r =>
      have hpr : ¬p r = true := fun h => by simp [ofLoads_of_record? hr (hp r h)] at he
      simp [Option.filter, hpr]

theorem records_failureNotes (l : Load) (f : Failure) :
    (failureNotes l f).filterMap Event.record? = (failureWarning? (l, f)).toList := by
  have hseat : l.invocation.isBackground = (l.seat != .caller) := by
    unfold Load.invocation
    cases l.seat <;> rfl
  unfold failureNotes failureWarning?
  rw [text?_eq, ← hseat]
  cases failureText? f (cell l).log <;> rfl

theorem records_offerNotes (k : Key) (o : Offer) :
    (offerNotes k o).filterMap Event.record? = (offerRecord? k o).toList := by
  rcases o with (_ | _ | why) | l <;> rfl

end Log

/-- The records of events that warn of loaders that failed. -/
def loaderWarnings (es : List Event) : List LogRecord :=
  (es.filterMap Event.record?).filter LogRecord.warnsOfLoader

/-- The records of events that are about reloads that were not taken up. -/
def reloadRecords (es : List Event) : List LogRecord :=
  (es.filterMap Event.record?).filter LogRecord.ofReload

section Runs

variable {c : Cache}

theorem kind_of_failureWarning? {p : Load × Failure} {r : LogRecord}
    (h : failureWarning? p = some r) : r.warnsOfLoader = true ∧ r.ofReload = false := by
  obtain ⟨text, -, rfl⟩ := Option.map_eq_some_iff.1 h
  exact ⟨rfl, rfl⟩

theorem kind_of_offerRecord? {k : Key} {o : Offer} {r : LogRecord}
    (h : offerRecord? k o = some r) : r.ofReload = true ∧ r.warnsOfLoader = false := by
  rcases o with (_ | _ | why) | l <;> cases h <;> exact ⟨rfl, rfl⟩

/-- The records of a move are those of the loader that fails with it, and of the reload that it
offers. -/
theorem records_noted (c : Cache) (m : Move) :
    ((c.noted m).filter Event.ofLoads).filterMap Event.record? =
      (c.failedLoad? m).toList.filterMap failureWarning? ++
        (c.offered? m).toList.filterMap fun p => offerRecord? p.1.key p.2 := by
  rw [filter_noted, List.filterMap_append, failureNotesOf, offerNotesOf]
  congr 1
  · cases c.failedLoad? m with
    | none => rfl
    | some p =>
      rw [Option.elim_some, records_failureNotes, Option.toList_some, List.filterMap_cons]
      cases failureWarning? p <;> rfl
  · cases c.offered? m with
    | none => rfl
    | some p =>
      rw [Option.elim_some, records_offerNotes, Option.toList_some, List.filterMap_cons]
      cases offerRecord? p.1.key p.2 <;> rfl

theorem loaderWarnings_noted (c : Cache) (m : Move) :
    loaderWarnings (c.noted m) = (c.failedLoad? m).toList.filterMap failureWarning? := by
  rw [loaderWarnings, filter_records fun r => .inl, records_noted, List.filter_append,
    List.filter_eq_self.2, List.filter_eq_nil_iff.2, List.append_nil]
  · intro r hr
    obtain ⟨p, -, hp⟩ := List.mem_filterMap.1 hr
    simp [(kind_of_offerRecord? hp).2]
  · intro r hr
    obtain ⟨p, -, hp⟩ := List.mem_filterMap.1 hr
    exact (kind_of_failureWarning? hp).1

theorem reloadRecords_noted (c : Cache) (m : Move) : reloadRecords (c.noted m) =
    (c.offered? m).toList.filterMap fun p => offerRecord? p.1.key p.2 := by
  rw [reloadRecords, filter_records fun r => .inr, records_noted, List.filter_append,
    List.filter_eq_nil_iff.2, List.nil_append, List.filter_eq_self.2]
  · intro r hr
    obtain ⟨p, -, hp⟩ := List.mem_filterMap.1 hr
    exact (kind_of_offerRecord? hp).1
  · intro r hr
    obtain ⟨p, -, hp⟩ := List.mem_filterMap.1 hr
    simp [(kind_of_failureWarning? hp).2]

/-- The warnings of a run are those of the loads whose loaders failed. -/
theorem loaderWarnings_history (c : Cache) (ms : List Move) :
    loaderWarnings (c.history ms) = (c.failedLoads ms).filterMap failureWarning? := by
  induction ms generalizing c with
  | nil => rfl
  | cons m ms ih =>
    rw [failedLoads, List.filterMap_append, ← ih, ← loaderWarnings_noted]
    simp only [loaderWarnings, history, List.filterMap_append, List.filter_append]

theorem reloadRecords_history (c : Cache) (ms : List Move) : reloadRecords (c.history ms) =
    (c.offersMade ms).filterMap fun p => offerRecord? p.1.key p.2 := by
  induction ms generalizing c with
  | nil => rfl
  | cons m ms ih =>
    rw [offersMade, List.filterMap_append, ← ih, ← reloadRecords_noted]
    simp only [reloadRecords, history, List.filterMap_append, List.filter_append]

theorem failedLoad?_eq_some {m : Move} {p : Load × Failure} (h : c.failedLoad? m = some p) :
    m = .finish p.1.id (.failure p.2) ∧ c.load? p.1.id = some p.1 := by
  cases m with
  | finish id o =>
    cases o with
    | failure f =>
      obtain ⟨l, hl, rfl⟩ := Option.map_eq_some_iff.1 h
      obtain ⟨rfl, hself⟩ := load?_self hl
      exact ⟨rfl, hself⟩
    | _ => cases h
  | _ => cases h

/-- A load that is over does not fail any more. -/
theorem ne_of_mem_failedLoads {id : Nat} (h : c.Over id) {ms : List Move} {p : Load × Failure}
    (hp : p ∈ c.failedLoads ms) : p.1.id ≠ id := by
  induction ms generalizing c with
  | nil => cases hp
  | cons m ms ih =>
    rcases List.mem_append.1 hp with hp | hp
    · exact ih (h.after m) hp
    · obtain ⟨-, hl⟩ := failedLoad?_eq_some (Option.mem_toList.1 hp)
      exact h.ended p.1 (List.mem_of_find?_eq_some hl)

/-- No load fails twice. -/
theorem nodup_failedLoads (hc : c.Accounted) (ms : List Move) :
    ((c.failedLoads ms).map (·.1.id)).Nodup := by
  induction ms generalizing c with
  | nil => exact List.nodup_nil
  | cons m ms ih =>
    rw [failedLoads, List.map_append]
    cases hm : c.failedLoad? m with
    | none => simpa using ih (hc.after m)
    | some p =>
      obtain ⟨rfl, hl⟩ := failedLoad?_eq_some hm
      -- what comes after finds the load over, so it does not fail again
      have hover := over_after_finish hc hl (.failure p.2)
      refine (ih (hc.after _)).append (List.nodup_singleton _) ?_
      rintro id hid hp
      obtain ⟨q, hq, rfl⟩ := List.mem_map.1 hid
      exact ne_of_mem_failedLoads hover hq (List.mem_singleton.1 hp)

/-- What an offer logs, all in all. -/
theorem log_offer (c : Cache) (r : Request) (stale : Option Entry) (byPoller : Bool) :
    (c.offer r stale byPoller).2.journal.filterMap Event.record? =
      (offerRecord? r.key (c.offer r stale byPoller).1).toList ++
        c.journal.filterMap Event.record? := by
  rcases c.offer_cases r stale byPoller with
    ⟨-, ho⟩ | ⟨-, -, ho⟩ | ⟨-, crew, -, ho⟩ | ⟨-, why, -, ho⟩
  all_goals
    rw [ho]
    rfl

end Runs

/-- **Loaders that fail are logged once each,** and reloads that are not taken up once each. In
every run from a cache that can be reached:

1. the warnings of loaders are those of the loads whose loaders came back with a failure and whose
   cell has one logged (`failureWarning?`), in their order, and no load does so twice; how many
   callers there were makes no difference;
2. the records about reloads are those of the offers that came to nothing: one for each that met a
   reload in flight, below a warning, and a warning with the reason for each that was refused
   (`offerRecord?`); an offer logs nothing else. -/
theorem loader_failures_logged_once {c : Cache} (hc : c.Reachable) (ms : List Move) :
    (((c.failedLoads ms).map (·.1.id)).Nodup ∧
      loaderWarnings (c.history ms) = (c.failedLoads ms).filterMap failureWarning?) ∧
    reloadRecords (c.history ms) =
      ((c.offersMade ms).filterMap fun p => offerRecord? p.1.key p.2) ∧
    ∀ (c' : Cache) r stale byPoller,
      (c'.offer r stale byPoller).2.journal.filterMap Event.record? =
        (offerRecord? r.key (c'.offer r stale byPoller).1).toList ++
          c'.journal.filterMap Event.record? :=
  ⟨⟨nodup_failedLoads (accounted_of_reachable hc) ms, loaderWarnings_history c ms⟩,
    reloadRecords_history c ms, log_offer⟩

/-- Two callers want the same reload, a third one finds no room for another; then the loader that
was called fails. -/
def failsWithChain : List Move :=
  [.get profile, .get profile, .get settings, .start 0,
    .finish 0 (.failure ⟨"down", ["no route", "cable cut"]⟩)]

/-- Three callers and one load: one warning of the loader, with its whole chain, and one record
for each of the two reloads that came to nothing. -/
theorem loader_failures_logged_once_failsWithChain :
    loaderWarnings ((overMap (.byHand (some 1))).history failsWithChain) =
      [⟨.warn, "loader failed", [("key", .text "profile"), ("mode", .text "async"),
        ("background", .flag true),
        ("error", .text "down\n  caused by: no route\n  caused by: cable cut")]⟩] ∧
    reloadRecords ((overMap (.byHand (some 1))).history failsWithChain) =
      [⟨.warn, "background reload not started",
          [("key", .text "settings"), ("reason", .text "executor is saturated")]⟩,
        ⟨.debug, "reload already in flight, dropping request", [("key", .text "profile")]⟩] := by
  obtain ⟨⟨-, hwarnings⟩, hrecords, -⟩ :=
    loader_failures_logged_once (reachable_overMap (.byHand (some 1))) failsWithChain
  exact ⟨hwarnings.trans (by decide), hrecords.trans (by decide)⟩

end Cache

end Evergreen
