import Mathlib.Data.List.Perm.Basic
import Evergreen.Proofs.Ledger

/-!
# Failures of the store and their reports

A call of the store that fails is counted and logged, with its operation and its key, by
whoever made it: a lookup, a removal, a clear, a write. One call is not: the read that a load
makes for the write guard. The ledger of a run (`told_history`) says how the two balance.

- `storeWarnings_eq`: the log warns of exactly the failures that are reported;
- `store_failures_reported`: the failed calls are those that the log warns of, each once, and
  the reads of the write guard that failed; the counter of failures counts the former, so it
  and the log are complete exactly if no read of the guard fails;
- `unreported_store_failure`: such a read can fail.
-/

namespace Evergreen

/-! ## The log -/

namespace LogRecord

/-- A record that warns of a failure of the store. -/
def warnsOfStore (r : LogRecord) : Bool :=
  r.level == .warn && r.message == "store operation failed, continuing without it"

/-- The value of a field of a record. -/
def field? (r : LogRecord) (name : String) : Option FieldValue := r.fields.lookup name

/-- The operation and the key that a record names. -/
def named (r : LogRecord) : Option FieldValue × Option FieldValue := (r.field? "op", r.field? "key")

end LogRecord

/-- How a record names a call of the store. -/
def StoreCall.named (call : StoreCall) : Option FieldValue × Option FieldValue :=
  (some (.text call.1.word), some (.text (call.2.getD Event.everyKey)))

/-- The records of events that warn of failures of the store. -/
def storeWarnings (es : List Event) : List LogRecord :=
  (es.filterMap Event.record?).filter LogRecord.warnsOfStore

/-- **The log warns of reported failures alone,** and names them. -/
theorem storeWarnings_eq (es : List Event) :
    (storeWarnings es).map LogRecord.named = (es.filterMap Event.report?).map StoreCall.named := by
  induction es with
  | nil => rfl
  | cons e es ih =>
    simp only [storeWarnings, List.filterMap_cons] at ih ⊢
    cases e with
    | storeFailed op key fault =>
      simp only [Event.record?, Event.report?, List.map_cons, ← ih]
      rfl
    | _ => exact ih

namespace Cache

/-! ## What is reported -/

/-- The calls of the store that failed in a run, the latest first. -/
def failedCalls (c : Cache) (ms : List Move) : List StoreCall :=
  (c.history ms).filterMap Event.failedCall?

/-- The failed calls of a run are those that were reported, and the reads that were not. -/
theorem failedCalls_perm (c : Cache) (ms : List Move) :
    (c.failedCalls ms).Perm ((c.history ms).filterMap Event.report? ++
      (c.unreadIn ms).map fun k => (.get, some k)) := by
  rw [List.perm_iff_count]
  intro call
  rw [List.count_append]
  exact (c.told_history ms).reports call

/-- As many failures are counted as are reported. -/
theorem storeErrors_run (c : Cache) (ms : List Move) :
    (c.run ms).counters .storeErrors =
      c.counters .storeErrors + ((c.history ms).filterMap Event.report?).length := by
  have hcounted (es : List Event) : es.countP (·.counter? = some .storeErrors) =
      (es.filterMap Event.report?).length := by
    -- the counter counts reports, and no other event
    induction es with
    | nil => rfl
    | cons e es ih =>
      rw [List.countP_cons, List.filterMap_cons, ih]
      cases e with
      | storeCalled op key answer =>
        cases op with
        | set => rcases answer with _ | _ | ⟨_ | _, _⟩ | _ | _ <;> rfl
        | _ => rfl
      | loaderCalled key call invocation mode stale => cases invocation <;> rfl
      | _ => rfl
  rw [(c.told_history ms).counters _ rfl, hcounted]

theorem counters_of_launched {c : Cache} (h : c.Launched) : c.counters = Counters.zero := by
  obtain ⟨⟨b, now, hb⟩, -⟩ := h
  obtain ⟨executor, rfl⟩ := eq_of_build hb
  rfl

/-- Every failure of the store in a run was counted, and warned of once. -/
structure AllReported (c : Cache) (ms : List Move) : Prop where
  counted : (c.run ms).counters .storeErrors = (c.failedCalls ms).length
  warned : ((storeWarnings (c.history ms)).map LogRecord.named).Perm
    ((c.failedCalls ms).map StoreCall.named)

/-- **Which failures of the store are reported.** In every run of a cache just built, with any
pattern of failing calls, the calls that failed are those that the log warns of, each once and
by its operation and key, and the reads of the write guard that failed. The counter of failures
counts the former. So no failure goes unreported exactly if no read of the guard fails. -/
theorem store_failures_reported {c : Cache} (hc : c.Launched) (ms : List Move) :
    (c.run ms).counters .storeErrors + (c.unreadIn ms).length = (c.failedCalls ms).length ∧
    ((c.failedCalls ms).map StoreCall.named).Perm
      ((storeWarnings (c.history ms)).map LogRecord.named ++
        (c.unreadIn ms).map fun k => StoreCall.named (.get, some k)) ∧
    (c.AllReported ms ↔ c.unreadIn ms = []) := by
  have hperm := c.failedCalls_perm ms
  have hlength : (c.run ms).counters .storeErrors + (c.unreadIn ms).length =
      (c.failedCalls ms).length := by
    have hl := hperm.length_eq
    have hz : c.counters .storeErrors = 0 := by rw [counters_of_launched hc]; rfl
    rw [List.length_append, List.length_map] at hl
    rw [storeErrors_run]
    omega
  have hwarned : ((c.failedCalls ms).map StoreCall.named).Perm
      ((storeWarnings (c.history ms)).map LogRecord.named ++
        (c.unreadIn ms).map fun k => StoreCall.named (.get, some k)) := by
    have hm := hperm.map StoreCall.named
    rw [List.map_append, ← storeWarnings_eq, List.map_map] at hm
    exact hm
  refine ⟨hlength, hwarned, fun h => ?_, fun h => ?_⟩
  · have := h.counted
    exact List.length_eq_zero_iff.1 (by omega)
  · rw [h] at hlength hwarned
    rw [List.map_nil, List.append_nil] at hwarned
    exact ⟨hlength, hwarned.symm⟩

/-- The first read of the store passes, the next one fails. -/
def failingRead : Forecast
  | .get, 1 => .fail (.unavailable "down")
  | _, _ => .pass

/-- A get finds nothing, and the write guard of its load cannot read the store. -/
def guardFails : List Move :=
  [.forecast failingRead, .get { profile with mode := .block }, .finish 0 (.value "new" true)]

/-- One call fails, and none is counted. -/
theorem store_failures_reported_guardFails :
    ((overMap .threads).run guardFails).counters .storeErrors + 1 = 1 ∧
      ¬ (overMap .threads).AllReported guardFails := by
  obtain ⟨hlength, -, hall⟩ := store_failures_reported (launched_overMap .threads) guardFails
  exact ⟨hlength, fun h => absurd (hall.1 h) (by decide)⟩

/-- **A failure of the store can go unreported.** -/
theorem unreported_store_failure :
    ¬ ∀ (c : Cache) (ms : List Move), c.Launched → c.AllReported ms := by
  intro h
  have hcounted := (h _ guardFails (launched_overMap .threads)).counted
  revert hcounted
  decide

end Cache

end Evergreen
