import Evergreen.Text.Fixed
import Evergreen.Text.Layout
import Evergreen.Text.Quoted

/-!
# Counters

A cache counts what it does. A snapshot adds the share of lookups that found a value and the
time the cache has been up.
-/

namespace Evergreen

/-- What is counted. -/
inductive Counter where
  /-- Lookups served from a fresh value. -/
  | freshHits
  /-- Lookups that found a stale value. -/
  | staleHits
  /-- Lookups that found nothing usable. -/
  | misses
  /-- Loads that a caller waited for. -/
  | syncLoads
  | backgroundLoads
  /-- Loads that ended in a failure. -/
  | loadFailures
  /-- Reloads an executor accepted. -/
  | reloadsStarted
  /-- Reloads dropped because one was in flight. -/
  | reloadsDeduplicated
  /-- Reloads an executor refused. -/
  | reloadsRejected
  /-- Entries a store accepted. -/
  | writes
  /-- Writes skipped because the store held a newer entry. -/
  | writesSuperseded
  /-- Store calls that failed and were absorbed. -/
  | storeErrors
  /-- Scans that were completed. -/
  | schedulerTicks
  deriving DecidableEq, Repr

/-- All counters, in the order of reports. -/
def Counter.all : List Counter := [
  .freshHits, .staleHits, .misses, .syncLoads, .backgroundLoads, .loadFailures,
  .reloadsStarted, .reloadsDeduplicated, .reloadsRejected, .writes, .writesSuperseded,
  .storeErrors, .schedulerTicks]

/-- The name of a counter in reports. -/
def Counter.name : Counter → String
  | freshHits => "fresh_hits"
  | staleHits => "stale_hits"
  | misses => "misses"
  | syncLoads => "sync_loads"
  | backgroundLoads => "background_loads"
  | loadFailures => "load_failures"
  | reloadsStarted => "reloads_started"
  | reloadsDeduplicated => "reloads_deduplicated"
  | reloadsRejected => "reloads_rejected"
  | writes => "writes"
  | writesSuperseded => "writes_superseded"
  | storeErrors => "store_errors"
  | schedulerTicks => "scheduler_ticks"

/-- How often each thing has happened. -/
abbrev Counters := Counter → Nat

namespace Counters

/-- Nothing has happened. -/
def zero : Counters := fun _ => 0

/-- One more of a kind. -/
def bump (c : Counters) (k : Counter) : Counters :=
  let n := c k + 1
  fun k' => if k' = k then n else c k'

/-- What is counted goes up by one. -/
@[simp] theorem bump_self (c : Counters) (k : Counter) : c.bump k k = c k + 1 := by
  simp [bump]

/-- Nothing else is counted. -/
theorem bump_other (c : Counters) {k k' : Counter} (h : k' ≠ k) : c.bump k k' = c k' := by
  simp [bump, h]

/-- Lookups of all kinds. -/
def lookups (c : Counters) : Nat := c .freshHits + c .staleHits + c .misses

end Counters

/-- The counters at one moment, and the whole seconds since the cache was made. -/
structure Snapshot where
  counters : Counters
  uptime : Nat

namespace Snapshot

/-- The share of lookups that found a value; zero before the first. -/
def hitRatio (s : Snapshot) : Float :=
  let c := s.counters
  if c.lookups = 0 then 0.0
  else (c .freshHits + c .staleHits).toFloat / c.lookups.toFloat

def inspect (s : Snapshot) : String :=
  let (hits, others) := (Counter.all.map fun k => (k.name, toString (s.counters k))).splitAt 3
  let ratio := Text.quoted (Text.twoPlaces (s.hitRatio * 100.0) ++ "%")
  Text.record "MetricsSnapshot"
    (hits ++ [("hit_ratio", ratio)] ++ others ++ [("uptime_secs", toString s.uptime)])

end Snapshot

end Evergreen
