import Evergreen.Document
import Evergreen.Text.Span

/-!
# Settings

The sizes and intervals of a cache, as they are read from a document and written to one.
Whatever a document leaves out has its default, and parts nobody asks for are ignored. The
number of workers defaults to the machine's, which is not written down here (`none`).
-/

namespace Evergreen

/-- The shortest interval between two scans. -/
def minPollInterval : Nat := Clock.second

/-- How many reloads a worker pool queues unless told otherwise. -/
def defaultQueueCapacity : Nat := 1024

/-- Sizes and intervals of a cache. -/
structure Settings where
  /-- The time between two scans, in nanoseconds. -/
  pollInterval : Nat := minPollInterval
  /-- The threads of the worker pool; `none` stands for one for each processor. -/
  workers : Option Nat := none
  /-- The reloads that may wait for a worker. -/
  queueCapacity : Nat := defaultQueueCapacity
  deriving DecidableEq, Repr

namespace Settings

/-- The names of the parts. -/
def names : List String := ["poll_interval", "workers", "queue_capacity"]

/-- A duration in the format of settings. -/
def span? (d : Document) : Option Nat := d.text?.bind Text.Span.read?

/-- Reads settings. -/
def ofDocument? (d : Document) : Option Settings := do
  match ← d.parts? names with
  | [poll, workers, queue] =>
    return {
      pollInterval := ← Document.orElse minPollInterval span? poll
      workers := ← Document.orElse none (fun d => d.count?.map some) workers
      queueCapacity := ← Document.orElse defaultQueueCapacity Document.count? queue }
  | _ => none

/-- Writes settings; a number of workers that is the machine's is left out. -/
def toDocument (s : Settings) : Document :=
  .fields ([("poll_interval", .text (Text.Span.write s.pollInterval))] ++
    s.workers.toList.map (fun n => ("workers", .natural n)) ++
    [("queue_capacity", .natural s.queueCapacity)])

end Settings

end Evergreen
