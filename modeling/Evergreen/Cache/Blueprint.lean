import Evergreen.Cache.Basic
import Evergreen.WorkerPool.Basic

/-!
# Building a cache

A blueprint holds what a cache is to be made of. It is checked when the cache is built: first
the poll interval, then the sizes of the worker pool, which matter only where no executor is
given.
-/

namespace Evergreen

/-- A worker pool as an executor, if its sizes pass. -/
def Executor.ofPool (workers room : Nat) : Except ConfigFault Executor := do
  checkPool workers room
  return .pool workers room

/-- What a cache is to be made of. -/
structure Blueprint where
  /-- Defaults to a memory store. -/
  store : Option Store := none
  /-- Defaults to a worker pool. -/
  executor : Option Executor := none
  /-- Workers of the pool; one for each processor unless given. -/
  workers : Option Nat := none
  queueCapacity : Nat := defaultQueueCapacity
  pollInterval : Nat := minPollInterval
  /-- How many processors there are. -/
  processors : Nat := 1

namespace Blueprint

/-- The sizes and intervals of settings. -/
def ofSettings (s : Settings) : Blueprint :=
  { workers := s.workers, queueCapacity := s.queueCapacity, pollInterval := s.pollInterval }

/-- A memory store with at least the requested number of shards. -/
def memoryStore (shards : Nat) : Store :=
  .memory (ShardedStore.create (fun k => k.hash.toNat) shards)

/-- The executor: the one given, or a pool whose sizes pass. -/
def executorFor (b : Blueprint) : Except ConfigFault Executor :=
  match b.executor with
  | some e => .ok e
  | none => Executor.ofPool (b.workers.getD (max b.processors 1)) b.queueCapacity

/-- A cache made at `now`, with nothing in it and nothing running. -/
def build (b : Blueprint) (now : Nat) : Except ConfigFault Cache := do
  if b.pollInterval < minPollInterval then throw (.pollTooShort b.pollInterval)
  let executor ← b.executorFor
  let store := b.store.getD (memoryStore (4 * max b.processors 1))
  return {
    now, createdAt := now, backing := { store }, executor, crew := executor.crew
    poller := { interval := b.pollInterval } }

/-- A blueprint as a diagnostic text, if it does not depend on the machine. -/
def inspect? (b : Blueprint) : Option String := do
  let workers ← b.workers
  return Text.record "RefreshCacheBuilder" [
    ("has_store", Text.ofBool b.store.isSome),
    ("has_executor", Text.ofBool b.executor.isSome),
    ("workers", toString workers),
    ("queue_capacity", toString b.queueCapacity),
    ("poll_interval", Text.elapsed b.pollInterval)]

end Blueprint

end Evergreen
