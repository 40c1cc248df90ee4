import Evergreen.Cache.Blueprint
import Evergreen.Cache.Calls

/-!
# Scripts

A script drives a cache step by step on a clock of its own: time passes only where a step says
so, and code takes none. The loaders of its requests play parts that are written down
beforehand, and a part may itself perform steps while its load is under way.
-/

namespace Evergreen.Script

/-- What a diagnostic text is asked of. -/
inductive Subject where
  | cache
  | metrics
  | request (id : String)
  /-- The entry that a peek at a key finds. -/
  | entry (key : Key)

mutual

/-- One step of a script. -/
inductive Step where
  /-- Makes a request, whose loader plays the parts given, one for each call. -/
  | request (id : String) (form : DraftForm) (parts : List Part)
  | cloneRequest (id copy : String)
  | get (id : String)
  | peek (key : Key)
  | set (key : Key) (value : Value) (ttl : Nat)
  /-- Makes an entry and keeps it for later steps. -/
  | entry (id : String) (value : Value) (hard soft : Nat)
  | probe (id : String)
  | setEntry (key : Key) (id : String)
  | remove (key : Key)
  | removeAll
  | schedule (id : String)
  | unschedule (key : Key)
  | isScheduled (key : Key)
  | isReloading (key : Key)
  | scheduledKeys
  | state
  | close
  | metrics
  | refreshState (id : String)
  | inspect (subject : Subject)
  | advance (duration : Nat)
  /-- Runs tasks that wait for someone to run them, as many as given or else all, each time
  the one at the place given or else the first; with only a place, one. -/
  | run (count place : Option Nat)
  | dropTask (place : Option Nat)
  | pending
  | release (gate : String)
  | shutdownPool
  | queued
  /-- From now on the store's operations fail, for a number of calls or for good. -/
  | storeFail (ops : List StoreOp) (fault : StoreFault) (times : Option Nat)
  | storeOk
  | storeReject (on : Bool)
  | storeSize
  | storePurge

/-- A part that a loader plays when it is called: steps it performs, a gate it waits at if it
runs on a thread of its own, and what it makes of the call, if that is laid down. -/
inductive Part where
  | mk (during : List Step) (gate : Option String) (outcome : Option Outcome)

end

mutual

/-- How many steps and parts are written down in a step. -/
def Step.size : Step → Nat
  | .request _ _ parts => 1 + Part.sizes parts
  | _ => 1

/-- How many steps and parts are written down in a part. -/
def Part.size : Part → Nat
  | .mk during _ _ => 1 + Step.sizes during

/-- How many steps and parts are written down in some steps. -/
def Step.sizes : List Step → Nat
  | [] => 0
  | s :: ss => s.size + Step.sizes ss

/-- How many steps and parts are written down in some parts. -/
def Part.sizes : List Part → Nat
  | [] => 0
  | p :: ps => p.size + Part.sizes ps

end

/-- The word for a step. -/
def Step.word : Step → String
  | request .. => "request"
  | cloneRequest .. => "clone_request"
  | get _ => "get"
  | peek _ => "peek"
  | set .. => "set"
  | entry .. => "entry"
  | probe _ => "probe"
  | setEntry .. => "set_entry"
  | remove _ => "remove"
  | removeAll => "remove_all"
  | schedule _ => "schedule"
  | unschedule _ => "unschedule"
  | isScheduled _ => "is_scheduled"
  | isReloading _ => "is_reloading"
  | scheduledKeys => "scheduled_keys"
  | state => "state"
  | close => "close"
  | metrics => "metrics"
  | refreshState _ => "refresh_state"
  | inspect _ => "debug"
  | advance _ => "advance"
  | run .. => "run"
  | dropTask _ => "drop_task"
  | pending => "pending"
  | release _ => "release"
  | shutdownPool => "shutdown_pool"
  | queued => "queued"
  | storeFail .. => "store_fail"
  | storeOk => "store_ok"
  | storeReject _ => "store_reject"
  | storeSize => "store_len"
  | storePurge => "store_purge"

/-- What comes of a step. -/
inductive Answer where
  | nothing
  | flag (b : Bool)
  | number (n : Nat)
  /-- A clock reading. -/
  | reading (t : Nat)
  | text (s : String)
  | entry (r : Entry.Reading)
  | keys (ks : List Key)
  | failed (fault : CallFault)
  /-- A document could not be read. -/
  | unreadable
  | panicked (text : String)
  /-- The keys of the tasks that were run, each with the panic it ended in. -/
  | ran (tasks : List (Key × Option String))
  | snapshot (s : Snapshot)
  | refresh (last : Option Nat) (due : Bool)
  /-- The step names something that does not exist, or does not fit the executor. -/
  | unfit

/-- One thing that can be seen of a script: an event of the cache, or a step that a loader
performed while it was called for a key. -/
inductive Note where
  | event (e : Event)
  | performed (key : Key) (step : String) (answer : Answer)

/-- The key a note is about, if it is about one. -/
def Note.key? : Note → Option Key
  | event e => e.key?
  | performed key .. => some key

/-- Whether a note is the poller's own, no matter who made the poller act. -/
def Note.isPollers : Note → Bool
  | event .pollerStopped => true
  | _ => false

/-- Keys in order, after nothing. -/
def keyLE : Option Key → Option Key → Bool
  | none, _ => true
  | some _, none => false
  | some a, some b => !decide (b < a)

end Evergreen.Script
