import Evergreen.Text.Elapsed
import Evergreen.Text.Layout
import Evergreen.Text.Quoted

/-!
# What can go wrong

* `Failure`: what a loader reports, a message and the messages of its causes.
* `StoreFault`: why a store could not do what it was asked.
* `Refusal`: why an executor declined a task.
* `ConfigFault`: a setting that is refused when an entry, a request or a cache is built.
* `CallFault`: what a caller of the cache can be handed instead of a result.

Each has one function that gives its wording.
-/

namespace Evergreen

/-- An error with the chain of errors that caused it, nearest first. -/
structure Failure where
  message : String
  causes : List String := []
  deriving DecidableEq, Repr, Inhabited

namespace Failure

/-- The message and those of all causes, outermost first. -/
def messages (f : Failure) : List String := f.message :: f.causes

/-- The message, and every cause on an indented line of its own. -/
def trace (f : Failure) : String :=
  f.message ++ String.join (f.causes.map ("\n  caused by: " ++ ·))

end Failure

/-- Why a store could not do what it was asked. -/
inductive StoreFault where
  | unavailable (reason : String)
  | backend (cause : Failure)
  deriving DecidableEq, Repr

namespace StoreFault

/-- A store fault as an error with its causes. -/
def toFailure : StoreFault → Failure
  | unavailable reason => ⟨"store unavailable: " ++ reason, []⟩
  | backend cause => ⟨"store backend error", cause.messages⟩

end StoreFault

/-- Why an executor declined a task. -/
inductive Refusal where
  /-- No room for another task; it may be offered again later. -/
  | saturated
  /-- No task is taken any more. -/
  | shutdown
  deriving DecidableEq, Repr

namespace Refusal

def message : Refusal → String
  | saturated => "executor is saturated"
  | shutdown => "executor is shut down"

def inspect : Refusal → String
  | saturated => "Saturated"
  | shutdown => "Shutdown"

end Refusal

/-- A setting that is refused. Nothing is ever corrected silently. -/
inductive ConfigFault where
  | blankKey
  | zeroHardTtl
  | softExceedsHard (soft hard : Nat)
  | pollTooShort (interval : Nat)
  | zeroWorkers
  | zeroQueueCapacity
  /-- A policy asks for a stale value where there is none. -/
  | staleWithoutStale
  deriving DecidableEq, Repr

namespace ConfigFault

/-- The name of the kind of fault. -/
def kind : ConfigFault → String
  | blankKey => "BlankKey"
  | zeroHardTtl => "ZeroHardTtl"
  | softExceedsHard .. => "SoftTtlExceedsHardTtl"
  | pollTooShort _ => "PollIntervalTooShort"
  | zeroWorkers => "ZeroWorkers"
  | zeroQueueCapacity => "ZeroQueueCapacity"
  | staleWithoutStale => "StaleFallbackWithoutStaleValue"

def message : ConfigFault → String
  | blankKey => "cache key must not be blank"
  | zeroHardTtl => "hard ttl must be at least 1ms"
  | softExceedsHard soft hard =>
    "soft ttl (" ++ Text.elapsed soft ++ ") must not exceed hard ttl (" ++
      Text.elapsed hard ++ ")"
  | pollTooShort interval =>
    "poll interval must be at least 1s, got " ++ Text.elapsed interval
  | zeroWorkers => "worker pool needs at least one worker"
  | zeroQueueCapacity => "worker pool queue capacity cannot be zero"
  | staleWithoutStale => "return-stale fallback is only valid for the expired case"

def inspect (f : ConfigFault) : String :=
  match f with
  | softExceedsHard soft hard =>
    Text.record f.kind [("soft", Text.elapsed soft), ("hard", Text.elapsed hard)]
  | pollTooShort interval => Text.wrapped f.kind (Text.elapsed interval)
  | f => f.kind

end ConfigFault

/-- What a caller of the cache can be handed instead of a result. -/
inductive CallFault where
  | config (fault : ConfigFault)
  /-- The load for a key failed and the policy hands the failure on. -/
  | load (key : String) (failure : Failure)
  /-- No more registrations are taken. -/
  | closed
  deriving DecidableEq, Repr

namespace CallFault

def kind : CallFault → String
  | config fault => fault.kind
  | load .. => "Load"
  | closed => "Closed"

def message : CallFault → String
  | config fault => fault.message
  | load key _ => "loading '" ++ key ++ "' failed"
  | closed => "cache is closed"

/-- The fault as a diagnostic text; one that holds a loader's failure has none. -/
def inspect? : CallFault → Option String
  | config fault => some (Text.wrapped "Config" fault.inspect)
  | closed => some "Closed"
  | load .. => none

end CallFault

end Evergreen
