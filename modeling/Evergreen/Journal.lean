import Evergreen.Request
import Evergreen.Store.Forecast

/-!
# The journal

Everything a cache does that can be seen from outside is an event: calls of its store and of
loaders, scans, and the records it logs. An event is the cause; the level, wording and fields
of a record are made from it (`Event.record?`).
-/

namespace Evergreen

/-- What came of offering a reload. -/
inductive Offered where
  | started
  /-- A reload of the key is in flight; nothing was queued. -/
  | alreadyInFlight
  | refused (why : Refusal)
  deriving DecidableEq, Repr

def Offered.inspect : Offered → String
  | started => "Started"
  | alreadyInFlight => "AlreadyInFlight"
  | refused why => Text.wrapped "Rejected" why.inspect

/-- What a store answered. -/
inductive StoreAnswer where
  | failed
  /-- Whether a read found an entry. -/
  | found (b : Bool)
  /-- Whether an entry was accepted, and the hint that came with it. -/
  | accepted (b : Bool) (hint : Option Nat)
  /-- Whether there was an entry to remove. -/
  | removed (b : Bool)
  | cleared
  deriving DecidableEq, Repr

/-- One thing that happened. -/
inductive Event where
  /-- A store was called; a clear has no key. -/
  | storeCalled (op : StoreOp) (key : Option Key) (answer : StoreAnswer)
  /-- A loader was called for the `call`-th time, with a stale value and its age at hand or
  not. -/
  | loaderCalled (key : Key) (call : Nat) (invocation : Invocation) (mode : Mode)
      (stale : Option (Value × Nat))
  | scanBegan (now : Nat)
  | evicting (key : Key)
  | storeFailed (op : StoreOp) (key : Option Key) (fault : StoreFault)
  | superseded (key : Key)
  | loaderFailed (key : Key) (mode : Mode) (invocation : Invocation) (text : String)
  | failureDropped (fault : CallFault) (key : Key)
  | reloadInFlight (key : Key)
  | reloadRefused (key : Key) (why : Refusal)
  | reloadPanicked
  | registrationKept (key : Key)
  | registrationDeclined (key : Key)
  | pollerStarted (interval : Nat)
  | refreshOffered (key : Key) (offered : Offered)
  | pollerStopped
  | pollerPanicked
  deriving DecidableEq, Repr

/-- How much a record matters. -/
inductive Level where
  | trace
  | debug
  | warn
  | error
  deriving DecidableEq, Repr

def Level.name : Level → String
  | trace => "TRACE"
  | debug => "DEBUG"
  | warn => "WARN"
  | error => "ERROR"

/-- The value of a record's field. -/
inductive FieldValue where
  | text (s : String)
  | flag (b : Bool)
  deriving DecidableEq, Repr

/-- A log record. -/
structure LogRecord where
  level : Level
  message : String
  fields : List (String × FieldValue) := []
  deriving DecidableEq, Repr

namespace Event

/-- What stands for the key in the record of a call that is about all of them. -/
def everyKey : Key := "*"

/-- The key an event is about, if it is about one. -/
def key? : Event → Option Key
  | storeCalled _ key _ => key
  | loaderCalled key .. => some key
  | evicting key => some key
  | storeFailed _ key _ => some (key.getD everyKey)
  | superseded key => some key
  | loaderFailed key .. => some key
  | failureDropped _ key => some key
  | reloadInFlight key => some key
  | reloadRefused key _ => some key
  | registrationKept key => some key
  | registrationDeclined key => some key
  | refreshOffered key _ => some key
  | scanBegan _ | reloadPanicked | pollerStarted _ | pollerStopped | pollerPanicked => none

/-- The record that is logged of an event, if one is. -/
def record? (e : Event) : Option LogRecord :=
  let about (key : Key) : String × FieldValue := ("key", .text key)
  match e with
  | storeCalled .. | loaderCalled .. | scanBegan _ => none
  | evicting key => some ⟨.debug, "evicting hard-expired entry", [about key]⟩
  | storeFailed op key fault =>
    some ⟨.warn, "store operation failed, continuing without it",
      [about (key.getD everyKey), ("op", .text op.word),
        ("error", .text fault.toFailure.trace)]⟩
  | superseded key =>
    some ⟨.debug, "store holds a newer entry, skipping write", [about key]⟩
  | loaderFailed key mode invocation text =>
    some ⟨.warn, "loader failed",
      [about key, ("mode", .text mode.word), ("background", .flag invocation.isBackground),
        ("error", .text text)]⟩
  | failureDropped fault key =>
    some ⟨.debug, "dropping background load failure",
      [about key, ("error", .text fault.message)]⟩
  | reloadInFlight key =>
    some ⟨.debug, "reload already in flight, dropping request", [about key]⟩
  | reloadRefused key why =>
    some ⟨.warn, "background reload not started",
      [about key, ("reason", .text why.message)]⟩
  | reloadPanicked => some ⟨.error, "background reload panicked", []⟩
  | registrationKept key =>
    some ⟨.debug, "request already registered, keeping it", [about key]⟩
  | registrationDeclined key =>
    some ⟨.debug, "scheduler is closed, declining registration", [about key]⟩
  | pollerStarted interval =>
    some ⟨.debug, "scheduler started", [("poll_interval", .text (Text.elapsed interval))]⟩
  | refreshOffered key offered =>
    some ⟨.trace, "scheduled refresh", [about key, ("outcome", .text offered.inspect)]⟩
  | pollerStopped => some ⟨.debug, "scheduler stopped", []⟩
  | pollerPanicked => some ⟨.warn, "scheduler thread exited with a panic", []⟩

end Event

end Evergreen
