import Evergreen.Document
import Evergreen.Failure

/-!
# Failure policies

What happens when a loader fails is data: a *cell* (`OnFailure`) says what is logged, what
the caller gets and what is written back. A policy has four cells, for loads on a caller's
thread or in the background, with or without a stale value at hand; exactly one of them is
selected by a failing load.

Policies are read from documents and written to them; a cell that is not given is the
default's.
-/

namespace Evergreen

/-- How much of a loader's failure is logged. -/
inductive LogAction where
  | none
  /-- The outermost message. -/
  | message
  /-- The messages of the whole chain. -/
  | fullStack
  deriving DecidableEq, Repr

/-- What the caller gets for a failed load. -/
inductive Fallback where
  | propagate
  | returnNone
  | returnStale
  deriving DecidableEq, Repr

/-- Whether a failed load writes the stale value back. -/
inductive WriteBack where
  | dontCache
  /-- Written back so that it is stale at once. -/
  | cacheExpired
  /-- Written back as if it had just been loaded. -/
  | cacheFresh
  deriving DecidableEq, Repr

namespace LogAction

def all : List LogAction := [none, message, fullStack]

/-- The word for the action in a document. -/
def word : LogAction → String
  | none => "none"
  | message => "message"
  | fullStack => "full_stack"

def inspect : LogAction → String
  | none => "None"
  | message => "Message"
  | fullStack => "FullStack"

def ofDocument? (d : Document) : Option LogAction := do
  let w ← d.choice?
  all.find? (·.word == w)

/-- What is logged of a failure, if anything. -/
def text? (a : LogAction) (f : Failure) : Option String :=
  match a with
  | none => Option.none
  | message => some f.message
  | fullStack => some f.trace

/-- The word of a choice is read as that choice. -/
theorem ofDocument?_word (a : LogAction) : ofDocument? (.text a.word) = some a := by
  cases a <;> decide

end LogAction

namespace Fallback

def all : List Fallback := [propagate, returnNone, returnStale]

/-- The word for the fallback in a document. -/
def word : Fallback → String
  | propagate => "propagate"
  | returnNone => "return_none"
  | returnStale => "return_stale"

def inspect : Fallback → String
  | propagate => "Propagate"
  | returnNone => "ReturnNone"
  | returnStale => "ReturnStale"

def ofDocument? (d : Document) : Option Fallback := do
  let w ← d.choice?
  all.find? (·.word == w)

/-- The word of a choice is read as that choice. -/
theorem ofDocument?_word (f : Fallback) : ofDocument? (.text f.word) = some f := by
  cases f <;> decide

end Fallback

namespace WriteBack

def all : List WriteBack := [dontCache, cacheExpired, cacheFresh]

/-- The word for the choice in a document. -/
def word : WriteBack → String
  | dontCache => "dont_cache"
  | cacheExpired => "cache_expired"
  | cacheFresh => "cache_fresh"

def inspect : WriteBack → String
  | dontCache => "DontCache"
  | cacheExpired => "CacheExpired"
  | cacheFresh => "CacheFresh"

def ofDocument? (d : Document) : Option WriteBack := do
  let w ← d.choice?
  all.find? (·.word == w)

/-- The word of a choice is read as that choice. -/
theorem ofDocument?_word (w : WriteBack) : ofDocument? (.text w.word) = some w := by
  cases w <;> decide

end WriteBack

/-- One cell of a policy: the reaction to one kind of failure. -/
structure OnFailure where
  log : LogAction
  fallback : Fallback
  cache : WriteBack
  deriving DecidableEq, Repr

namespace OnFailure

/-- Reads a cell; all three parts are required. -/
def ofDocument? (d : Document) : Option OnFailure := do
  match ← d.parts? ["log", "fallback", "cache"] with
  | [some l, some f, some c] =>
    return ⟨← LogAction.ofDocument? l, ← Fallback.ofDocument? f, ← WriteBack.ofDocument? c⟩
  | _ => none

def toDocument (o : OnFailure) : Document :=
  .fields [("log", .text o.log.word), ("fallback", .text o.fallback.word),
    ("cache", .text o.cache.word)]

def inspect (o : OnFailure) : String :=
  Text.record "OnFailure" [("log", o.log.inspect), ("fallback", o.fallback.inspect),
    ("cache", o.cache.inspect)]

/-- A cell that was written to a document is read back. -/
theorem ofDocument?_toDocument (o : OnFailure) : ofDocument? o.toDocument = some o := by
  obtain ⟨l, f, c⟩ := o
  cases l <;> cases f <;> cases c <;> decide

end OnFailure

/-- Whether a load runs on a caller's thread or in the background. -/
inductive Invocation where
  | sync
  | background
  deriving DecidableEq, Repr

/-- Whether there is no caller waiting for the load. -/
def Invocation.isBackground (i : Invocation) : Bool := i == .background

/-- What happens when a loader fails, by who loads and whether a stale value is at hand. -/
structure Policy where
  syncMissing : OnFailure := ⟨.none, .propagate, .dontCache⟩
  syncExpired : OnFailure := ⟨.message, .returnStale, .dontCache⟩
  backgroundMissing : OnFailure := ⟨.fullStack, .returnNone, .dontCache⟩
  backgroundExpired : OnFailure := ⟨.fullStack, .returnStale, .dontCache⟩
  deriving DecidableEq, Repr

namespace Policy

/-- The cell that decides about a failed load. -/
def select (p : Policy) : Invocation → (hasStale : Bool) → OnFailure
  | .sync, false => p.syncMissing
  | .sync, true => p.syncExpired
  | .background, false => p.backgroundMissing
  | .background, true => p.backgroundExpired

/-- A stale value cannot be returned where there is none. -/
def check (p : Policy) : Except ConfigFault Unit :=
  if p.syncMissing.fallback = .returnStale ∨ p.backgroundMissing.fallback = .returnStale then
    .error .staleWithoutStale
  else .ok ()

/-- A policy is accepted iff it promises a stale value only where there is one. -/
theorem check_eq_ok_iff {p : Policy} :
    p.check = .ok () ↔ ∀ i, (p.select i false).fallback ≠ .returnStale := by
  unfold check
  constructor
  · intro h i
    split at h
    · cases h
    · cases i <;> simp_all [select]
  · intro h
    rw [if_neg]
    rintro (h' | h')
    · exact h .sync h'
    · exact h .background h'

/-- The names of the cells. -/
def cells : List String :=
  ["sync_missing", "sync_expired", "background_missing", "background_expired"]

/-- The policy with the given cells in place of its own. -/
def override (p : Policy) (ps : List (Option Document)) : Option Policy := do
  match ps with
  | [sm, se, bm, be] =>
    return {
      syncMissing := ← Document.orElse p.syncMissing OnFailure.ofDocument? sm
      syncExpired := ← Document.orElse p.syncExpired OnFailure.ofDocument? se
      backgroundMissing := ← Document.orElse p.backgroundMissing OnFailure.ofDocument? bm
      backgroundExpired := ← Document.orElse p.backgroundExpired OnFailure.ofDocument? be }
  | _ => none

/-- Reads a policy; a cell that is not given is the default's. -/
def ofDocument? (d : Document) : Option Policy := do
  override {} (← d.parts? cells)

def toDocument (p : Policy) : Document :=
  .fields [("sync_missing", p.syncMissing.toDocument),
    ("sync_expired", p.syncExpired.toDocument),
    ("background_missing", p.backgroundMissing.toDocument),
    ("background_expired", p.backgroundExpired.toDocument)]

def inspect (p : Policy) : String :=
  Text.record "FailurePolicy" [("sync_missing", p.syncMissing.inspect),
    ("sync_expired", p.syncExpired.inspect),
    ("background_missing", p.backgroundMissing.inspect),
    ("background_expired", p.backgroundExpired.inspect)]

/-- Reading a written policy gives it back. -/
theorem ofDocument?_toDocument (p : Policy) : ofDocument? p.toDocument = some p := by
  have e : p.toDocument.parts? cells = some [some p.syncMissing.toDocument,
      some p.syncExpired.toDocument, some p.backgroundMissing.toDocument,
      some p.backgroundExpired.toDocument] := by rfl
  simp [ofDocument?, e, override, Document.orElse, OnFailure.ofDocument?_toDocument]

end Policy

end Evergreen
