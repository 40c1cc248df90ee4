import Evergreen.Entry

/-!
# What a get does

A lookup finds a fresh entry, a stale one or nothing to use, and the request's mode says who
brings the value up to date:

| mode        | miss                            | stale                            |
|-------------|---------------------------------|----------------------------------|
| `block`     | load for the caller             | load for the caller              |
| `returning` | load for the caller             | serve, reload in the background  |
| `async`     | serve nothing, reload           | serve, reload in the background  |
| `scheduled` | serve nothing, leave to poller  | serve, leave to the poller       |

A fresh entry is served in every mode.
-/

namespace Evergreen

/-- What a lookup found, as far as serving is concerned. -/
inductive Freshness where
  /-- Nothing, or an entry past its hard lifetime. -/
  | miss
  | fresh
  /-- An entry past its soft lifetime only. -/
  | stale
  deriving DecidableEq, Repr

/-- The freshness of what was found, at clock reading `now`. -/
def Freshness.of (found : Option Entry) (now : Nat) : Freshness :=
  match found with
  | none => .miss
  | some e =>
    if e.hardExpired now then .miss
    else if e.softExpired now then .stale
    else .fresh

/-- How a request is kept fresh. -/
inductive Mode where
  | block
  | returning
  | async
  | scheduled
  deriving DecidableEq, Repr

/-- What a single get does next. -/
inductive Action where
  /-- Hand out what was found. -/
  | serve
  /-- Load while the caller waits. -/
  | loadForCaller
  /-- Hand out what was found and offer a background reload. -/
  | serveAndReload
  /-- Hand out what was found and leave the request to the poller. -/
  | serveAndRegister
  deriving DecidableEq, Repr

namespace Mode

def all : List Mode := [block, returning, async, scheduled]

/-- The word for the mode, in messages and in documents. -/
def word : Mode → String
  | block => "block"
  | returning => "return"
  | async => "async"
  | scheduled => "scheduled"

def inspect : Mode → String
  | block => "Block"
  | returning => "Return"
  | async => "Async"
  | scheduled => "Scheduled"

/-- The mode of a word. -/
def ofWord? (w : String) : Option Mode := all.find? (·.word == w)

/-- The word of a mode is read as that mode. -/
theorem ofWord?_word (m : Mode) : ofWord? m.word = some m := by
  cases m <;> decide

/-- The mode table. -/
def action : Mode → Freshness → Action
  | _, .fresh => .serve
  | block, _ => .loadForCaller
  | returning, .miss => .loadForCaller
  | returning, .stale => .serveAndReload
  | async, _ => .serveAndReload
  | scheduled, _ => .serveAndRegister

end Mode

end Evergreen
