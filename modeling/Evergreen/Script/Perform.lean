import Evergreen.Script.Threads

/-!
# Performing steps

A step may call a loader, and the loader's part may perform steps. So performing is defined
level by level: `performWith inner` performs a step and leaves the steps of parts to `inner`,
`inner.next` is the player that does so, and `Player.ofLevel n` has `n` levels. A part is
played once and each of its steps performed once, so as many levels as there are steps written
down are always enough.

The clock moves in `advance` alone. On its way it stops at every deadline of the poller that
it reaches, for a scan. After a scan, and after every step, no matter whose, the executor's own
threads go as far as they can.
-/

namespace Evergreen.Script

namespace Stage

def ofValue (v : Option Value) : Answer := v.elim .nothing .text

def ofCall : Except CallFault Bool → Answer
  | .ok b => .flag b
  | .error fault => .failed fault

def ofReading (e : Option Entry) (now : Nat) : Answer :=
  e.elim .nothing fun e => .entry (e.read now)

/-! ## The poller -/

/-- Visits one request of a scan; a reload on the poller's own thread is played through. -/
def visit (inner : Player) (s : Stage) (r : Request) : Stage :=
  match s.cache.visit r with
  | (none, c) => s.withCache c
  | (some load, c) => ((s.withCache c).playThrough inner load).2

/-- A whole scan, by key. -/
def scan (inner : Player) (s : Stage) : Stage :=
  match s.cache.beginScan? with
  | none => s
  | some c =>
    let due := c.scanLeft.mergeSort fun a b => keyLE (some a.key) (some b.key)
    let s := (s.withCache c).inKeyOrder fun s => due.foldl (fun s r => s.visit inner r) s
    s.withCache s.cache.endScan

/-- Scans at every deadline up to `target`, at most `n` times. -/
def scansUntil (inner : Player) (target : Nat) : Nat → Stage → Stage
  | 0, s => s
  | n + 1, s =>
    match s.cache.poller.phase with
    | .waiting deadline =>
      if deadline ≤ target then
        let s := s.withCache (s.cache.tick deadline)
        let s := s.onThread false fun s => s.scan inner
        scansUntil inner target n (s.settleWith inner)
      else s
    | _ => s

/-- Moves the clock. During a scan, which then runs on this very thread, that is all. Each scan
sets a deadline at least an interval later, which bounds their number. -/
def advance (inner : Player) (s : Stage) (duration : Nat) : Stage :=
  let target := s.cache.now + duration
  let s := match s.cache.poller.phase with
    | .scanning _ => s
    | _ => s.scansUntil inner target (duration / s.cache.poller.interval + 2)
  s.withCache (s.cache.tick target)

/-! ## Tasks that are run by hand -/

/-- Runs the task at a place of the queue, up to `n` times; the keys run so far come last
first. -/
def runTasks (inner : Player) (place : Nat) :
    Nat → List (Key × Option String) → Stage → List (Key × Option String) × Stage
  | 0, done, s => (done.reverse, s)
  | n + 1, done, s =>
    match s.cache.start? place with
    | none => (done.reverse, s)
    | some (load, c) =>
      let (ending, s) := (s.withCache c).playThrough inner load
      let panic := match ending with
        | .panicked text => some text
        | _ => none
      runTasks inner place n ((load.key, panic) :: done) s

/-! ## Steps -/

/-- Does something with a request the script can name. -/
def withRequest (s : Stage) (id : String) (act : Request → Answer × Stage) : Answer × Stage :=
  match s.requests.find? id with
  | none => (.unfit, s)
  | some r => act r

/-- Does something with an entry the script can name. -/
def withEntry (s : Stage) (id : String) (act : Entry → Answer × Stage) : Answer × Stage :=
  match s.entries.find? id with
  | none => (.unfit, s)
  | some e => act e

/-- Makes a request. One that is refused leaves everything as it was. -/
def makeRequest (s : Stage) (id : String) (form : DraftForm) (parts : List Part) :
    Answer × Stage :=
  match form.draft? with
  | none => (.unreadable, s)
  | some d =>
    match d.build s.families with
    | .error fault => (.failed (.config fault), s)
    | .ok r =>
      (.flag true, { s with
        requests := s.requests.insert id r
        parts := fun f => if f = s.families then parts else s.parts f
        families := s.families + 1 })

/-- Asks for a value and waits for it. -/
def get (inner : Player) (s : Stage) (r : Request) : Answer × Stage :=
  match s.cache.get r with
  | (.answered v, c) => (ofValue v, s.withCache c)
  | (.loading load, c) =>
    let (ending, s) := (s.withCache c).playThrough inner load
    (answerOf ending, s)
  | (.lent load v, c) =>
    match (s.withCache c).playThrough inner load with
    | (.panicked text, s) => (.panicked text, s)
    | (_, s) => (ofValue v, s)

/-- The diagnostic text of something. -/
def inspect (s : Stage) : Subject → Answer × Stage
  | .cache => (.text s.cache.inspect, s)
  | .metrics => (.text s.cache.snapshot.inspect, s)
  | .request id =>
    s.withRequest id fun r => (.text (r.inspect (s.cache.marks r.family)), s)
  | .entry key =>
    let (e, c) := s.cache.peek key
    (e.elim .nothing fun e => .text e.inspect, s.withCache c)

/-- Runs tasks that wait for someone to run them. -/
def run (inner : Player) (s : Stage) (count place : Option Nat) : Answer × Stage :=
  match s.cache.executor with
  | .byHand _ =>
    let all := if place.isSome then 1 else s.cache.crew.waiting.length
    let (done, s) := s.runTasks inner (place.getD 0) (count.getD all) []
    (.ran done, s)
  | _ => (.unfit, s)

/-- Performs a step, and leaves the steps of parts to `inner`. -/
def performWith (inner : Player) (s : Stage) : Step → Answer × Stage
  | .request id form parts => s.makeRequest id form parts
  | .cloneRequest id copy => s.withRequest id fun r =>
    (.nothing, { s with requests := s.requests.insert copy r })
  | .get id => s.withRequest id fun r => s.get inner r
  | .peek key =>
    let (e, c) := s.cache.peek key
    (ofReading e c.now, s.withCache c)
  | .set key value ttl =>
    let (result, c) := s.cache.set key value ttl
    (ofCall result, s.withCache c)
  | .entry id value hard soft =>
    match Entry.create s.cache.now value hard soft with
    | .error fault => (.failed (.config fault), s)
    | .ok e => (ofReading (some e) s.cache.now, { s with entries := s.entries.insert id e })
  | .probe id => s.withEntry id fun e => (ofReading (some e) s.cache.now, s)
  | .setEntry key id => s.withEntry id fun e =>
    let (result, c) := s.cache.setEntry key e
    (ofCall result, s.withCache c)
  | .remove key =>
    let (removed, c) := s.cache.remove key
    (.flag removed, s.withCache c)
  | .removeAll => (.nothing, s.withCache s.cache.removeAll)
  | .schedule id => s.withRequest id fun r =>
    let (result, c) := s.cache.schedule r
    (ofCall result, s.withCache c)
  | .unschedule key =>
    let (was, c) := s.cache.unschedule key
    (.flag was, s.withCache c)
  | .isScheduled key => (.flag (s.cache.isScheduled key), s)
  | .isReloading key => (.flag (s.cache.isReloading key), s)
  | .scheduledKeys =>
    (.keys (s.cache.scheduledKeys.mergeSort fun a b => keyLE (some a) (some b)), s)
  | .state => (.text s.cache.poller.state.inspect, s)
  | .close => (.nothing, s.withCache s.cache.close)
  | .metrics => (.snapshot s.cache.snapshot, s)
  | .refreshState id => s.withRequest id fun r =>
    (.refresh (s.cache.marks r.family) (s.cache.isDue r), s)
  | .inspect subject => s.inspect subject
  | .advance duration =>
    let s := s.advance inner duration
    (.reading s.cache.now, s)
  | .run count place => s.run inner count place
  | .dropTask place =>
    match s.cache.discard? (place.getD 0) with
    | none => (.nothing, s)
    | some (task, c) => (.text task.key, s.withCache c)
  | .pending => (.keys (s.cache.crew.waiting.map Reload.key), s)
  | .release gate => (.nothing, { s with gates := s.gates.opened gate })
  | .shutdownPool =>
    let cache := { s.cache with crew := s.cache.crew.shut }
    (.nothing, { s with gates := s.gates.allOpened, cache })
  | .queued => (.number s.cache.crew.waiting.length, s)
  | .storeFail ops fault times =>
    let calls := s.cache.backing.calls
    let faults op :=
      if ops.contains op then some (fault, times.map (calls op + ·)) else s.outages.faults op
    (.nothing, s.setOutages { s.outages with faults })
  | .storeOk => (.nothing, s.setOutages { s.outages with faults := fun _ => none })
  | .storeReject on => (.nothing, s.setOutages { s.outages with declining := on })
  | .storeSize => (.number s.cache.backing.store.size, s)
  | .storePurge =>
    match s.cache.backing.store.purge? s.cache.now with
    | none => (.nothing, s)
    | some (n, store) =>
      let backing := { s.cache.backing with store }
      (.number n, s.withCache { s.cache with backing })

end Stage

open Stage in
/-- Performs a step and lets the executor's threads settle; the steps of parts are left to
`inner`. -/
def Player.next (inner : Player) : Player where
  perform s step :=
    let (answer, s) := performWith inner s step
    (answer, s.settleWith inner)
  settle := settleWith inner

/-- Performs steps with less than `n` others under way. -/
def Player.ofLevel : Nat → Player
  | 0 => ⟨fun s _ => (.unfit, s), id⟩
  | n + 1 => (Player.ofLevel n).next

end Evergreen.Script
