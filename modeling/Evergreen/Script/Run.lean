import Evergreen.Script.Perform

/-!
# Running a script

A script is run step by step, each with its answer and what was noted meanwhile. At the end
all gates open, the loads that can end do, and the cache is let go.
-/

namespace Evergreen

/-- What is done to what, and when it begins. -/
structure Script where
  start : Nat
  blueprint : Blueprint
  /-- Whether calls of the store are noted. -/
  tracesStore : Bool := false
  steps : List Script.Step

namespace Script

/-- What came of a step. -/
structure StepReport where
  answer : Answer
  notes : List Note

/-- What came of a script. -/
structure Report where
  steps : List StepReport
  ending : List Note
  metrics : Snapshot

namespace Stage

/-- Performs the steps of a script. -/
def player (s : Stage) : Player := .ofLevel (s.size + 1)

/-- One step, and what the executor's threads make of it. -/
def step (s : Stage) (step : Step) : StepReport × Stage :=
  let (answer, s) := s.player.perform s step
  let (notes, s) := s.report
  (⟨answer, notes⟩, s)

/-- The steps in turn; the reports so far come last first. -/
def stepAll : List StepReport → Stage → List Step → List StepReport × Stage
  | done, s, [] => (done.reverse, s)
  | done, s, step :: steps =>
    let (report, s) := s.step step
    stepAll (report :: done) s steps

/-- Opens all gates, lets loads end, and lets the cache go. -/
def wrapUp (s : Stage) : Snapshot × List Note :=
  let s := s.player.settle { s with gates := s.gates.allOpened }
  let snapshot := s.cache.snapshot
  let (notes, _) := (s.withCache s.cache.dispose).report
  (snapshot, notes)

end Stage

/-- Whether a note goes into the report. -/
def shows (s : Script) : Note → Bool
  | .event (.storeCalled ..) => s.tracesStore
  | _ => true

/-- Runs a script, unless its cache cannot be built. -/
def run (s : Script) : Except ConfigFault Report := do
  let cache ← s.blueprint.build s.start
  let stage : Stage := { cache, size := Step.sizes s.steps + 1 }
  let (steps, stage) := stage.stepAll [] s.steps
  let (metrics, ending) := stage.wrapUp
  return {
    steps := steps.map fun r => { r with notes := r.notes.filter s.shows }
    ending := ending.filter s.shows
    metrics }

end Script

end Evergreen
