import SteeredActors.Settings.Basic
import SteeredActors.Storage
import SteeredActors.Strategy.Choice
import SteeredActors.World.Step

/-!
# Exploration

A test is run over and over under a strategy. Every iteration starts with an empty world and a new
generation of identities. The first bug or divergence ends the exploration; the trace of a bug can be
replayed.
-/

set_option autoImplicit false
set_option relaxedAutoImplicit false

namespace SteeredActors

/-- Why an exploration gives no report. -/
inductive ExplorationError where
  | invalidSettings (fault : SettingsFault)
  | noReplayTrace
  /-- The trace to be replayed could not be read. -/
  | unreadableTrace (path : String)
  /-- The trace of the bug could not be written. -/
  | unwritableTrace (path : String)
  /-- An iteration came to no end. -/
  | endless
deriving DecidableEq, Repr

/-- The text of an exploration that gives no report. -/
def ExplorationError.message : ExplorationError → String
  | .invalidSettings fault => s!"Invalid testing configuration: {fault.message}"
  | .noReplayTrace => "Replay strategy requires scheduling.replay_trace"
  | .unreadableTrace path => s!"Failed to load trace {path}"
  | .unwritableTrace path => s!"Failed to write trace {path}"
  | .endless => "An iteration came to no end"

/-- What is kept of one iteration. -/
structure Iteration where
  outcome : Outcome
  /-- Decisions asked for. -/
  steps : Nat
  trace : Trace
  journal : List JournalLine
deriving Repr

/-- The result of an exploration. -/
structure ExplorationReport where
  strategy : String
  /-- The seed of a strategy that draws. -/
  seed : Option Nat
  iterations : List Iteration
  bug : Option BugReport
  /-- What happened to identities in all iterations. -/
  lifecycle : List LifecycleEvent
deriving Repr

namespace ExplorationReport

/-- No bug was found, and the strategy was followed. -/
def passed (r : ExplorationReport) : Bool :=
  r.bug.isNone && r.iterations.all fun i => !i.outcome.isDiverged

/-- The file and the text of the failing trace, if there is one and it is asked for. -/
def traceFile? (r : ExplorationReport) (settings : Settings) : Option (String × String) := do
  let bug ← r.bug
  let path ← settings.traceOutput
  return (path, bug.trace.encode)

end ExplorationReport

/-- What is explored. -/
structure Experiment where
  settings : Settings
  registry : Registry
  test : Program

namespace Experiment

variable {σ : Type} [Strategy σ]

/-- An iteration from its start until nothing moves, with a bound on the steps of the world. -/
def iterate (e : Experiment) (fuel : Nat) (ids : Allocator) (strategy : σ) : World σ :=
  (World.new (.exploration strategy e.settings.scheduling.maxSteps) e.registry
    e.settings.runtime.dequeuePolicy ids e.test).run fuel

/-- What is kept of a finished iteration. -/
def record (w : World σ) (outcome : Outcome) : Iteration :=
  ⟨outcome, w.controller.steps, w.controller.trace, w.journal.reverse⟩

/-- No further iteration follows one that ended so. -/
def isFinal : Outcome → Bool
  | .bugFound _ | .diverged _ => true
  | .quiescent | .boundReached | .stopped => false

/-- What a number of iterations found. -/
structure Findings where
  iterations : List Iteration
  bug : Option BugReport
  lifecycle : List LifecycleEvent

/-- Findings after one more iteration before them. -/
def Findings.after (f : Findings) (w : World σ) (outcome : Outcome) : Findings :=
  ⟨record w outcome :: f.iterations, f.bug, w.lifecycle.reverse ++ f.lifecycle⟩

/-- Iterate until the iterations are used up, the strategy has no more, or one of them is final. -/
def explore (e : Experiment) (fuel : Nat) (strategy : σ) (ids : Allocator) (iteration : Nat) :
    Nat → Except ExplorationError Findings
  | 0 => .ok ⟨[], none, []⟩
  | remaining + 1 =>
    let (goesOn, strategy) := Strategy.prepare strategy iteration
    if !goesOn then .ok ⟨[], none, []⟩
    else
      let w := e.iterate fuel (if iteration = 0 then ids else ids.nextGeneration) strategy
      match w.controller.outcome, w.controller.strategy with
      | some outcome, some strategy =>
        if isFinal outcome then .ok (Findings.after ⟨[], outcome.bug?, []⟩ w outcome)
        else
          match e.explore fuel strategy w.ids (iteration + 1) remaining with
          | .ok findings => .ok (findings.after w outcome)
          | .error error => .error error
      | _, _ => .error .endless

/-- Explore from the first iteration on. -/
def exploreWith (e : Experiment) (fuel : Nat) (strategy : σ) (seed : Option Nat)
    (iterations : Nat) : Except ExplorationError ExplorationReport := do
  let ids := Allocator.ofGeneration e.settings.runtime.generation
  let findings ← e.explore fuel strategy ids 0 iterations
  return ⟨Strategy.name strategy, seed, findings.iterations, findings.bug, findings.lifecycle⟩

/-- Settings that make a run meaningless are refused. -/
def check (e : Experiment) : Except ExplorationError Unit :=
  match e.settings.fault? with
  | some fault => .error (.invalidSettings fault)
  | none => .ok ()

/-- The strategy that the settings ask for and the number of iterations. A trace is replayed once. -/
def strategy (e : Experiment) (seed : Nat) (load : String → Option Trace) :
    Except ExplorationError (AnyStrategy × Nat) :=
  let s := e.settings.scheduling
  match s.strategy with
  | .random => .ok (.random (.ofSeed (s.seed.getD seed)), s.iterations)
  | .pct => .ok (.pct (.new (s.seed.getD seed) s.pctChangePoints), s.iterations)
  | .replay =>
    match s.replayTrace with
    | none => .error .noReplayTrace
    | some path =>
      match load path with
      | some trace => .ok (.replay (.ofTrace trace), 1)
      | none => .error (.unreadableTrace path)

/-- Explore as the settings say. `seed` is used if they have none, and `load` reads traces. -/
def run (e : Experiment) (fuel seed : Nat) (load : String → Option Trace) :
    Except ExplorationError ExplorationReport := do
  e.check
  let (strategy, iterations) ← e.strategy seed load
  e.exploreWith fuel strategy strategy.seed? iterations

/-- Run the test once with the decisions of a trace. -/
def replay (e : Experiment) (fuel : Nat) (trace : Trace) :
    Except ExplorationError ExplorationReport := do
  e.check
  e.exploreWith fuel (ReplayStrategy.ofTrace trace) none 1

end Experiment

end SteeredActors
