/-!
# Settings

What a user may set: how scheduling points are treated, how an exploration is carried out, how
actors choose their next event, and how logs are written. Settings that would make a run meaningless
are refused.
-/

set_option autoImplicit false
set_option relaxedAutoImplicit false

namespace SteeredActors

/-- Whether decisions are explored or left to the world. -/
inductive Mode where
  | production
  | exploration
deriving DecidableEq, Repr, Inhabited

/-- The word for a mode. -/
def Mode.word : Mode → String
  | .production => "production"
  | .exploration => "exploration"

/-- All modes. -/
def Mode.all : List Mode := [.production, .exploration]

/-- Which strategy steers an exploration. -/
inductive StrategyKind where
  | random
  | pct
  | replay
deriving DecidableEq, Repr, Inhabited

/-- The word for a strategy. -/
def StrategyKind.word : StrategyKind → String
  | .random => "random"
  | .pct => "pct"
  | .replay => "replay"

/-- All strategies. -/
def StrategyKind.all : List StrategyKind := [.random, .pct, .replay]

/-- Which queued event an actor takes next. -/
inductive DequeuePolicy where
  /-- The first one that the current state neither ignores nor defers. -/
  | firstNonDeferred
  /-- The first one that the current state neither ignores nor defers nor binds. -/
  | firstUnhandled
deriving DecidableEq, Repr, Inhabited

/-- The word for a policy. -/
def DequeuePolicy.word : DequeuePolicy → String
  | .firstNonDeferred => "first_non_deferred"
  | .firstUnhandled => "first_unhandled"

/-- All policies. -/
def DequeuePolicy.all : List DequeuePolicy := [.firstNonDeferred, .firstUnhandled]

/-- How scheduling is done. -/
structure SchedulingSettings where
  mode : Mode := .production
  strategy : StrategyKind := .random
  iterations : Nat := 100
  /-- Decisions per iteration before the run is cut off. -/
  maxSteps : Nat := 10000
  /-- Drawn at random if not set. -/
  seed : Option Nat := none
  pctChangePoints : Nat := 2
  /-- The file with the trace to replay. -/
  replayTrace : Option String := none
deriving DecidableEq, Repr, Inhabited

/-- How actors are run. -/
structure RuntimeSettings where
  dequeuePolicy : DequeuePolicy := .firstNonDeferred
  /-- The generation of the first identities. -/
  generation : Nat := 0
deriving DecidableEq, Repr, Inhabited

/-- How logs are written. -/
structure LogSettings where
  level : String := "info"
  ansi : Bool := true
  json : Bool := false
deriving DecidableEq, Repr, Inhabited

/-- All settings. -/
structure Settings where
  scheduling : SchedulingSettings := {}
  runtime : RuntimeSettings := {}
  logging : LogSettings := {}
  /-- Where the trace of a failing iteration is written. -/
  traceOutput : Option String := none
deriving DecidableEq, Repr, Inhabited

/-- Why settings are refused. -/
inductive SettingsFault where
  | noIterations
  | noSteps
  | noReplayTrace
deriving DecidableEq, Repr

/-- The text of a refusal. -/
def SettingsFault.message : SettingsFault → String
  | .noIterations => "scheduling.iterations must be at least 1"
  | .noSteps => "scheduling.max_steps must be at least 1"
  | .noReplayTrace => "scheduling.replay_trace is required by the replay strategy"

namespace Settings

/-- Default settings with decisions explored. -/
def exploration : Settings := { scheduling := { mode := .exploration } }

/-- Decisions are explored. -/
def explores (s : Settings) : Bool := s.scheduling.mode == .exploration

/-- The first reason to refuse the settings, if there is one. -/
def fault? (s : Settings) : Option SettingsFault :=
  if s.scheduling.iterations = 0 then some .noIterations
  else if s.scheduling.maxSteps = 0 then some .noSteps
  else if s.scheduling.strategy = .replay ∧ s.scheduling.replayTrace = none then
    some .noReplayTrace
  else none

/-! ## Choosing settings -/

/-- Choose the mode. -/
def withMode (s : Settings) (mode : Mode) : Settings :=
  { s with scheduling := { s.scheduling with mode } }

/-- Choose the strategy. -/
def withStrategy (s : Settings) (strategy : StrategyKind) : Settings :=
  { s with scheduling := { s.scheduling with strategy } }

/-- Choose how many iterations there are. -/
def withIterations (s : Settings) (iterations : Nat) : Settings :=
  { s with scheduling := { s.scheduling with iterations } }

/-- Choose how many decisions an iteration has at most. -/
def withMaxSteps (s : Settings) (maxSteps : Nat) : Settings :=
  { s with scheduling := { s.scheduling with maxSteps } }

/-- Choose the seed. -/
def withSeed (s : Settings) (seed : Nat) : Settings :=
  { s with scheduling := { s.scheduling with seed := some seed } }

/-- Choose how many change points priorities have. -/
def withPctChangePoints (s : Settings) (pctChangePoints : Nat) : Settings :=
  { s with scheduling := { s.scheduling with pctChangePoints } }

/-- Replay the trace in a file. -/
def withReplayTrace (s : Settings) (path : String) : Settings :=
  { s with scheduling := { s.scheduling with strategy := .replay, replayTrace := some path } }

/-- Choose which queued event is taken next. -/
def withDequeuePolicy (s : Settings) (dequeuePolicy : DequeuePolicy) : Settings :=
  { s with runtime := { s.runtime with dequeuePolicy } }

/-- Choose the generation of the first identities. -/
def withGeneration (s : Settings) (generation : Nat) : Settings :=
  { s with runtime := { s.runtime with generation } }

/-- Write the trace of a failing iteration to a file. -/
def withTraceOutput (s : Settings) (path : String) : Settings :=
  { s with traceOutput := some path }

end Settings

end SteeredActors
