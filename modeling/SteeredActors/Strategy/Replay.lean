import SteeredActors.Strategy.Basic

/-!
# Replay

A recorded trace is fed back step by step for one iteration. A step of another kind, an operation
that is not enabled, a number outside the bound, or a question past the end is a divergence.
-/

set_option autoImplicit false
set_option relaxedAutoImplicit false

namespace SteeredActors

/-- A strategy that answers from a trace. -/
structure ReplayStrategy where
  trace : Trace
  /-- Steps used so far. -/
  position : Nat
deriving DecidableEq, Repr

namespace ReplayStrategy

/-- The strategy at the start of a trace. -/
def ofTrace (trace : Trace) : ReplayStrategy := ⟨trace, 0⟩

/-- Use the next step, which has to be of a kind. -/
def take (s : ReplayStrategy) (kind : PointKind) : Answered ReplayStrategy Nat :=
  match s.trace[s.position]? with
  | none =>
    (.error ⟨s.position, s!"trace has {s.trace.length} steps, program asked for more"⟩, s)
  | some step =>
    if step.kind = kind then (.ok step.chosen, { s with position := s.position + 1 })
    else
      (.error ⟨s.position, s!"recorded {step.kind.name} but program reached {kind.name}"⟩, s)

/-- The recorded operation, which has to be enabled. -/
def nextOperation (s : ReplayStrategy) (kind : PointKind) (enabled : List Nat) :
    Answered ReplayStrategy Nat :=
  match s.take kind with
  | (.ok chosen, next) =>
    if enabled.contains chosen then (.ok chosen, next)
    else (.error ⟨s.position, s!"recorded operation {chosen} is not enabled"⟩, next)
  | (.error d, next) => (.error d, next)

/-- The recorded truth value; every number but zero counts as true. -/
def nextBool (s : ReplayStrategy) : Answered ReplayStrategy Bool :=
  match s.take .boolChoice with
  | (.ok chosen, next) => (.ok (chosen != 0), next)
  | (.error d, next) => (.error d, next)

/-- The recorded number, which has to lie below a bound that is not zero. -/
def nextInt (s : ReplayStrategy) (max : Nat) : Answered ReplayStrategy Nat :=
  match s.take .intChoice with
  | (.ok value, next) =>
    if 0 < max ∧ max ≤ value then
      (.error ⟨s.position, s!"recorded value {value} is out of range 0..{max}"⟩, next)
    else (.ok value, next)
  | (.error d, next) => (.error d, next)

/-- Start again; only the first iteration is run. -/
def prepare (s : ReplayStrategy) (iteration : Nat) : Bool × ReplayStrategy :=
  (iteration == 0, { s with position := 0 })

instance : Strategy ReplayStrategy where
  name _ := "replay"
  prepare := prepare
  nextOperation s kind _ enabled := s.nextOperation kind enabled
  nextBool := nextBool
  nextInt := nextInt

end ReplayStrategy

end SteeredActors
