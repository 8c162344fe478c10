import SteeredActors.Strategy.Pct
import SteeredActors.Strategy.Random
import SteeredActors.Strategy.Replay
import SteeredActors.Strategy.Scripted

/-!
# The available strategies

One type for the strategies that a run may be asked to use; each question goes to the one chosen.
-/

set_option autoImplicit false
set_option relaxedAutoImplicit false

namespace SteeredActors

/-- One of the strategies with its state. -/
inductive AnyStrategy where
  | random (s : RandomStrategy)
  | pct (s : PctStrategy)
  | replay (s : ReplayStrategy)
  | scripted (s : ScriptedStrategy)

namespace AnyStrategy

/-- The seed of a strategy that draws. -/
def seed? : AnyStrategy → Option Nat
  | .random s => some s.seed
  | .pct s => some s.seed
  | .replay _ | .scripted _ => none

/-- Apply a function to the state of an answer. -/
def mapState {σ τ α : Type} (f : σ → τ) : α × σ → α × τ
  | (answer, s) => (answer, f s)

instance : Strategy AnyStrategy where
  name
    | .random s => Strategy.name s
    | .pct s => Strategy.name s
    | .replay s => Strategy.name s
    | .scripted s => Strategy.name s
  prepare
    | .random s, i => mapState .random (Strategy.prepare s i)
    | .pct s, i => mapState .pct (Strategy.prepare s i)
    | .replay s, i => mapState .replay (Strategy.prepare s i)
    | .scripted s, i => mapState .scripted (Strategy.prepare s i)
  nextOperation
    | .random s, kind, current, ops =>
      mapState .random (Strategy.nextOperation s kind current ops)
    | .pct s, kind, current, ops => mapState .pct (Strategy.nextOperation s kind current ops)
    | .replay s, kind, current, ops =>
      mapState .replay (Strategy.nextOperation s kind current ops)
    | .scripted s, kind, current, ops =>
      mapState .scripted (Strategy.nextOperation s kind current ops)
  nextBool
    | .random s => mapState .random (Strategy.nextBool s)
    | .pct s => mapState .pct (Strategy.nextBool s)
    | .replay s => mapState .replay (Strategy.nextBool s)
    | .scripted s => mapState .scripted (Strategy.nextBool s)
  nextInt
    | .random s, max => mapState .random (Strategy.nextInt s max)
    | .pct s, max => mapState .pct (Strategy.nextInt s max)
    | .replay s, max => mapState .replay (Strategy.nextInt s max)
    | .scripted s, max => mapState .scripted (Strategy.nextInt s max)

end AnyStrategy

end SteeredActors
