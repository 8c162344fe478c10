import SteeredActors.Outcome

/-!
# Strategies

A strategy answers the questions of a controller: which operation goes next, and which value a
nondeterministic choice takes. It carries a state of its own from question to question and from one
iteration to the next. An answer may be a divergence, which ends the run.
-/

set_option autoImplicit false
set_option relaxedAutoImplicit false

namespace SteeredActors

/-- An answer together with the state after it. -/
abbrev Answered (σ α : Type) := Except Divergence α × σ

/-- The answers of a strategy whose state is `σ`. -/
class Strategy (σ : Type) where
  /-- The name in reports. -/
  name : σ → String
  /-- Get ready for an iteration; `false` if there is none. -/
  prepare : σ → Nat → Bool × σ
  /-- Choose one of the enabled operations, given in ascending order, at a point that the current
  operation reached. -/
  nextOperation : σ → PointKind → Nat → List Nat → Answered σ Nat
  /-- Choose a truth value. -/
  nextBool : σ → Answered σ Bool
  /-- Choose a number below a bound; zero if the bound is zero. -/
  nextInt : σ → Nat → Answered σ Nat

end SteeredActors
