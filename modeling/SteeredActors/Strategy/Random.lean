import SteeredActors.Random.Uniform
import SteeredActors.Strategy.Basic

/-!
# Random choice

Every decision is drawn uniformly from the possible ones.
-/

set_option autoImplicit false
set_option relaxedAutoImplicit false

namespace SteeredActors

/-- A strategy that draws every decision. -/
structure RandomStrategy where
  seed : Nat
  generator : Random.Generator
deriving Repr

namespace RandomStrategy

/-- The strategy at the start of the stream of a seed. -/
def ofSeed (seed : Nat) : RandomStrategy := ⟨seed, .ofSeed seed⟩

/-- Draw one of the enabled operations. -/
def nextOperation (s : RandomStrategy) (enabled : List Nat) : Answered RandomStrategy Nat :=
  let (i, generator) := s.generator.below64 enabled.length
  (.ok (enabled[i]?.getD 0), { s with generator })

/-- Draw a truth value. -/
def nextBool (s : RandomStrategy) : Answered RandomStrategy Bool :=
  let (b, generator) := s.generator.nextBool
  (.ok b, { s with generator })

/-- Draw a number below the bound; nothing is drawn for the bound zero. -/
def nextInt (s : RandomStrategy) (max : Nat) : Answered RandomStrategy Nat :=
  if max = 0 then (.ok 0, s)
  else
    let (n, generator) := s.generator.below64 max
    (.ok n, { s with generator })

instance : Strategy RandomStrategy where
  name _ := "random"
  prepare s _ := (true, s)
  nextOperation s _ _ enabled := s.nextOperation enabled
  nextBool := nextBool
  nextInt := nextInt

end RandomStrategy

end SteeredActors
