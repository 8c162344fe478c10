import SteeredActors.Strategy.Basic

/-!
# Scripted answers

A strategy whose answers are given in advance, for trying a controller at decisions that no other
strategy takes. An answer may be a divergence of its own.
-/

set_option autoImplicit false
set_option relaxedAutoImplicit false

namespace SteeredActors

/-- A strategy that answers from a list. -/
structure ScriptedStrategy where
  /-- A number, or the reason of a divergence. -/
  answers : List (Except String Nat)
  /-- Questions asked so far. -/
  asked : Nat
deriving Repr

namespace ScriptedStrategy

/-- The strategy before its first question. -/
def ofAnswers (answers : List (Except String Nat)) : ScriptedStrategy := ⟨answers, 0⟩

/-- The next answer. -/
def take (s : ScriptedStrategy) : Answered ScriptedStrategy Nat :=
  let asked := s.asked + 1
  match s.answers with
  | [] => (.error ⟨asked, "script ended"⟩, { s with asked })
  | .ok n :: answers => (.ok n, { answers, asked })
  | .error reason :: answers => (.error ⟨asked, reason⟩, { answers, asked })

/-- The next answer as a truth value; every number but zero counts as true. -/
def nextBool (s : ScriptedStrategy) : Answered ScriptedStrategy Bool :=
  match s.take with
  | (.ok n, next) => (.ok (n != 0), next)
  | (.error d, next) => (.error d, next)

instance : Strategy ScriptedStrategy where
  name _ := "scripted"
  prepare s _ := (true, s)
  nextOperation s _ _ _ := s.take
  nextBool := nextBool
  nextInt s _ := s.take

end ScriptedStrategy

end SteeredActors
