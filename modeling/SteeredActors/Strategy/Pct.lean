import SteeredActors.Random.Sample
import SteeredActors.Strategy.Basic

/-!
# Priorities with change points

Every operation gets a random priority when it is first seen, and the enabled operation of highest
priority goes next. At a few random steps of an iteration the operation that would go next is moved
to the lowest priority. The steps are drawn from the longest iteration seen so far, so the first
iteration has none.
-/

set_option autoImplicit false
set_option relaxedAutoImplicit false

namespace SteeredActors

/-- A strategy by priorities. -/
structure PctStrategy where
  seed : Nat
  generator : Random.Generator
  /-- How many change points an iteration has at most. -/
  changePointCount : Nat
  /-- Highest priority first. -/
  priorities : List Nat
  changePoints : List Nat
  /-- Questions asked in this iteration. -/
  step : Nat
  /-- The most questions asked in an earlier iteration. -/
  scheduleLength : Nat
deriving Repr

namespace PctStrategy

/-- The strategy of a seed before its first iteration. -/
def new (seed changePointCount : Nat) : PctStrategy :=
  ⟨seed, .ofSeed seed, changePointCount, [], [], 0, 0⟩

/-- Put an operation at a position; at the end if the list is shorter. -/
def insertAt (op : Nat) : Nat → List Nat → List Nat
  | 0, ops => op :: ops
  | _ + 1, [] => [op]
  | n + 1, p :: ops => p :: insertAt op n ops

/-- Give an operation that has no priority a random one. -/
def place (s : PctStrategy) (op : Nat) : PctStrategy :=
  if op ∈ s.priorities then s
  else
    let (position, generator) := s.generator.below64 (s.priorities.length + 1)
    { s with generator, priorities := insertAt op position s.priorities }

/-- Give every operation a priority, in order. -/
def placeAll (s : PctStrategy) (ops : List Nat) : PctStrategy := ops.foldl place s

/-- The enabled operation of highest priority. -/
def highest? (s : PctStrategy) (enabled : List Nat) : Option Nat :=
  s.priorities.find? (enabled.contains ·)

/-- Move an operation to the lowest priority. -/
def demote (s : PctStrategy) (op : Nat) : PctStrategy :=
  { s with priorities := s.priorities.filter (· != op) ++ [op] }

/-- At a change point, move the operation that would go next to the lowest priority. -/
def applyChangePoint (s : PctStrategy) (enabled : List Nat) : PctStrategy :=
  if s.step ∈ s.changePoints then
    match s.highest? enabled with
    | some top => s.demote top
    | none => s
  else s

/-- Count a question. -/
def advance (s : PctStrategy) : PctStrategy := { s with step := s.step + 1 }

/-- Forget priorities and change points, and draw new change points. -/
def prepare (s : PctStrategy) : PctStrategy :=
  let length := max s.scheduleLength s.step
  let count := min s.changePointCount length
  let s := { s with scheduleLength := length, priorities := [], changePoints := [], step := 0 }
  if count = 0 then s
  else
    let (positions, generator) := Random.sample s.generator length count
    { s with generator, changePoints := positions.map (· + 1) }

/-- Choose the enabled operation of highest priority. -/
def nextOperation (s : PctStrategy) (enabled : List Nat) : Answered PctStrategy Nat :=
  let s := (s.advance.placeAll enabled).applyChangePoint enabled
  match s.highest? enabled with
  | some op => (.ok op, s)
  | none => (.error ⟨s.step, "no prioritized operation is enabled"⟩, s)

/-- Draw a truth value. -/
def nextBool (s : PctStrategy) : Answered PctStrategy Bool :=
  let s := s.advance
  let (b, generator) := s.generator.nextBool
  (.ok b, { s with generator })

/-- Draw a number below the bound; nothing is drawn for the bound zero. -/
def nextInt (s : PctStrategy) (max : Nat) : Answered PctStrategy Nat :=
  let s := s.advance
  if max = 0 then (.ok 0, s)
  else
    let (n, generator) := s.generator.below64 max
    (.ok n, { s with generator })

instance : Strategy PctStrategy where
  name _ := "pct"
  prepare s _ := (true, s.prepare)
  nextOperation s _ _ enabled := s.nextOperation enabled
  nextBool := nextBool
  nextInt := nextInt

end PctStrategy

end SteeredActors
