import SteeredActors.Settings.Basic
import SteeredActors.Strategy.Choice
import SteeredActors.World.Step

/-!
# Production runs

A run whose decisions nobody explores, driven from outside one program at a time. After each program
everything that it set going comes to rest before the next one starts. The run ends when it is shut
down or at its first bug; what is asked of it later is refused.
-/

set_option autoImplicit false
set_option relaxedAutoImplicit false

namespace SteeredActors

/-- A run with its actors, its clock and the memory of whoever drives it. No strategy is used. -/
abbrev ProductionRun := World AnyStrategy

/-- What became of a program that drove a run. -/
inductive DriveResult where
  | ok
  | failed (failure : Failure)
  /-- The run ended meanwhile. -/
  | terminated
deriving DecidableEq, Repr

/-- What was seen of a program that drove a run. -/
structure DriveRecord where
  result : DriveResult
  journal : List JournalLine
  /-- In the order of identities. -/
  actors : List (ActorId × ActorStatus)
deriving Repr

namespace ProductionRun

/-- A run in which nothing has happened. Explored runs are not driven from outside. -/
def start (settings : Settings) (registry : Registry) : Except Refusal ProductionRun :=
  if settings.explores then
    .error (.invalidOperation "exploration runs are driven by the TestingEngine")
  else
    .ok (World.new (.production AnyStrategy) registry settings.runtime.dequeuePolicy
      (.ofGeneration settings.runtime.generation) (.finish {} .ok))

/-- The run with a program for its driver and an empty journal. -/
def load (w : ProductionRun) (program : Memory → Program) : ProductionRun :=
  { w with
    journal := []
    test := { w.test with
      ending := none
      thread := ⟨[.perform .test (program w.test.memory)], false⟩ } }

/-- How the driver's program ended. -/
def resultOf : Option Ending → DriveResult
  | some (.failed failure) => .failed failure
  | some (.panicked message) => .failed (.other (Ending.panicText message))
  | some .ok | none => .ok

/-- All actors with their statuses, in the order of identities. -/
def statuses (w : ProductionRun) : List (ActorId × ActorStatus) :=
  (ActorId.sort (w.actors.map (·.core.id))).filterMap fun id =>
    (w.statusOf? id).map (id, ·)

/-- Drive the run by a program until nothing moves, with a bound on the steps of the world. -/
def drive (w : ProductionRun) (fuel : Nat) (program : Memory → Program) :
    DriveRecord × ProductionRun :=
  let after : ProductionRun := World.run fuel (w.load program)
  let result :=
    if !w.isOver && after.isOver then .terminated else resultOf after.test.ending
  (⟨result, after.journal.reverse, after.statuses⟩, after)

/-- The text of a variable of the driver. -/
def variableText (w : ProductionRun) (x : String) : String :=
  (w.test.memory.get x).render w.objects

/-- End the run, if it has not ended. -/
def shutdown (w : ProductionRun) (fuel : Nat) : ProductionRun :=
  World.run fuel { w with controller := (w.controller.terminate .stopped).2 }

end ProductionRun

end SteeredActors
