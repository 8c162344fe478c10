import SteeredActors.ActorId
import SteeredActors.Json.Basic

/-!
# Traces

A trace lists the decisions of one run in order. A scheduling decision chose an operation; a
nondeterministic choice chose a value. A trace is stored as a list of records with the fields `kind`
and `chosen`.
-/

set_option autoImplicit false
set_option relaxedAutoImplicit false

namespace SteeredActors

/-- The reason for which a decision is taken. -/
inductive PointKind where
  | create
  | send
  | halt
  | rendezvous
  | boolChoice
  | intChoice
  /-- An operation went idle or finished its work. -/
  | yield
  /-- An event of the reserved type `Default` is about to be handled. -/
  | defaultEvent
  /-- A shared object is about to be accessed. -/
  | sharedAccess
deriving DecidableEq, Repr, Inhabited

namespace PointKind

/-- Every kind, in the order of declaration. -/
def all : List PointKind :=
  [.create, .send, .halt, .rendezvous, .boolChoice, .intChoice, .yield, .defaultEvent,
    .sharedAccess]

/-- The name under which a kind is stored and shown. -/
def name : PointKind → String
  | .create => "Create"
  | .send => "Send"
  | .halt => "Halt"
  | .rendezvous => "Rendezvous"
  | .boolChoice => "NonDeterministicBool"
  | .intChoice => "NonDeterministicInt"
  | .yield => "Yield"
  | .defaultEvent => "DefaultEvent"
  | .sharedAccess => "SharedAccess"

/-- The kind with a given name. -/
def ofName? (name : String) : Option PointKind := all.find? (·.name == name)

/-- The decision chose a value and not an operation. -/
def isChoice : PointKind → Bool
  | .boolChoice | .intChoice => true
  | _ => false

/-- A kind is found again under its name. -/
theorem ofName?_name (kind : PointKind) : ofName? kind.name = some kind := by
  cases kind <;> decide

end PointKind

/-- One recorded decision. -/
structure TraceStep where
  kind : PointKind
  chosen : Nat
deriving DecidableEq, Repr

/-- The decisions of one run, in order. -/
abbrev Trace := List TraceStep

namespace TraceStep

/-- The record of a step. -/
def toJson (step : TraceStep) : Json :=
  .object [("kind", .text step.kind.name), ("chosen", .natural step.chosen)]

/-- The step that a record describes. -/
def ofJson? (j : Json) : Option TraceStep := do
  match ← j.fields? ["kind", "chosen"] with
  | [some kind, some chosen] =>
    return ⟨← PointKind.ofName? (← kind.constant?), ← chosen.word? maxWord⟩
  | _ => none

end TraceStep

namespace Trace

/-- The list of the records of all steps. -/
def toJson (trace : Trace) : Json := .list (trace.map TraceStep.toJson)

/-- The trace that a list of records describes. -/
def ofJson? : Json → Option Trace
  | .list items => items.mapM TraceStep.ofJson?
  | _ => none

/-- How many steps chose a value. -/
def choices (trace : Trace) : Nat := trace.countP (·.kind.isChoice)

end Trace

namespace ActorId

/-- The record of an identity. -/
def toJson (id : ActorId) : Json :=
  .object
    [("value", .natural id.value), ("name_value", .text id.keyName), ("type_tag", .text id.typeTag),
      ("name", .text id.name), ("generation", .natural id.generation)]

/-- The identity that a record describes. -/
def ofJson? (j : Json) : Option ActorId := do
  match ← j.fields? ["value", "name_value", "type_tag", "name", "generation"] with
  | [some value, some keyName, some typeTag, some name, some generation] =>
    return ⟨← value.word? maxWord, ← keyName.text?, ← typeTag.text?, ← name.text?,
      ← generation.word? maxWord⟩
  | _ => none

end ActorId

end SteeredActors
