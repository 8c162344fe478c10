import SteeredActors.Text.Quoted
import SteeredActors.Trace

/-!
# Bug reports and outcomes

A bug report says what went wrong, in which actor, and after which decisions. A run ends with
exactly one outcome.
-/

set_option autoImplicit false
set_option relaxedAutoImplicit false

namespace SteeredActors

/-- The category of a bug. -/
inductive BugKind where
  /-- An explicit assertion failed. -/
  | assertionViolation
  /-- No state on a stack could handle an event. -/
  | unhandledEvent
  /-- An action failed or panicked. -/
  | actionFault
  /-- Nothing is enabled and something waits for a reply. -/
  | deadlock
  /-- The numbers for identities are used up. -/
  | overflow
deriving DecidableEq, Repr

namespace BugKind

/-- Every category, in the order of declaration. -/
def all : List BugKind :=
  [.assertionViolation, .unhandledEvent, .actionFault, .deadlock, .overflow]

/-- The name under which a category is stored and shown. -/
def name : BugKind → String
  | .assertionViolation => "AssertionViolation"
  | .unhandledEvent => "UnhandledEvent"
  | .actionFault => "ActionFault"
  | .deadlock => "Deadlock"
  | .overflow => "Overflow"

/-- The category with a given name. -/
def ofName? (name : String) : Option BugKind := all.find? (·.name == name)

/-- A category is found again under its name. -/
theorem ofName?_name (kind : BugKind) : ofName? kind.name = some kind := by
  cases kind <;> decide

end BugKind

/-- A bug found during a run, with the decisions up to it. -/
structure BugReport where
  kind : BugKind
  message : String
  actor : Option ActorId
  trace : Trace
deriving DecidableEq, Repr

namespace BugReport

/-- A report that no run has ended with yet. -/
def new (kind : BugKind) (message : String) (actor : Option ActorId) : BugReport :=
  ⟨kind, message, actor, []⟩

/-- The report of a failed assertion. -/
def assertion (message : String) (actor : Option ActorId) : BugReport :=
  new .assertionViolation message actor

/-- The same category and message. -/
def sameVerdict (a b : BugReport) : Bool := a.kind == b.kind && a.message == b.message

/-- The same verdict on the same actor after the same decisions. -/
def same (a b : BugReport) : Bool :=
  a.sameVerdict b && a.trace == b.trace
    && (match a.actor, b.actor with
      | none, none => true
      | some x, some y => x.same y
      | _, _ => false)

/-- The one-line form. -/
def display (report : BugReport) : String :=
  s!"{report.kind.name}: {report.message}"
    ++ (match report.actor with
      | some actor => s!" (in {actor.name})"
      | none => "")

/-- The record of a report. -/
def toJson (report : BugReport) : Json :=
  .object
    [("kind", .text report.kind.name), ("message", .text report.message),
      ("actor", (report.actor.map ActorId.toJson).getD .null), ("trace", report.trace.toJson)]

/-- The actor of a record: absent or `null` for none. -/
def actorOfJson? : Option Json → Option (Option ActorId)
  | none | some .null => some none
  | some j => (ActorId.ofJson? j).map some

/-- The report that a record describes. -/
def ofJson? (j : Json) : Option BugReport := do
  match ← j.fields? ["kind", "message", "actor", "trace"] with
  | [some kind, some message, actor, some trace] =>
    return ⟨← BugKind.ofName? (← kind.constant?), ← message.text?, ← actorOfJson? actor,
      ← Trace.ofJson? trace⟩
  | _ => none

end BugReport

/-- How a run ended. -/
inductive Outcome where
  /-- Nothing is enabled and nothing waits. -/
  | quiescent
  /-- The allowed number of decisions was taken. -/
  | boundReached
  | bugFound (report : BugReport)
  /-- The program did not follow its strategy. -/
  | diverged (reason : String)
  /-- The run was shut down. -/
  | stopped
deriving DecidableEq, Repr

namespace Outcome

/-- The one-line form. -/
def display : Outcome → String
  | .quiescent => "quiescent"
  | .boundReached => "step bound reached"
  | .bugFound report => s!"bug found: {report.display}"
  | .diverged reason => s!"diverged: {reason}"
  | .stopped => "stopped"

/-- The report of a run that found a bug. -/
def bug? : Outcome → Option BugReport
  | .bugFound report => some report
  | _ => none

/-- The run left its strategy. -/
def isDiverged : Outcome → Bool
  | .diverged _ => true
  | _ => false

end Outcome

/-- A strategy could not follow the program. -/
structure Divergence where
  step : Nat
  reason : String
deriving DecidableEq, Repr

/-- The text of a divergence. -/
def Divergence.message (d : Divergence) : String :=
  s!"Replay diverged at step {d.step}: {d.reason}"

/-! ## Diagnostic forms -/

/-- The diagnostic form of an identity. -/
def ActorId.describe (id : ActorId) : String :=
  s!"ActorId \x7b value: {id.value}, name_value: {Text.Quoted.encode id.keyName}, " ++
    s!"type_tag: {Text.Quoted.encode id.typeTag}, name: {Text.Quoted.encode id.name}, " ++
    s!"generation: {id.generation} \x7d"

/-- The diagnostic form of a step. -/
def TraceStep.describe (step : TraceStep) : String :=
  s!"TraceStep \x7b kind: {step.kind.name}, chosen: {step.chosen} \x7d"

/-- The diagnostic form of a trace. -/
def Trace.describe (trace : Trace) : String :=
  let steps := ", ".intercalate (trace.map TraceStep.describe)
  s!"ExecutionTrace \x7b steps: [{steps}] \x7d"

/-- The diagnostic form of a report. -/
def BugReport.describe (report : BugReport) : String :=
  let actor := match report.actor with
    | some actor => s!"Some({actor.describe})"
    | none => "None"
  s!"BugReport \x7b kind: {report.kind.name}, message: {Text.Quoted.encode report.message}, " ++
    s!"actor: {actor}, trace: {report.trace.describe} \x7d"

/-- The diagnostic form of an outcome. -/
def Outcome.describe : Outcome → String
  | .quiescent => "Quiescent"
  | .boundReached => "BoundReached"
  | .bugFound report => s!"BugFound({report.describe})"
  | .diverged reason => s!"Diverged({Text.Quoted.encode reason})"
  | .stopped => "Stopped"

end SteeredActors
