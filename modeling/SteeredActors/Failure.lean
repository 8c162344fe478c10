import SteeredActors.ActorId

/-!
# Failures

What a request or an action can fail with. Two of the refusals of a runtime, cancellation and a
failed assertion, mean that the run has ended or is about to; an action that returns one of them is
taken to unwind and not to fail on its own.
-/

set_option autoImplicit false
set_option relaxedAutoImplicit false

namespace SteeredActors

/-- Why a runtime refused a request. -/
inductive Refusal where
  | identity (e : IdentityError)
  | unknownActorType (typeTag : String)
  | unknownMonitor (typeTag : String)
  | unknownActor (id : ActorId)
  /-- An assertion failed and was reported. -/
  | assertionFailure (message : String)
  | invalidOperation (message : String)
  /-- The run has ended. -/
  | canceled
deriving DecidableEq, Repr

namespace Refusal

/-- The text of a refusal. -/
def message : Refusal → String
  | .identity e => e.message
  | .unknownActorType typeTag => s!"Unknown actor type '{typeTag}'"
  | .unknownMonitor typeTag => s!"Unknown monitor '{typeTag}'"
  | .unknownActor id => s!"Unknown actor '{id.name}'"
  | .assertionFailure message => s!"Assertion failure: {message}"
  | .invalidOperation message => s!"Invalid operation: {message}"
  | .canceled => "Execution canceled"

/-- The name of the kind of a refusal. -/
def kind : Refusal → String
  | .identity _ => "Identity"
  | .unknownActorType _ => "UnknownActorType"
  | .unknownMonitor _ => "UnknownMonitor"
  | .unknownActor _ => "UnknownActor"
  | .assertionFailure _ => "AssertionFailure"
  | .invalidOperation _ => "InvalidOperation"
  | .canceled => "ExecutionCanceled"

/-- The refusal tells of an ended run or of a bug that was reported. -/
def isTermination : Refusal → Bool
  | .canceled | .assertionFailure _ => true
  | _ => false

end Refusal

/-- What an action fails with. -/
inductive Failure where
  | runtime (refusal : Refusal)
  /-- The access to a shared object was refused. -/
  | access (refusal : Refusal)
  /-- A shared dictionary does not hold the key with this text. -/
  | keyNotFound (key : String)
  | other (text : String)
  /-- A failure with a text around it. -/
  | within (context : String) (text : String)
deriving DecidableEq, Repr

namespace Failure

/-- The outermost text. -/
def message : Failure → String
  | .runtime refusal | .access refusal => refusal.message
  | .keyNotFound key => s!"Key {key} was not found in the shared dictionary"
  | .other text => text
  | .within context _ => context

/-- The text with everything inside it. -/
def chain : Failure → String
  | .within context text => s!"{context}: {text}"
  | failure => failure.message

/-- The name of the kind of a failure. -/
def kind : Failure → String
  | .runtime refusal | .access refusal => refusal.kind
  | .keyNotFound _ => "KeyNotFound"
  | .other _ | .within _ _ => "Error"

/-- The failure is the runtime's own signal to unwind. -/
def isTermination : Failure → Bool
  | .runtime refusal => refusal.isTermination
  | _ => false

end Failure

end SteeredActors
