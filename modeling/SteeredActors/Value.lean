import SteeredActors.ActorId

/-!
# Values and events

Actions compute with dynamically typed values: scalars, identities, lists and references to shared
objects. An event is a type with an optional payload; handlers are bound to the type alone. Two
types are reserved: `Halt`, which halts an actor that no state of handles it, and `Default`, which
the interpreter makes up when nothing else is selectable.
-/

set_option autoImplicit false
set_option relaxedAutoImplicit false

namespace SteeredActors

/-- What variables hold and payloads carry. -/
inductive Value where
  | null
  | bool (b : Bool)
  | int (n : Int64)
  | text (s : String)
  | actor (id : ActorId)
  | list (items : List Value)
  /-- The shared object with this number. -/
  | shared (object : Nat)
deriving Repr, Inhabited

namespace Value

/-- A natural number as a value; one beyond the signed words is kept as its decimal text. -/
def ofNat (n : Nat) : Value :=
  if n < Nat.pow 2 63 then .int (Int64.ofNat n) else .text (toString n)

/-- Everything but `null` and `false` counts as true. -/
def isTrue : Value → Bool
  | .null => false
  | .bool b => b
  | _ => true

/-- The item at an index; `null` where there is none. -/
def nth : Value → Value → Value
  | .list items, .int i =>
    if i.toInt < 0 then .null else (items[i.toInt.toNat]?).getD .null
  | _, _ => .null

mutual

/-- The same kind of value with the same content. Identities are compared as identities, and a
shared object equals nothing. -/
def same : Value → Value → Bool
  | .null, .null => true
  | .bool a, .bool b => a == b
  | .int a, .int b => a == b
  | .text a, .text b => a == b
  | .actor a, .actor b => a.same b
  | .list as, .list bs => sameItems as bs
  | _, _ => false

/-- The same values in the same order. -/
def sameItems : List Value → List Value → Bool
  | [], [] => true
  | a :: as, b :: bs => same a b && sameItems as bs
  | _, _ => false

end

/-- Order of integers; any other pair is not in order. -/
def lt : Value → Value → Bool
  | .int a, .int b => a < b
  | _, _ => false

end Value

/-- The name that handlers are bound to. -/
structure EventType where
  name : String
deriving DecidableEq, Repr, Inhabited

namespace EventType

/-- Halts an actor none of whose states handles it. -/
def halt : EventType := ⟨"Halt"⟩

/-- Made up by the interpreter when nothing else is selectable. -/
def default : EventType := ⟨"Default"⟩

/-- The diagnostic form. -/
def describe (e : EventType) : String := s!"EventType({e.name})"

end EventType

/-- What a timer tells its owner. -/
structure TimerInfo where
  timer : ActorId
  owner : ActorId
  /-- In milliseconds. -/
  period : Nat
  periodic : Bool
deriving DecidableEq, Repr

/-- What an event carries. -/
inductive Payload where
  | value (v : Value)
  /-- Handed to a new timer. -/
  | timerSetup (owner : ActorId) (period : Nat) (periodic : Bool)
  /-- Handed to the owner of a timer that fired. -/
  | timerElapsed (info : TimerInfo)
deriving Repr

/-- An event that is raised, sent or made up. -/
structure Event where
  type : EventType
  payload : Option Payload
deriving Repr

namespace Event

/-- An event of the given type without a payload. -/
def ofType (type : EventType) : Event := ⟨type, none⟩

/-- The diagnostic form, which does not show the payload. -/
def describe (e : Event) : String :=
  let payload := if e.payload.isSome then "Some(Payload(..))" else "None"
  s!"Event \x7b event_type: {e.type.describe}, payload: {payload} \x7d"

end Event

end SteeredActors
