import SteeredActors.Descriptor.Basic
import SteeredActors.Mailbox
import SteeredActors.Settings.Basic

/-!
# Active states

A state on the stack of an actor. Gotos, pushes and deferred events are its own. Actions and ignored
events come also from the state below it, for the events that it does not name itself. An event is
handled by the highest state that can handle it; those above are popped.
-/

set_option autoImplicit false
set_option relaxedAutoImplicit false

namespace SteeredActors

/-- A state on a stack, with its effective actions and ignored events. -/
structure ActiveState where
  state : StateDescriptor
  actions : List (EventType × Action)
  ignored : List EventType

/-- How an event is consumed. -/
inductive Binding where
  | goto (target : String) (transition : Option Action)
  | push (target : String)
  | action (action : Action)

namespace ActiveState

/-- A state on top of another one, or at the bottom of a stack. -/
def ofState (s : StateDescriptor) (lower : Option ActiveState) : ActiveState :=
  match lower with
  | none => ⟨s, s.actions, s.ignored⟩
  | some below =>
    let actions := s.actions ++ below.actions.filter fun a => !s.declares a.1
    let ignored := s.ignored ++ below.ignored.filter fun e =>
      !s.declares e && !(actions.map (·.1)).contains e
    ⟨s, actions, ignored⟩

/-- The name of the state. -/
def name (s : ActiveState) : String := s.state.name

/-- The event is dropped. -/
def ignores (s : ActiveState) (e : EventType) : Bool := s.ignored.contains e

/-- The event is left in the queue. -/
def defers (s : ActiveState) (e : EventType) : Bool := s.state.defers e

/-- The effective action for an event. -/
def action? (s : ActiveState) (e : EventType) : Option Action :=
  (s.actions.find? (·.1 == e)).map (·.2)

/-- How an event is consumed, if it can be. -/
def binding? (s : ActiveState) (e : EventType) : Option Binding :=
  match s.state.disposition? e with
  | some (.goto target transition) => some (.goto target transition)
  | some (.push target) => some (.push target)
  | _ => (s.action? e).map .action

/-- The event can be consumed. -/
def canHandle (s : ActiveState) (e : EventType) : Bool := (s.binding? e).isSome

/-- The reserved event can be consumed. -/
def hasDefault (s : ActiveState) : Bool := s.canHandle .default

/-- What selection does with a queued event while this is the current state. -/
def verdict (s : ActiveState) (policy : DequeuePolicy) (e : EventType) : Verdict :=
  if s.ignores e then .discard
  else if s.defers e then .skip
  else
    match policy with
    | .firstNonDeferred => .take
    | .firstUnhandled => if s.canHandle e then .skip else .take

end ActiveState

/-- What a stack does with an event, with the states left on the stack. -/
inductive Resolution where
  /-- The event is dropped. -/
  | ignored (stack : List ActiveState)
  | bound (binding : Binding) (stack : List ActiveState)
  /-- No state can handle the event. -/
  | exhausted

/-- Pop states until one drops the event or can handle it. The top of a stack comes first. -/
def resolveEvent (e : EventType) : List ActiveState → Resolution
  | [] => .exhausted
  | top :: rest =>
    if top.ignores e then .ignored (top :: rest)
    else
      match top.binding? e with
      | some binding => .bound binding (top :: rest)
      | none => resolveEvent e rest

end SteeredActors
