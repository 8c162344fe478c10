import SteeredActors.Program

/-!
# Descriptors

A descriptor is the fixed definition of a type of actors: its states, what each state does with the
events it names, and, for a monitor, what it observes besides. One state is where its actors start.
-/

set_option autoImplicit false
set_option relaxedAutoImplicit false

namespace SteeredActors

/-- Machines run on their own; monitors are handed the events that others send. -/
inductive ActorKind where
  | machine
  | monitor
deriving DecidableEq, Repr

/-- The name of a kind of actors. -/
def ActorKind.name : ActorKind → String
  | .machine => "Machine"
  | .monitor => "Monitor"

/-- What a state does with an event. -/
inductive Disposition where
  /-- Leave for another state; the transition action runs after the exit action. -/
  | goto (target : String) (transition : Option Action)
  /-- Put another state on top of this one. -/
  | push (target : String)
  /-- Run an action and stay. -/
  | action (action : Action)
  /-- Drop the event. -/
  | ignore
  /-- Leave the event in the queue. -/
  | defer

/-- The definition of one state. -/
structure StateDescriptor where
  name : String
  initial : Bool
  /-- The state whose bindings are used for the events that this one does not name. -/
  base : Option String
  entry : Option Action
  exit : Option Action
  /-- In the order of declaration. -/
  bindings : List (EventType × Disposition)

namespace StateDescriptor

/-- The events that a state names. -/
def events (s : StateDescriptor) : List EventType := s.bindings.map (·.1)

/-- The state names the event. -/
def declares (s : StateDescriptor) (e : EventType) : Bool := s.events.contains e

/-- What the state does with an event that it names. -/
def disposition? (s : StateDescriptor) (e : EventType) : Option Disposition :=
  (s.bindings.find? (·.1 == e)).map (·.2)

/-- The state drops the event. -/
def ignores (s : StateDescriptor) (e : EventType) : Bool :=
  match s.disposition? e with
  | some .ignore => true
  | _ => false

/-- The state leaves the event in the queue. -/
def defers (s : StateDescriptor) (e : EventType) : Bool :=
  match s.disposition? e with
  | some .defer => true
  | _ => false

/-- The target of a goto. -/
def gotoTarget? : Disposition → Option String
  | .goto target _ => some target
  | _ => none

/-- The target of a push. -/
def pushTarget? : Disposition → Option String
  | .push target => some target
  | _ => none

/-- The states that a state leads to: by gotos first, then by pushes. -/
def targets (s : StateDescriptor) : List String :=
  s.bindings.filterMap (gotoTarget? ·.2) ++ s.bindings.filterMap (pushTarget? ·.2)

/-- The state puts other states on top of itself. -/
def pushes (s : StateDescriptor) : Bool := s.bindings.any fun b => (pushTarget? b.2).isSome

/-- The state's own actions. -/
def actions (s : StateDescriptor) : List (EventType × Action) :=
  s.bindings.filterMap fun
    | (e, .action a) => some (e, a)
    | _ => none

/-- The events that a state drops. -/
def ignored (s : StateDescriptor) : List EventType :=
  s.bindings.filterMap fun
    | (e, .ignore) => some e
    | _ => none

/-- The state with the bindings and actions of another one where it has none of its own. -/
def extending (s base : StateDescriptor) : StateDescriptor :=
  { s with
    entry := s.entry <|> base.entry
    exit := s.exit <|> base.exit
    bindings := s.bindings ++ base.bindings.filter fun b => !s.declares b.1 }

end StateDescriptor

/-- The definition of a type of actors. -/
structure Descriptor where
  typeTag : String
  kind : ActorKind
  states : List StateDescriptor
  initial : StateDescriptor
  /-- What a monitor observes besides the events that its states name. -/
  observes : List EventType

namespace Descriptor

/-- The state with a given name. -/
def state? (d : Descriptor) (name : String) : Option StateDescriptor :=
  d.states.find? (·.name == name)

/-- The events that a monitor is handed: those that its states name, except the one that is only
ever made up, and those that it observes. -/
def subscriptions (d : Descriptor) : List EventType :=
  ((d.states.flatMap StateDescriptor.events).filter (· != .default) ++ d.observes).eraseDups

end Descriptor

/-! ## Diagnostic forms -/

namespace StateDescriptor

/-- A set or map in diagnostic form. -/
def describeGroup (items : List String) : String :=
  "\x7b" ++ ", ".intercalate items ++ "\x7d"

/-- The diagnostic form of a goto. -/
def describeGoto? : EventType × Disposition → Option String
  | (e, .goto target transition) =>
    some (s!"{e.describe}: GotoTransition \x7b target: {Text.Quoted.encode target}, " ++
      s!"exit: {transition.isSome} \x7d")
  | _ => none

/-- The diagnostic form of a push. -/
def describePush? : EventType × Disposition → Option String
  | (e, .push target) => some s!"{e.describe}: {Text.Quoted.encode target}"
  | _ => none

/-- The diagnostic form of a state. -/
def describe (s : StateDescriptor) : String :=
  let deferred := s.bindings.filterMap fun
    | (e, .defer) => some e.describe
    | _ => none
  let actions := (s.actions.map (·.1.name)).mergeSort
  s!"StateDescriptor \x7b name: {Text.Quoted.encode s.name}, initial: {s.initial}, " ++
    s!"gotos: {describeGroup (s.bindings.filterMap describeGoto?)}, " ++
    s!"pushes: {describeGroup (s.bindings.filterMap describePush?)}, " ++
    s!"actions: {Text.Quoted.encodeList actions}, " ++
    s!"ignored: {describeGroup (s.ignored.map EventType.describe)}, " ++
    s!"deferred: {describeGroup deferred} \x7d"

end StateDescriptor

/-- The diagnostic form of a descriptor. -/
def Descriptor.describe (d : Descriptor) : String :=
  let states := ", ".intercalate (d.states.map StateDescriptor.describe)
  s!"ActorDescriptor \x7b type_tag: {Text.Quoted.encode d.typeTag}, kind: {d.kind.name}, " ++
    s!"states: [{states}], initial: {Text.Quoted.encode d.initial.name} \x7d"

end SteeredActors
