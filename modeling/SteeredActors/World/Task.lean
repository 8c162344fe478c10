import SteeredActors.ActiveState
import SteeredActors.Controller.Basic
import SteeredActors.Descriptor.Registry

/-!
# Threads and their tasks

A thread has a list of tasks still to be done, the next one first. A task is done in one step, which
may put others in front. Where a program waits for an answer the list holds a task that keeps its
continuation: an answer, good or bad, abandons everything before it.
-/

set_option autoImplicit false
set_option relaxedAutoImplicit false

namespace SteeredActors

/-- One that interprets a descriptor: an actor or a monitor, by position. -/
inductive Subject where
  | actor (i : Nat)
  | monitor (i : Nat)
deriving DecidableEq, Repr

/-- Which kind of action runs. Transition actions count as exit actions. -/
inductive Phase where
  | entry
  | exit
  | action
deriving DecidableEq, Repr

/-- What an action asks to be done once it has returned. -/
inductive Demand where
  | event (event : Event)
  | goto (state : String)
  | push (state : String)
  | pop
deriving Repr

/-- Whose program runs. -/
inductive Speaker where
  | action (subject : Subject) (phase : Phase)
  /-- The test. -/
  | test
  /-- The sleeper with this position. -/
  | sleeper (j : Nat)
deriving DecidableEq, Repr

/-- One thing to be done by a thread. Actors, monitors, rendezvous and shared objects are given by
their positions. -/
inductive Task where
  -- What an actor does by itself
  /-- Wait for the first turn. -/
  | firstTurn (i : Nat)
  /-- Start to run, for the first time or after being idle. -/
  | wake (i : Nat)
  /-- Do what is raised, or else select the next event. -/
  | cycle (i : Nat)
  /-- Wait until there is work again. -/
  | rest (i : Nat)
  /-- The work of this thread is over. -/
  | retire (kind : PointKind)
  -- Interpretation
  /-- Enter the initial state. -/
  | start (c : Subject) (event : Option Event)
  /-- Let the stack handle an event, which a rendezvous may wait for. -/
  | handle (c : Subject) (event : Event) (rendezvous : Option Nat)
  /-- An event that a rendezvous waits for has been handled. -/
  | settle (i : Nat) (rendezvous : Nat) (handled : Bool)
  | invoke (c : Subject) (action : Action) (event : Option Event) (phase : Phase)
  /-- Leave the current state for another one; its exit action has run. -/
  | switch (c : Subject) (target : String) (event : Option Event)
  /-- Put a state on the stack. -/
  | enter (c : Subject) (target : String) (event : Option Event)
  /-- Go back to the state below. -/
  | pop (c : Subject)
  /-- Remove the top of the stack; its exit action has run. -/
  | dropTop (c : Subject)
  -- Monitors
  /-- Hand an event to every monitor that observes it. -/
  | forward (event : Event)
  /-- Hand an event to the monitor of a type. -/
  | notify (typeTag : String) (event : Event)
  | deliver (m : Nat) (event : Event)
  /-- Do what a monitor has raised. -/
  | drain (m : Nat)
  /-- Let a monitor handle the reserved event for as long as its state does. -/
  | defaults (m : Nat)
  /-- The delivery is over. -/
  | release (m : Nat)
  | install (descriptor : Descriptor) (id : ActorId)
  /-- A new monitor has started. -/
  | enlist (m : Nat)
  | listMonitors
  | readMonitor (typeTag : String)
  -- Sending, waiting and deciding
  | post (i : Nat) (event : Event)
  /-- Post an event and begin to wait for it. -/
  | engage (i : Nat) (event : Event)
  /-- Answer whether the event of a rendezvous was handled. -/
  | collect (rendezvous : Nat)
  /-- Wait for a rendezvous. -/
  | await (rendezvous : Nat)
  /-- A scheduling point, if decisions are explored. -/
  | point (kind : PointKind)
  /-- Let the controller decide who goes next. -/
  | pass (kind : PointKind)
  /-- Wait for the turn. -/
  | turn
  | touch (object : Nat) (operation : SharedOperation)
  | answer (v : Value)
  | awaitHalted (id : ActorId)
  | awaitQuiescence
  | sleep (j : Nat)
  -- Programs
  | perform (speaker : Speaker) (program : Program)
  /-- Wait for an answer. `outside` is what the thread goes back to, and `shared` tells an access to
  a shared object. -/
  | resume (speaker : Speaker) (outside shared : Bool) (next : Answer → Program)

/-- A thread of control. -/
structure Thread where
  tasks : List Task
  /-- A thread that the controller does not know runs in its place. -/
  outside : Bool

/-- A thread, by what it belongs to. -/
inductive ThreadId where
  | driver
  | actor (i : Nat)
  | sleeper (j : Nat)
deriving DecidableEq, Repr

end SteeredActors
