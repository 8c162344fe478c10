import SteeredActors.Descriptor.Basic

/-!
# Timers

A timer is a machine of a built-in type, created on behalf of its owner. It sends `TimerElapsed`
until it receives `StopTimer` or, if it is not periodic, after its first firing. When decisions are
explored a timer never sleeps: whenever it is idle it asks for a truth value and fires if that comes
up true. Otherwise a sleeper fires on its behalf.
-/

set_option autoImplicit false
set_option relaxedAutoImplicit false

namespace SteeredActors.Timer

/-- The type of timers whose firing is explored. -/
def explored : String := "marionette::Timer"

/-- The type of timers that sleep. -/
def sleeping : String := "marionette::ProductionTimer"

/-- Created timers are handed their setup with this event. -/
def setup : EventType := ⟨"marionette::TimerSetup"⟩

/-- Sent to the owner each time a timer fires. -/
def elapsed : EventType := ⟨"TimerElapsed"⟩

/-- Sent to a timer to stop it. -/
def stop : EventType := ⟨"StopTimer"⟩

/-- The event that a firing timer sends. -/
def firing (info : TimerInfo) : Event := ⟨elapsed, some (.timerElapsed info)⟩

/-- The event that a new timer is created with. -/
def creation (owner : ActorId) (period : Nat) (periodic : Bool) : Event :=
  ⟨setup, some (.timerSetup owner period periodic)⟩

/-- What the setup tells the timer. -/
def info (o : Occasion) : Except Failure TimerInfo :=
  match o.event with
  | some ⟨_, some (.timerSetup owner period periodic)⟩ => .ok ⟨o.self, owner, period, periodic⟩
  | _ => .error (.other s!"timer {o.self.name} was created without a setup payload")

/-- End well or with a failed answer. -/
def conclude (memory : Memory) : Answer → Program
  | .ok _ => .finish memory .ok
  | .error failure => .finish memory (.failed failure)

/-- Go on unless the answer is a failure. -/
def onSuccess (memory : Memory) (next : Value → Program) : Answer → Program
  | .ok v => next v
  | .error failure => .finish memory (.failed failure)

/-- Halt the timer that asks. -/
def haltSelf (memory : Memory) : Program :=
  .ask .own (.raise (.ofType .halt)) (conclude memory)

/-- Remember the setup. -/
def remember : Action := fun o =>
  match info o with
  | .ok info => .finish { o.memory with timer := some info } .ok
  | .error failure => .finish o.memory (.failed failure)

/-- Fire if the choice comes up true. -/
def tryLuck : Action := fun o =>
  match o.memory.timer with
  | none => .finish o.memory .ok
  | some info =>
    .ask .own .randomBool <| onSuccess o.memory fun fires =>
      if fires.isTrue then
        .ask .own (.send info.owner (firing info)) <| onSuccess o.memory fun _ =>
          if info.periodic then .finish o.memory .ok else haltSelf o.memory
      else .finish o.memory .ok

/-- Let a sleeper fire. -/
def fallAsleep : Action := fun o =>
  match info o with
  | .ok info => .ask .own (.startSleeper info) (conclude o.memory)
  | .error failure => .finish o.memory (.failed failure)

/-- Keep the sleeper from firing, and halt. -/
def wakeUp : Action := fun o =>
  .ask .own .stopSleeper <| onSuccess o.memory fun _ => haltSelf o.memory

/-- What a sleeper does each time its period is over: it fires, and halts a timer that is not
periodic. A send that fails ends the sleeper. -/
def fire (info : TimerInfo) : Program :=
  .ask .own (.send info.owner (firing info)) <| onSuccess {} fun _ =>
    if info.periodic then .finish {} .ok
    else .ask .own (.send info.timer (.ofType .halt)) (conclude {})

/-- A machine with one state. -/
def machine (typeTag : String) (entry : Action) (bindings : List (EventType × Disposition)) :
    Descriptor :=
  let active : StateDescriptor :=
    { name := "Active", initial := true, base := none, entry := some entry, exit := none, bindings }
  ⟨typeTag, .machine, [active], active, []⟩

/-- The built-in machines. -/
def descriptors : List Descriptor :=
  [machine explored remember
      [(.default, .action tryLuck), (stop, .action fun o => haltSelf o.memory)],
    machine sleeping fallAsleep [(stop, .action wakeUp)]]

end SteeredActors.Timer
