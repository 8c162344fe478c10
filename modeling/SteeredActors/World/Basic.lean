import SteeredActors.World.Task

/-!
# Worlds

The whole state of a run: the controller, the actors and monitors with their stacks and queues, the
rendezvous that are waited for, the shared objects, what was observed, and what every thread still
has to do. What was observed is kept with the newest first, and nothing is observed any more once
the run has ended.
-/

set_option autoImplicit false
set_option relaxedAutoImplicit false

namespace SteeredActors

/-- The interpreter of an actor or a monitor. -/
structure Core where
  id : ActorId
  descriptor : Descriptor
  /-- The top first. -/
  stack : List ActiveState
  /-- What the last action asked for. -/
  raised : Option Demand
  memory : Memory
  halted : Bool

namespace Core

/-- An interpreter that has not started. -/
def new (id : ActorId) (descriptor : Descriptor) : Core := ⟨id, descriptor, [], none, {}, false⟩

/-- How an interpreter is called in messages. -/
def label (c : Core) : String := s!"{c.descriptor.kind.name} '{c.id.name}'"

/-- How an interpreter is called in the report of a failed action. -/
def subject (c : Core) : String :=
  match c.descriptor.kind with
  | .machine => s!"machine '{c.id.name}'"
  | .monitor => s!"monitor '{c.id.name}'"

/-- The name of the current state; empty without one. -/
def stateName (c : Core) : String :=
  match c.stack with
  | top :: _ => top.name
  | [] => ""

end Core

/-- An actor with its thread. -/
structure Actor where
  core : Core
  mailbox : Mailbox
  /-- Its number with the controller. -/
  operation : Nat
  /-- The event it was created with, until it starts. -/
  creationEvent : Option Event
  /-- The rendezvous of its creation, until it starts. -/
  creationRendezvous : Option Nat
  /-- Rendezvous whose events it has handled since it was last idle, with what they will be told. -/
  pending : List (Nat × Bool)
  thread : Thread

/-- How far the registration of a monitor has come. -/
inductive Stage where
  /-- Its first actions run, and the list of monitors is locked. -/
  | starting
  | listed
  /-- It failed to start. -/
  | dropped
deriving DecidableEq, Repr

/-- A monitor. -/
structure Monitor where
  core : Core
  subscriptions : List EventType
  stage : Stage
  /-- An event is being delivered. -/
  busy : Bool

/-- A reply that is waited for. It is given once. -/
structure Rendezvous where
  /-- The operation to be unblocked by the reply. -/
  waiter : Option Nat
  reply : Option Bool
deriving DecidableEq, Repr

/-- A thread that fires a timer each time its period is over. -/
structure Sleeper where
  info : TimerInfo
  /-- When it fires next. -/
  due : Nat
  stopped : Bool
  thread : Thread

/-- The test with its thread. -/
structure Test where
  memory : Memory
  /-- How it ended, once it has. -/
  ending : Option Ending
  thread : Thread

/-- A line of the journal. -/
structure JournalLine where
  who : String
  text : String
deriving DecidableEq, Repr

/-- What happened to an identity. -/
inductive LifecycleEvent where
  | created (id : ActorId)
  | destroyed (id : ActorId)
deriving DecidableEq, Repr

/-- The state of a run steered by a strategy with states `σ`. -/
structure World (σ : Type) where
  controller : Controller σ
  registry : Registry
  policy : DequeuePolicy
  ids : Allocator
  test : Test
  /-- In order of creation. -/
  actors : List Actor
  /-- In order of registration. -/
  monitors : List Monitor
  rendezvous : List Rendezvous
  objects : List SharedObject
  sleepers : List Sleeper
  /-- Milliseconds that have passed for those who sleep. -/
  clock : Nat
  /-- The newest first. -/
  journal : List JournalLine
  /-- The newest first. -/
  lifecycle : List LifecycleEvent

namespace World

variable {σ : Type}

/-- A world in which nothing has happened, with a test to be run. -/
def new (controller : Controller σ) (registry : Registry) (policy : DequeuePolicy)
    (ids : Allocator) (test : Program) : World σ :=
  { controller, registry, policy, ids,
    test := ⟨{}, none, ⟨[.perform .test test], false⟩⟩,
    actors := [], monitors := [], rendezvous := [], objects := [], sleepers := [], clock := 0,
    journal := [], lifecycle := [] }

/-! ## Observation -/

/-- The run has ended. -/
def isOver (w : World σ) : Bool := w.controller.isOver

/-- Decisions are explored. -/
def explores (w : World σ) : Bool := w.controller.explores

/-- Write a line to the journal. -/
def note (w : World σ) (who text : String) : World σ :=
  if w.isOver then w else { w with journal := ⟨who, text⟩ :: w.journal }

/-- Tell observers what happened to an identity. -/
def observe (w : World σ) (event : LifecycleEvent) : World σ :=
  if w.isOver then w else { w with lifecycle := event :: w.lifecycle }

/-- End the run with a bug, unless it has ended. -/
def report (w : World σ) (report : BugReport) : World σ :=
  { w with controller := (w.controller.reportBug report).2 }

/-! ## Parts -/

/-- Change an actor. -/
def modifyActor (w : World σ) (i : Nat) (f : Actor → Actor) : World σ :=
  { w with actors := w.actors.modify i f }

/-- Change a monitor. -/
def modifyMonitor (w : World σ) (m : Nat) (f : Monitor → Monitor) : World σ :=
  { w with monitors := w.monitors.modify m f }

/-- Change a sleeper. -/
def modifySleeper (w : World σ) (j : Nat) (f : Sleeper → Sleeper) : World σ :=
  { w with sleepers := w.sleepers.modify j f }

/-- An interpreter. -/
def core? (w : World σ) : Subject → Option Core
  | .actor i => w.actors[i]?.map (·.core)
  | .monitor m => w.monitors[m]?.map (·.core)

/-- Change an interpreter. -/
def modifyCore (w : World σ) (c : Subject) (f : Core → Core) : World σ :=
  match c with
  | .actor i => w.modifyActor i fun a => { a with core := f a.core }
  | .monitor m => w.modifyMonitor m fun a => { a with core := f a.core }

/-- A thread. -/
def thread? (w : World σ) : ThreadId → Option Thread
  | .driver => some w.test.thread
  | .actor i => w.actors[i]?.map (·.thread)
  | .sleeper j => w.sleepers[j]?.map (·.thread)

/-- Change a thread. -/
def setThread (w : World σ) (t : ThreadId) (thread : Thread) : World σ :=
  match t with
  | .driver => { w with test := { w.test with thread } }
  | .actor i => w.modifyActor i fun a => { a with thread }
  | .sleeper j => w.modifySleeper j fun s => { s with thread }

/-- The position of the actor with an identity. -/
def actor? (w : World σ) (id : ActorId) : Option Nat :=
  w.actors.findIdx? fun a => a.core.id.same id

/-- The number of a thread with the controller. In production the test has none. -/
def operation? (w : World σ) : ThreadId → Option Nat
  | .driver => if w.explores then some Controller.driverOperation else none
  | .actor i => w.actors[i]?.map (·.operation)
  | .sleeper _ => none

/-- The number with the controller of whoever runs in a thread. -/
def caller? (w : World σ) (t : ThreadId) : Option Nat :=
  match w.thread? t with
  | some thread => if thread.outside then none else w.operation? t
  | none => none

/-! ## Rendezvous -/

/-- Give the reply of a rendezvous, if it has none yet, and unblock whoever waits for it. -/
def reply (w : World σ) (r : Nat) (handled : Bool) : World σ :=
  match w.rendezvous[r]? with
  | some ⟨waiter, none⟩ =>
    let w := { w with rendezvous := w.rendezvous.set r ⟨waiter, some handled⟩ }
    match waiter with
    | some op => { w with controller := w.controller.unblock op }
    | none => w
  | _ => w

/-- Give the same reply to several rendezvous. -/
def replyAll (w : World σ) (rs : List Nat) (handled : Bool) : World σ :=
  rs.foldl (fun w r => w.reply r handled) w

/-- Envelopes are discarded; nothing has handled their events. -/
def discard (w : World σ) (envelopes : List Envelope) : World σ :=
  w.replyAll (envelopes.filterMap (·.rendezvous)) false

/-- A new rendezvous. When decisions are explored, whoever waits for it is unblocked by the reply. -/
def openRendezvous (w : World σ) (caller : Option Nat) : Nat × World σ :=
  let waiter := if w.explores then caller else none
  (w.rendezvous.length, { w with rendezvous := w.rendezvous ++ [⟨waiter, none⟩] })

/-- Whoever waits for a rendezvous gets no turn meanwhile. -/
def blockCaller (w : World σ) (caller : Option Nat) : World σ :=
  match caller with
  | some op => if w.explores then { w with controller := w.controller.block op } else w
  | none => w

/-- An envelope arrives at an actor. -/
def enqueue (w : World σ) (i : Nat) (envelope : Envelope) : World σ :=
  match w.actors[i]? with
  | none => w
  | some a =>
    let (arrival, mailbox) := a.mailbox.enqueue envelope
    let w := w.modifyActor i fun a => { a with mailbox }
    match arrival with
    | .dropped => w.discard [envelope]
    | .queued => w
    | .woke => { w with controller := w.controller.enable a.operation }

/-- Empty the mailbox of an actor and reply to everyone who waits for it that nothing was handled. -/
def abandon (w : World σ) (i : Nat) : World σ :=
  match w.actors[i]? with
  | none => w
  | some a =>
    let (dropped, mailbox) := a.mailbox.halt
    let w := w.modifyActor i fun a =>
      { a with mailbox, creationRendezvous := none, pending := [] }
    ((w.discard dropped).replyAll a.creationRendezvous.toList false).replyAll
      (a.pending.map (·.1)) false

/-- Halt an actor or a monitor. -/
def halt (w : World σ) (c : Subject) : World σ :=
  match w.core? c with
  | none => w
  | some core =>
    if core.halted then w
    else
      let w := w.modifyCore c fun core => { core with halted := true, stack := [], raised := none }
      let w := match c with
        | .actor i => w.abandon i
        | .monitor _ => w
      w.observe (.destroyed core.id)

/-! ## Monitors -/

/-- A monitor is being registered, and the list cannot be read. -/
def monitorsLocked (w : World σ) : Bool := w.monitors.any (·.stage == .starting)

/-- The position of the registered monitor of a type. -/
def monitor? (w : World σ) (typeTag : String) : Option Nat :=
  w.monitors.findIdx? fun m => m.stage == .listed && m.core.descriptor.typeTag == typeTag

/-- The positions of the registered monitors that observe events of a type. -/
def observers (w : World σ) (e : EventType) : List Nat :=
  (w.monitors.zipIdx.filter fun (m, _) => m.stage == .listed && m.subscriptions.contains e).map (·.2)

/-! ## Reports -/

/-- A failed assertion: the refusal to unwind with, and the world in which it was reported. -/
def failAssertion (w : World σ) (actor : Option ActorId) (message : String) : Refusal × World σ :=
  (.assertionFailure message, w.report (.assertion message actor))

/-- The report of a failed action. -/
def faultReport (c : Core) (text : String) : BugReport :=
  .new .actionFault
    (s!"Exception '{text}' was thrown in {c.subject}, state '{c.stateName}'. " ++
      "The stack trace is:")
    (some c.id)

/-- The report of a failed test. -/
def testFaultReport (text : String) : BugReport :=
  .new .actionFault s!"Exception '{text}' was thrown in the test driver." none

/-- The report of an event that no state handles. -/
def unhandledReport (c : Core) (e : EventType) : BugReport :=
  .new .unhandledEvent s!"{c.label} received event '{e.name}' that cannot be handled." (some c.id)

end World

end SteeredActors
