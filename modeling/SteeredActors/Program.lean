import SteeredActors.Outcome
import SteeredActors.SharedObject

/-!
# Programs

A program is what an action does: a tree of requests to the surroundings, each followed by one
continuation for every answer, with an ending at every leaf. A program computes by itself and sees
the world only through answers, so the same answers always lead to the same requests.
-/

set_option autoImplicit false
set_option relaxedAutoImplicit false

namespace SteeredActors

/-- The private data of an actor. -/
structure Memory where
  bindings : List (String × Value) := []
  /-- What a timer was set up with. -/
  timer : Option TimerInfo := none
deriving Repr, Inhabited

namespace Memory

/-- The value of a variable; `null` if it was never set. -/
def get (m : Memory) (x : String) : Value := ((m.bindings.find? (·.1 == x)).map (·.2)).getD .null

/-- Set a variable. -/
def set (m : Memory) (x : String) (v : Value) : Memory :=
  { m with bindings := (x, v) :: m.bindings.filter (·.1 != x) }

end Memory

/-- What a program may ask of its surroundings. -/
inductive Request where
  /-- Write a line to the journal. -/
  | journal (text : String)
  /-- The text of a value. -/
  | render (v : Value)
  /-- The sum of two values. -/
  | add (a b : Value)
  | send (target : ActorId) (event : Event)
  /-- Send, and wait until the target has handled the event and come to rest. -/
  | sendAndExecute (target : ActorId) (event : Event)
  /-- Create an actor, by name if there is one; `execute` waits until it comes to rest. -/
  | create (typeTag : String) (name : Option String) (event : Option Event) (execute : Bool)
  | raise (event : Event)
  | goto (state : String)
  | push (state : String)
  | pop
  | startTimer (period : Nat) (periodic : Bool)
  | stopTimer (timer : ActorId)
  | assert (holds : Bool) (message : String)
  | randomBool
  | randomInt (max : Nat)
  /-- Hand an event to a monitor. -/
  | monitor (typeTag : String) (event : Event)
  | registerMonitor (typeTag : String)
  /-- Pass a scheduling point. -/
  | point (kind : PointKind)
  | waitForQuiescence
  | shutdown
  | terminate (outcome : Outcome)
  | reportBug (kind : BugKind) (message : String)
  | awaitHalted (id : ActorId)
  | newObject (object : SharedObject)
  /-- Apply the method with this name to a shared object. -/
  | access (object : Nat) (method : String) (arguments : List Value)
  /-- The status of an actor. -/
  | status (id : ActorId)
  /-- All actors in order. -/
  | actors
  /-- All monitors in order of registration. -/
  | monitors
  /-- The current state of a monitor. -/
  | monitorState (typeTag : String)
  /-- The number of decisions asked for. -/
  | steps
  /-- Whether the run has ended. -/
  | isOver
  /-- Whether decisions are explored. -/
  | explores
  /-- Let a timer fire after its period. -/
  | startSleeper (info : TimerInfo)
  /-- Keep the timer that asks from firing again. -/
  | stopSleeper
deriving Repr

/-- What the surroundings answer. -/
abbrev Answer := Except Failure Value

/-- On whose behalf a request is made. -/
inductive Voice where
  /-- The action or the test that is running. -/
  | own
  /-- A thread that is neither an actor nor known to the controller. -/
  | outsider
deriving DecidableEq, Repr

/-- How an action ends. -/
inductive Ending where
  | ok
  | failed (failure : Failure)
  /-- A panic, with its message if it has one. -/
  | panicked (message : Option String)
deriving DecidableEq, Repr

/-- The text of an ending that is no success. -/
def Ending.panicText (message : Option String) : String := message.getD "panic"

/-- A tree of requests and answers. -/
inductive Program where
  | finish (memory : Memory) (ending : Ending)
  | ask (voice : Voice) (request : Request) (next : Answer → Program)

/-- What an action is started with. -/
structure Occasion where
  self : ActorId
  /-- The current state. -/
  state : String
  /-- The event that led to the action. -/
  event : Option Event
  memory : Memory

/-- An entry, exit, transition or event action. -/
abbrev Action := Occasion → Program

end SteeredActors
