import SteeredActors.Program

/-!
# Scripts

A small language in which actions and tests are written: expressions over values and over what can
be asked of a run, and instructions that request something of it or steer the script itself.
-/

set_option autoImplicit false
set_option relaxedAutoImplicit false

namespace SteeredActors.Script

/-- An expression. -/
inductive Expr where
  | value (v : Value)
  | var (x : String)
  | list (items : List Expr)
  | nth (e i : Expr)
  | add (a b : Expr)
  | eq (a b : Expr)
  | lt (a b : Expr)
  | not (e : Expr)
  /-- A named identity that no run has handed out. -/
  | ghost (name : String) (generation : Nat)
  | status (e : Expr)
  | actors
  | monitors
  | monitorState (typeTag : String)
  | steps
  | isOver
  | explores
  /-- The identity of the actor; `null` outside an action, like the four below. -/
  | self
  | state
  /-- The type of the event that led to the action. -/
  | event
  /-- The value that the event carries. -/
  | payload
  /-- What a timer told its owner. -/
  | timerInfo
deriving Repr, Inhabited

/-- An event to be made: its type and what it is to carry. -/
structure EventExpr where
  type : EventType
  payload : Option Expr
deriving Repr

/-- An operation on a shared object, with the expressions of its arguments. -/
structure SharedCall where
  method : String
  arguments : List Expr
deriving Repr

/-- An instruction. Those that answer something name the variable that it is kept in. -/
inductive Instruction where
  | log (items : List Expr)
  | set (x : String) (e : Expr)
  | choose (condition : Expr) (yes no : List Instruction)
  | times (n : Nat) (body : List Instruction)
  /-- Write a failure of the body to the journal and go on, unless the run has ended. -/
  | attempt (body : List Instruction)
  /-- Drop a failure of the body. -/
  | swallow (body : List Instruction)
  | fail (e : Expr)
  | failWithin (context text : Expr)
  /-- Panic with a text. -/
  | panic (e : Expr)
  /-- Panic with something that is no text. -/
  | panicSilently
  /-- Fail with a refusal that was never made. -/
  | feign (refusal : Refusal)
  | send (target : Expr) (event : EventExpr)
  | sendAndExecute (x : String) (target : Expr) (event : EventExpr)
  | create (x : String) (typeTag : String) (name : Option String) (event : Option EventExpr)
      (execute : Bool)
  | raise (event : EventExpr)
  | goto (state : String)
  | push (state : String)
  | pop
  | startTimer (x : String) (period : Nat) (periodic : Bool)
  | stopTimer (e : Expr)
  | assert (e : Expr) (message : String)
  | randomBool (x : String)
  | randomInt (x : String) (max : Nat)
  | monitor (typeTag : String) (event : EventExpr)
  | registerMonitor (typeTag : String)
  | point (kind : PointKind)
  | waitForQuiescence
  | shutdown
  | terminate (outcome : Outcome)
  | reportBug (kind : BugKind) (message : String)
  /-- Run the body on a thread that the controller does not know. -/
  | foreign (body : List Instruction)
  | awaitHalted (e : Expr)
  | newCounter (x : String) (n : Int64)
  | newDictionary (x : String)
  | newRegister (x : String) (e : Expr)
  | access (x : String) (e : Expr) (call : SharedCall)
deriving Repr, Inhabited

/-- The message of an assertion that has none of its own. -/
def assertionMessage : String := "Detected an assertion failure."

end SteeredActors.Script

namespace SteeredActors

/-- Instructions that are carried out in order, up to the first failure. -/
abbrev Script := List Script.Instruction

end SteeredActors
