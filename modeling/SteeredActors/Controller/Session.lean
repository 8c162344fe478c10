import SteeredActors.Controller.Basic

/-!
# Calls and waiting callers

A session is a controller together with the calls that wait in it. Every call is made as if by a
thread of its own: it is answered at once or waits, and after each call those that can go on do so,
in the order in which they began to wait.
-/

set_option autoImplicit false
set_option relaxedAutoImplicit false

namespace SteeredActors

/-- A call that may change a controller. -/
inductive Call where
  | register (name : String)
  | enable (op : Nat)
  | disable (op : Nat)
  | block (op : Nat)
  | unblock (op : Nat)
  | complete (op : Nat) (kind : PointKind)
  | schedule (op : Nat) (kind : PointKind)
  | waitForTurn (op : Nat)
  | nextBool
  | nextInt (max : Nat)
  | reportBug (report : BugReport)
  | terminate (outcome : Outcome)
  | takeStrategy
deriving Repr

/-- What a call answers. -/
inductive Reply where
  | done
  /-- The number of a new operation. -/
  | registered (op : Nat)
  /-- How a call that may have to wait stands. -/
  | passage (p : Passage)
  /-- The value of a choice, if the run goes on. -/
  | truth (b : Option Bool)
  /-- The value of a choice, if the run goes on. -/
  | number (n : Option Nat)
  /-- Whether this call ended the run. -/
  | ended (b : Bool)
  /-- The name of the strategy given away. -/
  | strategy (name : Option String)
deriving DecidableEq, Repr

namespace Controller

variable {σ : Type} [Strategy σ]

/-- Answer a call. -/
def perform (c : Controller σ) : Call → Reply × Controller σ
  | .register name =>
    let (op, c) := c.register name
    (.registered op, c)
  | .enable op => (.done, c.enable op)
  | .disable op => (.done, c.disable op)
  | .block op => (.done, c.block op)
  | .unblock op => (.done, c.unblock op)
  | .complete op kind => (.done, c.complete op kind)
  | .schedule op kind =>
    let (p, c) := c.schedule op kind
    (.passage p, c)
  | .waitForTurn op => (.passage (c.waitForTurn op), c)
  | .nextBool =>
    let (b, c) := c.nextBool
    (.truth b, c)
  | .nextInt max =>
    let (n, c) := c.nextInt max
    (.number n, c)
  | .reportBug report =>
    let (b, c) := c.reportBug report
    (.ended b, c)
  | .terminate outcome =>
    let (b, c) := c.terminate outcome
    (.ended b, c)
  | .takeStrategy =>
    let (s, c) := c.takeStrategy
    (.strategy (s.map Strategy.name), c)

end Controller

/-- A call that waits. -/
inductive Waiting where
  | schedule (op : Nat)
  | waitForTurn (op : Nat)
deriving DecidableEq, Repr

namespace Waiting

/-- The operation on whose behalf a call waits. -/
def operation : Waiting → Nat
  | .schedule op | .waitForTurn op => op

/-- The call that has to wait if it is answered so. -/
def ofReply? : Call → Reply → Option Waiting
  | .schedule op _, .passage .waits => some (.schedule op)
  | .waitForTurn op, .passage .waits => some (.waitForTurn op)
  | _, _ => none

end Waiting

/-- A controller and the calls that wait in it, the longest wait first. -/
structure Session (σ : Type) where
  controller : Controller σ
  waiting : List Waiting

namespace Session

variable {σ : Type} [Strategy σ]

/-- No call waits yet. -/
def ofController (controller : Controller σ) : Session σ := ⟨controller, []⟩

/-- Make a call. The answer comes with the calls that go on after it. -/
def perform (s : Session σ) (call : Call) : (Reply × List (Waiting × Passage)) × Session σ :=
  let (reply, c) := s.controller.perform call
  let waiting := s.waiting ++ (Waiting.ofReply? call reply).toList
  let stands (w : Waiting) : Passage := c.passage w.operation
  let resumed := (waiting.filter (stands · != .waits)).map fun w => (w, stands w)
  ((reply, resumed), ⟨c, waiting.filter (stands · == .waits)⟩)

end Session

end SteeredActors
