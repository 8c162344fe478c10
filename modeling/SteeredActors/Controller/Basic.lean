import SteeredActors.Settings.Basic
import SteeredActors.Strategy.Basic

/-!
# The scheduling controller

The controller takes every nondeterministic decision of a run. Operations register with it, report
whether they have work, and pass scheduling points. While a run is explored one operation holds the
turn: at each point the strategy chooses the next holder among the enabled operations, the decision
is recorded, and everyone else waits. In production nothing is chosen, and an operation waits only
while it has no work. The first outcome is final: it cancels everything that still waits.
-/

set_option autoImplicit false
set_option relaxedAutoImplicit false

namespace SteeredActors

/-- The name of a mode. -/
def Mode.name : Mode → String
  | .production => "Production"
  | .exploration => "Exploration"

/-- What an operation is doing. -/
inductive OperationStatus where
  /-- Has work and may be chosen. -/
  | enabled
  /-- Has no work until something enables it. -/
  | disabled
  /-- Waits for a reply. -/
  | blocked
  | completed
deriving DecidableEq, Repr

/-- The name of a status. -/
def OperationStatus.name : OperationStatus → String
  | .enabled => "Enabled"
  | .disabled => "Disabled"
  | .blocked => "Blocked"
  | .completed => "Completed"

/-- A schedulable thread of control. -/
structure Operation where
  id : Nat
  name : String
  status : OperationStatus
deriving DecidableEq, Repr

/-- The state of a controller whose strategy has states `σ`. -/
structure Controller (σ : Type) where
  mode : Mode
  maxSteps : Nat
  /-- In ascending order of their numbers. -/
  operations : List Operation
  nextId : Nat
  /-- The operation that holds the turn. -/
  scheduled : Nat
  /-- Decisions asked for. -/
  steps : Nat
  /-- Decisions recorded, the newest first. -/
  recorded : List TraceStep
  outcome : Option Outcome
  strategy : Option σ

/-- How a call that may have to wait stands. -/
inductive Passage where
  /-- The run has ended. -/
  | canceled
  /-- The caller may go on. -/
  | passed
  /-- The caller waits. -/
  | waits
deriving DecidableEq, Repr

namespace Controller

/-- The test driver is the first operation of every explored run. -/
def driverOperation : Nat := 0

/-- A controller that lets operations run freely. -/
def production (σ : Type) : Controller σ :=
  ⟨.production, maxWord, [], 1, driverOperation, 0, [], none, none⟩

/-- A controller steered by a strategy, with the test driver holding the turn. -/
def exploration {σ : Type} (strategy : σ) (maxSteps : Nat) : Controller σ :=
  ⟨.exploration, maxSteps, [⟨driverOperation, "test driver", .enabled⟩], 1, driverOperation, 0, [],
    none, some strategy⟩

variable {σ : Type}

/-! ## Reading -/

/-- The recorded decisions in order. -/
def trace (c : Controller σ) : Trace := c.recorded.reverse

/-- Decisions are explored. -/
def explores (c : Controller σ) : Bool := c.mode == .exploration

/-- The run has ended. -/
def isOver (c : Controller σ) : Bool := c.outcome.isSome

/-- The status of an operation, if there is one with this number. -/
def status? (c : Controller σ) (op : Nat) : Option OperationStatus :=
  (c.operations.find? (·.id == op)).map (·.status)

/-- The operations with a status, in ascending order. -/
def withStatus (c : Controller σ) (status : OperationStatus) : List Operation :=
  c.operations.filter (·.status == status)

/-- The numbers of the enabled operations, in ascending order. -/
def enabledIds (c : Controller σ) : List Nat := (c.withStatus .enabled).map (·.id)

/-! ## Operations -/

/-- A new enabled operation; numbers are handed out in order. -/
def register (c : Controller σ) (name : String) : Nat × Controller σ :=
  (c.nextId,
    { c with
      operations := c.operations ++ [⟨c.nextId, name, .enabled⟩]
      nextId := c.nextId + 1 })

/-- Move an operation to a status if it has one of the given ones. -/
def setStatus (c : Controller σ) (op : Nat) (old : List OperationStatus) (new : OperationStatus) :
    Controller σ :=
  { c with
    operations := c.operations.map fun o =>
      if o.id = op ∧ o.status ∈ old then { o with status := new } else o }

/-- The operation has work again. -/
def enable (c : Controller σ) (op : Nat) : Controller σ := c.setStatus op [.disabled] .enabled

/-- The operation has no more work. -/
def disable (c : Controller σ) (op : Nat) : Controller σ := c.setStatus op [.enabled] .disabled

/-- The operation waits for a reply. -/
def block (c : Controller σ) (op : Nat) : Controller σ := c.setStatus op [.enabled] .blocked

/-- The reply arrived. -/
def unblock (c : Controller σ) (op : Nat) : Controller σ := c.setStatus op [.blocked] .enabled

/-! ## Outcomes -/

/-- End the run, unless it has ended. A bug report gets the decisions recorded so far. -/
def finish (c : Controller σ) (outcome : Outcome) : Controller σ :=
  match c.outcome with
  | some _ => c
  | none =>
    match outcome with
    | .bugFound report =>
      { c with outcome := some (.bugFound { report with trace := c.trace }) }
    | other => { c with outcome := some other }

/-- End the run, and tell whether it had not ended before. -/
def terminate (c : Controller σ) (outcome : Outcome) : Bool × Controller σ :=
  (!c.isOver, c.finish outcome)

/-- End the run with a bug, and tell whether it had not ended before. -/
def reportBug (c : Controller σ) (report : BugReport) : Bool × Controller σ :=
  c.terminate (.bugFound report)

/-- End the run because the program left its strategy. -/
def diverge (c : Controller σ) (d : Divergence) : Controller σ := c.finish (.diverged d.message)

/-- The message of a deadlock among blocked operations. -/
def deadlockMessage (blocked : List Operation) : String :=
  let names := ", ".intercalate (blocked.map (·.name))
  s!"Deadlock detected. {names} waiting for a rendezvous reply and no other operation is enabled."

/-- End a run in which nothing is enabled: with a deadlock if an operation waits for a reply. -/
def finishIdle (c : Controller σ) : Controller σ :=
  match c.withStatus .blocked with
  | [] => c.finish .quiescent
  | blocked => c.finish (.bugFound (.new .deadlock (deadlockMessage blocked) none))

/-! ## Decisions -/

/-- Record a decision. -/
def record (c : Controller σ) (kind : PointKind) (chosen : Nat) : Controller σ :=
  { c with recorded := ⟨kind, chosen⟩ :: c.recorded }

/-- Take the answer of the strategy to the question who goes next. -/
def assign (c : Controller σ) (kind : PointKind) (enabled : List Nat)
    (answer : Except Divergence Nat) : Controller σ :=
  match answer with
  | .ok chosen =>
    if enabled.contains chosen then { c.record kind chosen with scheduled := chosen }
    else c.diverge ⟨c.recorded.length, s!"operation {chosen} is not enabled"⟩
  | .error d => c.diverge d

variable [Strategy σ]

/-- Ask who goes next. Without a strategy the first enabled operation does. -/
def askOperation (c : Controller σ) (kind : PointKind) (current : Nat) (enabled : List Nat) :
    Except Divergence Nat × Controller σ :=
  match c.strategy with
  | some s =>
    let (answer, s) := Strategy.nextOperation s kind current enabled
    (answer, { c with strategy := some s })
  | none => (.ok (enabled.head?.getD driverOperation), c)

/-- Hand over the turn at a point that an operation reached, or end the run: if nothing is enabled,
if the bound is passed, or if the strategy gives no possible answer. -/
def advance (c : Controller σ) (current : Nat) (kind : PointKind) : Controller σ :=
  let enabled := c.enabledIds
  if enabled.isEmpty then c.finishIdle
  else
    let c := { c with steps := c.steps + 1 }
    if c.maxSteps < c.steps then c.finish .boundReached
    else
      let (answer, c) := c.askOperation kind current enabled
      c.assign kind enabled answer

/-- Whether an operation that waits may go on: when it holds the turn, or, in production, when it has
work. -/
def passage (c : Controller σ) (op : Nat) : Passage :=
  if c.isOver then .canceled
  else
    match c.mode with
    | .exploration => if c.scheduled = op then .passed else .waits
    | .production => if c.status? op = some .disabled then .waits else .passed

/-- Pass a scheduling point on behalf of an operation. -/
def schedule (c : Controller σ) (op : Nat) (kind : PointKind) : Passage × Controller σ :=
  if c.isOver then (.canceled, c)
  else
    match c.mode with
    | .production => (c.passage op, c)
    | .exploration =>
      if (c.status? op).isNone then (.passed, c)
      else
        let c := c.advance op kind
        (c.passage op, c)

/-- Wait for the first turn of a new operation. -/
def waitForTurn (c : Controller σ) (op : Nat) : Passage :=
  if c.isOver then .canceled
  else
    match c.mode with
    | .production => .passed
    | .exploration => c.passage op

/-- An operation is done; if it held the turn, the turn is handed over. -/
def complete (c : Controller σ) (op : Nat) (kind : PointKind) : Controller σ :=
  let c := c.setStatus op [.enabled, .disabled, .blocked] .completed
  if c.explores && !c.isOver && c.scheduled == op then c.advance op kind else c

/-- Ask for the value of a choice and record it. There is no value once the run has ended. -/
def choose (c : Controller σ) (kind : PointKind) (ask : σ → Answered σ Nat) :
    Option Nat × Controller σ :=
  if c.isOver then (none, c)
  else
    let c := { c with steps := c.steps + 1 }
    if c.maxSteps < c.steps then (none, c.finish .boundReached)
    else
      match c.strategy with
      | none => (none, c.diverge ⟨c.recorded.length, "no strategy installed"⟩)
      | some s =>
        match ask s with
        | (.ok value, s) => (some value, { c with strategy := some s }.record kind value)
        | (.error d, s) => (none, { c with strategy := some s }.diverge d)

/-- The question for a truth value, answered by a number. -/
def askBool (s : σ) : Answered σ Nat :=
  match Strategy.nextBool s with
  | (.ok b, s) => (.ok b.toNat, s)
  | (.error d, s) => (.error d, s)

/-- A nondeterministic truth value. In production any value may come up; this is one of them. -/
def nextBool (c : Controller σ) : Option Bool × Controller σ :=
  match c.mode with
  | .production => (if c.isOver then none else some false, c)
  | .exploration =>
    let (value, c) := c.choose .boolChoice askBool
    (value.map (· != 0), c)

/-- A nondeterministic number below a bound. In production any number may come up; this is one of
them. -/
def nextInt (c : Controller σ) (max : Nat) : Option Nat × Controller σ :=
  match c.mode with
  | .production => (if c.isOver then none else some 0, c)
  | .exploration => c.choose .intChoice (Strategy.nextInt · max)

/-- Whether a caller that waits until nothing is enabled may go on. -/
def quiescence (c : Controller σ) : Passage :=
  if c.isOver then .canceled else if c.enabledIds.isEmpty then .passed else .waits

/-- Give the strategy away, for the next iteration. -/
def takeStrategy (c : Controller σ) : Option σ × Controller σ :=
  (c.strategy, { c with strategy := none })

/-! ## Diagnostic form -/

/-- The diagnostic form of an operation. -/
def describeOperation (o : Operation) : String :=
  s!"{o.id}: Operation \x7b name: {Text.Quoted.encode o.name}, status: {o.status.name} \x7d"

/-- The diagnostic form of a controller. -/
def describe (c : Controller σ) : String :=
  let operations := ", ".intercalate (c.operations.map describeOperation)
  let outcome := match c.outcome with
    | some outcome => s!"Some({outcome.describe})"
    | none => "None"
  s!"SchedulingController \x7b mode: {c.mode.name}, operations: \x7b{operations}\x7d, " ++
    s!"scheduled: {c.scheduled}, steps: {c.steps}, outcome: {outcome} \x7d"

end Controller

end SteeredActors
