import SteeredActors.Proofs.Controller.Ended
import SteeredActors.Proofs.World.Errands

/-!
# Operations of an ended run

An operation of the runtime looks at the outcome before anything else, or at the scheduling point it
begins with. So once the run has ended it fails, and nothing in the world has changed but the place
of the thread in its own program.
-/

set_option autoImplicit false
set_option relaxedAutoImplicit false

namespace SteeredActors

variable {σ : Type}

/-- A request comes to the runtime: it is made there, or through the context of an action that may
make it and leaves the answer to the runtime. -/
def Request.Operates (w : World σ) (core : Option Core) : Request → Prop
  | .create _ _ _ _ | .send _ _ | .sendAndExecute _ _ | .stopTimer _ | .monitor _ _ =>
    ∀ c ∈ core, c.descriptor.kind = .machine
  | .startTimer _ _ => ∃ c ∈ core, c.descriptor.kind = .machine
  | .assert _ _ => core = none
  | .registerMonitor _ | .randomBool | .randomInt _ | .point _ => True
  | .access object method arguments =>
    (w.objects[object]?.bind fun o => o.operation? w.objects method arguments).isSome
  | _ => False

/-- What an operation fails with once the run has ended. -/
def Request.cancellation (request : Request) : Failure :=
  if request.isAccess then .access .canceled else .runtime .canceled

/-- A service turns a request down, at once or at the scheduling point it begins with. -/
inductive Service.Declines (w : World σ) (failure : Failure) : Service σ → Prop where
  | atOnce : Declines w failure (.now (.error failure) w)
  | atPoint (kind : PointKind) {last : Task}
    (passed : ∀ (w : World σ) t a rest, w.deliverAnswer t a (last :: rest) = w.deliverAnswer t a rest) :
    Declines w failure (.later [.point kind, last] w)

namespace World

variable {w : World σ}

private theorem ensureRunning_of_isOver (ceased : w.isOver = true) :
    w.ensureRunning = .error .canceled := by
  simp [ensureRunning, ceased]

private theorem ensureMachine_of_machine {core : Option Core} {what : String}
    (machine : ∀ c ∈ core, c.descriptor.kind = .machine) : ensureMachine core what = .ok () := by
  cases core with
  | none => rfl
  | some c => simp [ensureMachine, machine c rfl]

private theorem create_of_isOver (ceased : w.isOver = true) (caller : Option Nat)
    (typeTag : String) (name : Option String) (event : Option Event) (execute : Bool) :
    w.create caller typeTag name event execute = .now (.error (.runtime .canceled)) w := by
  simp [create, ensureRunning_of_isOver ceased, refuse, bind, Except.bind]

private theorem serveSend_of_isOver (ceased : w.isOver = true) (caller : Option Nat)
    (target : ActorId) (event : Event) :
    w.serveTasks (w.send caller target event) = .now (.error (.runtime .canceled)) w := by
  simp [send, ensureRunning_of_isOver ceased, serveTasks, refuse, bind, Except.bind]

variable [Strategy σ]

/-- The runtime turns every operation down once the run has ended. -/
theorem declines_serve (ceased : w.isOver = true) (caller : Option Nat) {speaker : Speaker}
    {voice : Voice} {request : Request}
    (operates : request.Operates w ((w.context? speaker voice).map (·.2.2))) :
    (w.serve caller speaker voice request).Declines w request.cancellation := by
  cases request with
  | send target event | stopTimer target =>
    simp only [serve, ensureMachine_of_machine operates, serveSend_of_isOver ceased]
    exact .atOnce
  | sendAndExecute target event =>
    simp [serve, ensureMachine_of_machine operates, sendAndExecute, ensureRunning_of_isOver ceased,
      refuse, bind, Except.bind]
    exact .atOnce
  | create typeTag name event execute =>
    simp only [serve, ensureMachine_of_machine operates, create_of_isOver ceased]
    exact .atOnce
  | startTimer period periodic =>
    obtain ⟨c, asks, machine⟩ := operates
    have allowed : ensureMachine (some c) "start timers" = .ok () :=
      ensureMachine_of_machine (by rintro _ ⟨⟩; exact machine)
    simp only [serve, Option.mem_def.1 asks, allowed, create_of_isOver ceased]
    exact .atOnce
  | monitor typeTag event =>
    simp only [serve, ensureMachine_of_machine operates, ensureRunning_of_isOver ceased, refuse]
    exact .atOnce
  | registerMonitor typeTag =>
    simp only [serve, registerMonitor, ensureRunning_of_isOver ceased, bind, Except.bind,
      serveTasks, refuse]
    exact .atOnce
  | assert holds message =>
    have outside : (w.context? speaker voice).map (·.2.2) = none := operates
    simp only [serve, outside, World.assert, ceased, refuse]
    exact .atOnce
  | randomBool =>
    have ended : w.controller.isOver = true := ceased
    simp only [serve, randomBool, Controller.nextBool_of_isOver ended, refuse]
    exact .atOnce
  | randomInt max =>
    have ended : w.controller.isOver = true := ceased
    simp only [serve, randomInt, Controller.nextInt_of_isOver ended, refuse]
    exact .atOnce
  | point kind => exact .atPoint kind fun _ _ _ _ => rfl
  | access object method arguments =>
    obtain ⟨operation, found⟩ := Option.isSome_iff_exists.1 operates
    simp only [serve, found]
    exact .atPoint _ fun _ _ _ _ => rfl
  | _ => exact absurd operates id

/-- A thread comes to stand at `final`, at once or in one more step of its own, however the world
has changed between. Its own steps change nothing else. -/
inductive Retreats (w : World σ) (t : ThreadId) (final : Thread) : Prop where
  | atOnce (moved : w.stepThread? t = some (w.setThread t final))
  | afterPoint (between : Thread) (moved : w.stepThread? t = some (w.setThread t between))
      (leaves : ∀ v : World σ, v.isOver = true → v.thread? t = some between →
        v.stepThread? t = some (v.setThread t final))

/-- An ended run has no scheduling points. -/
private theorem step_of_point {t : ThreadId} {kind : PointKind} {last : Task} {speaker : Speaker}
    {before outside shared : Bool} {next : Answer → Program} {rest : List Task}
    (passed : ∀ (w : World σ) t a rest,
      w.deliverAnswer t a (last :: rest) = w.deliverAnswer t a rest)
    (ceased : w.isOver = true)
    (found : w.thread? t =
      some ⟨[.point kind, last] ++ .resume speaker before shared next :: rest, outside⟩) :
    w.stepThread? t = some (w.setThread t
      ⟨.perform speaker (next (adaptAnswer shared (.error (.runtime .canceled)))) :: rest,
        before⟩) := by
  have canceled : w.exec t (.point kind) = .answer (.error (.runtime .canceled)) w := by
    simp [exec, ceased, unwind]
  simp only [stepThread?, found, List.cons_append, canceled, List.nil_append, passed, deliverAnswer]

/-- A program that asks for an operation once the run has ended is told that it is canceled. -/
theorem retreats_of_isOver (ceased : w.isOver = true) {t : ThreadId} {outside : Bool}
    {speaker : Speaker} {voice : Voice} {request : Request} {next : Answer → Program}
    {rest : List Task}
    (asks : w.thread? t = some ⟨.perform speaker (.ask voice request next) :: rest, outside⟩)
    (operates : request.Operates w ((w.context? speaker voice).map (·.2.2))) :
    w.Retreats t ⟨.perform speaker (next (.error request.cancellation)) :: rest, outside⟩ := by
  have declines := declines_serve ceased (if outside || voice == .outsider then none
    else w.operation? t) operates
  rcases exec_ask asks speaker voice request next with
    ⟨a, w', served, executed⟩ | ⟨tasks, w', outside', served, executed⟩ <;>
    rw [service] at served <;> rw [served] at declines <;> cases declines
  · exact .atOnce (by simp only [stepThread?, asks, executed, List.cons_append, List.nil_append])
  · next kind last passed =>
    have adapted : adaptAnswer request.isAccess (.error (.runtime .canceled)) =
        .error request.cancellation := by
      simp only [adaptAnswer, Request.cancellation]
    refine .afterPoint
      ⟨[.point kind, last] ++ .resume speaker outside request.isAccess next :: rest, outside'⟩ ?_
      fun v ended stands => adapted ▸ step_of_point passed ended stands
    simp only [stepThread?, asks, executed, w.thread?_setThread asks, setThread_setThread,
      List.cons_append, List.nil_append]

end World

/-- The first outcome is final. A controller keeps it with the decisions, the steps and the turn,
turns everyone down without asking the strategy, releases whoever waits, and a bug carries the
decisions that led to it. In a world whose run has ended every operation that a program asks for
fails as canceled, and the steps of its thread change nothing else. -/
theorem outcome_is_final [Strategy σ] :
    (∀ {start : Controller σ} {calls : List Call}, start.Fresh →
      (start.after calls).isOver = true → start.Final calls) ∧
    ∀ {w : World σ} {t : ThreadId} {outside : Bool} {speaker : Speaker} {voice : Voice}
      {request : Request} {next : Answer → Program} {rest : List Task}, w.isOver = true →
      w.thread? t = some ⟨.perform speaker (.ask voice request next) :: rest, outside⟩ →
      request.Operates w ((w.context? speaker voice).map (·.2.2)) →
      w.Retreats t ⟨.perform speaker (next (.error request.cancellation)) :: rest, outside⟩ :=
  ⟨Controller.final_of_isOver, fun ceased asks operates =>
    World.retreats_of_isOver ceased asks operates⟩

/-- A worker waits for its first turn when the driver reports a bug, with a trace made up. -/
def reporting : List Call :=
  [.register "worker", .waitForTurn 1,
    .reportBug ⟨.assertionViolation, "late", none, [⟨.send, 7⟩]⟩]

/-- The controller after these calls. -/
def reported : Controller ScriptedStrategy :=
  (Controller.exploration (.ofAnswers []) 5).after reporting

/-- Its world, with a test that tosses a coin. -/
def tooLate : World ScriptedStrategy :=
  .new reported ⟨[]⟩ .firstNonDeferred ⟨0, 0⟩
    (.ask .own .randomBool fun _ => .finish {} .ok)

/-- The bug is kept without the trace, and the coin is not tossed any more. -/
theorem outcome_is_final_reporting :
    (Controller.exploration (ScriptedStrategy.ofAnswers []) 5).Final reporting ∧
      reported.outcome = some (.bugFound ⟨.assertionViolation, "late", none, []⟩) ∧
      tooLate.Retreats .driver ⟨[.perform .test (.finish {} .ok)], false⟩ := by
  have asks : tooLate.thread? .driver =
      some ⟨[.perform .test (.ask .own .randomBool fun _ => .finish {} .ok)], false⟩ := rfl
  have ceased : tooLate.isOver = true := rfl
  exact ⟨outcome_is_final.1 (.exploration _ _) rfl, rfl, outcome_is_final.2 ceased asks trivial⟩

end SteeredActors
