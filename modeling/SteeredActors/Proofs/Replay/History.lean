import SteeredActors.Proofs.Controller.Accounting
import SteeredActors.Proofs.Replay.Reproduction

/-!
# Histories of a controller

A history lists, call by call, what a controller answered, who had to wait or could go on, and how
the controller stood then. Made again to a controller that replays the recorded trace, the same calls
give the same history, unless the run left its strategy: the replay has used exactly as many steps
as there are decisions, in every branch in which a decision is taken or the run ends.
-/

set_option autoImplicit false
set_option relaxedAutoImplicit false

namespace SteeredActors

variable {σ : Type}

/-! ## Histories -/

namespace Session

/-- What a caller learns from one call, and how everything stands after it. -/
structure Entry where
  reply : Reply
  /-- The calls that had waited and went on after this one, or were cancelled by it. -/
  resumed : List (Waiting × Passage)
  waiting : List Waiting
  operations : List Operation
  nextId : Nat
  scheduled : Nat
  steps : Nat
  trace : Trace
  outcome : Option Outcome
deriving DecidableEq

variable [Strategy σ]

/-- The entry of a call. -/
def entry (s : Session σ) (call : Call) : Entry :=
  let ((reply, resumed), t) := s.perform call
  { reply, resumed, waiting := t.waiting
    operations := t.controller.operations
    nextId := t.controller.nextId
    scheduled := t.controller.scheduled
    steps := t.controller.steps
    trace := t.controller.trace
    outcome := t.controller.outcome }

/-- One entry for each call. -/
def history (s : Session σ) : List Call → List Entry
  | [] => []
  | call :: calls => s.entry call :: history (s.perform call).2 calls

end Session

/-! ## Calls to a replayed controller -/

@[simp] private theorem Outcome.rename_refl (outcome : Outcome) :
    outcome.rename (.refl Nat) = outcome := by
  cases outcome with
  | bugFound report =>
    have same : report.actor.map (ActorId.rename (.refl Nat)) = report.actor := by
      cases report.actor <;> rfl
    simp only [Outcome.rename, BugReport.rename, same]
  | quiescent | boundReached | diverged | stopped => rfl

namespace Controller

variable [Strategy σ]

/-- A call to the replayed controller is answered in the same way. -/
theorem perform_replayed {P : σ → Prop} (fair : Strategy.Fair P) {T : Trace} {c : Controller σ}
    (within : ∀ s ∈ c.strategy, P s) {call : Call} (kept : call ≠ .takeStrategy)
    (along : (c.perform call).2.Along T) :
    (c.replayed (.refl Nat) T).perform call =
      ((c.perform call).1, (c.perform call).2.replayed (.refl Nat) T) := by
  cases call with
  | register | enable | disable | block | unblock => rfl
  | complete op kind => exact congrArg (Reply.done, ·) (complete_replayed op kind along)
  | schedule op kind =>
    simp only [perform, schedule_replayed (π := .refl Nat) op kind along]
  | waitForTurn op => simp only [perform, waitForTurn_replayed]
  | nextBool => simp only [perform, nextBool_replayed (π := .refl Nat) along]
  | nextInt max =>
    have bounded : ∀ s ∈ c.strategy, ∀ n, 0 < max → (Strategy.nextInt s max).1 = .ok n → n < max :=
      fun s holds n => fair.bounded s max n (within s holds)
    simp only [perform, nextInt_replayed (π := .refl Nat) bounded along]
  | reportBug report =>
    have ended := terminate_replayed (.refl Nat) T c (.bugFound report)
    rw [Outcome.rename_refl] at ended
    simp only [perform, reportBug, ended]
  | terminate outcome =>
    have ended := terminate_replayed (.refl Nat) T c outcome
    rw [Outcome.rename_refl] at ended
    simp only [perform, ended]
  | takeStrategy => exact absurd rfl kept

end Controller

/-! ## Replaying a history -/

namespace Session

/-- The session whose controller replays the trace; the same calls wait in it. -/
private def replayed (T : Trace) (s : Session σ) : Session ReplayStrategy :=
  ⟨s.controller.replayed (.refl Nat) T, s.waiting⟩

variable [Strategy σ]

private theorem perform_replayed {P : σ → Prop} (fair : Strategy.Fair P) {T : Trace}
    {s : Session σ} (within : ∀ t ∈ s.controller.strategy, P t) {call : Call}
    (kept : call ≠ .takeStrategy) (along : (s.perform call).2.controller.Along T) :
    (s.replayed T).perform call = ((s.perform call).1, (s.perform call).2.replayed T) := by
  have answered := Controller.perform_replayed fair within kept along
  simp only [Session.perform, replayed, answered, Controller.passage_replayed]

private theorem entry_replayed {P : σ → Prop} (fair : Strategy.Fair P) {T : Trace}
    {s : Session σ} (within : ∀ t ∈ s.controller.strategy, P t) {call : Call}
    (kept : call ≠ .takeStrategy) (along : (s.perform call).2.controller.Along T) :
    (s.replayed T).entry call = s.entry call := by
  have outcome : ((s.perform call).2.controller.replayed (.refl Nat) T).outcome =
      (s.perform call).2.controller.outcome := by
    simp only [Controller.replayed]
    cases (s.perform call).2.controller.outcome <;> simp
  simp only [entry, perform_replayed fair within kept along]
  simp only [replayed, outcome]
  rfl

/-- The invariant is that the replay stands at the same decision: what it answers next is what was
recorded next. -/
private theorem history_replayed {P : σ → Prop} (fair : Strategy.Fair P) {T : Trace}
    {s : Session σ} (within : ∀ t ∈ s.controller.strategy, P t) {calls : List Call}
    (kept : .takeStrategy ∉ calls) (along : (s.controller.after calls).Along T) :
    (s.replayed T).history calls = s.history calls := by
  induction calls generalizing s with
  | nil => rfl
  | cons call calls ih =>
    obtain ⟨first, rest⟩ := not_or.1 (List.mem_cons.not.1 kept)
    have steers := Controller.Steers.perform s.controller (Ne.symm first)
    have along' : (s.perform call).2.controller.Along T :=
      .before (Controller.Steers.after (s.perform call).2.controller rest) along
    have within' := steers.fair P fair within
    have later : ((s.perform call).2.replayed T).history calls = (s.perform call).2.history calls :=
      ih within' rest along
    simp only [history, entry_replayed fair within (Ne.symm first) along',
      perform_replayed fair within (Ne.symm first) along', later]

/-- The calls of a run, made again to a controller that replays the trace of that run, give the same
history: the same answers, the same waiting callers, statuses, turns, steps, decisions and
outcome after every call. -/
theorem history_of_replay {P : σ → Prop} (fair : Strategy.Fair P) {strategy : σ}
    (start : P strategy) (maxSteps : Nat) {calls : List Call} (kept : .takeStrategy ∉ calls)
    (follows : ∀ reason, ((Controller.exploration strategy maxSteps).after calls).outcome ≠
      some (.diverged reason)) :
    (ofController (.exploration
      (ReplayStrategy.ofTrace ((Controller.exploration strategy maxSteps).after calls).trace)
      maxSteps)).history calls =
      (ofController (.exploration strategy maxSteps)).history calls :=
  history_replayed fair (s := ofController (.exploration strategy maxSteps))
    (by rintro _ ⟨⟩; exact start) kept ⟨List.prefix_rfl, follows⟩

/-- Two workers, a coin and a die; the driver asks while it does not hold the turn, and waits for it
until the run is stopped. -/
def gambling : List Call :=
  [.register "a", .register "b", .waitForTurn 2, .schedule 0 .send, .nextBool, .block 1,
    .nextInt 6, .schedule 2 .yield, .unblock 1, .complete 1 .yield, .schedule 0 .rendezvous,
    .terminate .stopped, .nextBool]

/-- A random run of them. -/
def gambled : Controller AnyStrategy :=
  (Controller.exploration (.random (.ofSeed 1)) 50).after gambling

/-- The run is stopped after five decisions, and its replay has the same history. -/
theorem history_of_replay_gambling :
    gambled.outcome = some .stopped ∧ gambled.trace.length = 5 ∧
      (ofController (.exploration (ReplayStrategy.ofTrace gambled.trace) 50)).history gambling =
        (ofController (.exploration (AnyStrategy.random (.ofSeed 1)) 50)).history gambling := by
  have stopped : gambled.outcome = some .stopped := by decide +kernel
  have start : AnyStrategy.Unscripted (.random (.ofSeed 1)) := trivial
  refine ⟨stopped, by decide +kernel, ?_⟩
  exact history_of_replay AnyStrategy.fair_unscripted start 50 (by simp [gambling]) fun reason => by
    rw [← gambled, stopped]
    simp

end Session

end SteeredActors
