import SteeredActors.Controller.Session
import SteeredActors.Proofs.Controller.Steering
import SteeredActors.Strategy.Scripted
import Mathlib.Data.List.Range

/-!
# Turns, decisions and steps

Decisions are recorded at three places: at scheduling points, when the holder of the turn is done,
and when a value is chosen. However the calls of a controller are mixed, the turn is with the
operation chosen last, every chosen operation was enabled, and as long as the run goes on one step is
counted for each decision. The bound ends a run exactly when one decision more is asked for.
-/

set_option autoImplicit false
set_option relaxedAutoImplicit false

namespace SteeredActors

variable {σ : Type}

/-- A point that a call names is one at which an operation is chosen and not a value. -/
def Call.Proper : Call → Prop
  | .complete _ kind | .schedule _ kind => kind.isChoice = false
  | _ => True

instance : DecidablePred Call.Proper := fun call =>
  match call with
  | .complete _ kind | .schedule _ kind => inferInstanceAs (Decidable (kind.isChoice = false))
  | .register _ | .enable _ | .disable _ | .block _ | .unblock _ | .waitForTurn _ | .nextBool
  | .nextInt _ | .reportBug _ | .terminate _ | .takeStrategy => inferInstanceAs (Decidable True)

/-- The kind under which the value that a call asks for is recorded. -/
def Call.choice? : Call → Option PointKind
  | .nextBool => some .boolChoice
  | .nextInt _ => some .intChoice
  | _ => none

/-- The operation chosen last; the test driver before the first one. -/
def Trace.holder (trace : Trace) : Nat :=
  ((trace.filter (!·.kind.isChoice)).getLast?.map (·.chosen)).getD Controller.driverOperation

@[simp] theorem Trace.holder_concat (trace : Trace) (step : TraceStep) :
    Trace.holder (trace ++ [step]) =
      if step.kind.isChoice then Trace.holder trace else step.chosen := by
  cases choice : step.kind.isChoice <;> simp [holder, choice]

namespace Controller

@[simp] theorem trace_record (c : Controller σ) (kind : PointKind) (chosen : Nat) :
    (c.record kind chosen).trace = c.trace ++ [⟨kind, chosen⟩] := by
  simp [record, trace]

/-! ## What a call asks for -/

/-- The operation that a call brings to a point, and the kind of the point. The end of an operation
is a point if it holds the turn. -/
def point? (c : Controller σ) : Call → Option (Nat × PointKind)
  | .schedule op kind => if (c.status? op).isSome then some (op, kind) else none
  | .complete op kind => if c.scheduled = op then some (op, kind) else none
  | _ => none

/-- The controller at the moment when a call is decided: who is done is chosen no more. -/
def deciding (c : Controller σ) : Call → Controller σ
  | .complete op _ => c.setStatus op [.enabled, .disabled, .blocked] .completed
  | _ => c

/-- A call asks for a decision: for a value, or at a point for the next one of the enabled
operations. -/
def Requests (c : Controller σ) (call : Call) : Prop :=
  call.choice?.isSome ∨ (c.point? call).isSome ∧ (c.deciding call).enabledIds ≠ []

variable [Strategy σ]

/-- The controller after some calls. -/
def after (c : Controller σ) (calls : List Call) : Controller σ :=
  calls.foldl (fun c call => (c.perform call).2) c

@[simp] theorem after_concat (c : Controller σ) (calls : List Call) (call : Call) :
    c.after (calls ++ [call]) = ((c.after calls).perform call).2 := by
  simp [after]

/-- Every call only adds to what is recorded, except that the strategy may be given away. -/
theorem Steers.perform (c : Controller σ) {call : Call} (kept : call ≠ .takeStrategy) :
    c.Steers (c.perform call).2 := by
  cases call with
  | register name => exact .register c name
  | enable | disable | block | unblock => exact .setStatus c _ _ _
  | complete op kind => exact .complete c op kind
  | schedule op kind => exact .schedule c op kind
  | waitForTurn => exact .refl c
  | nextBool => exact .nextBool c
  | nextInt max => exact .nextInt c max
  | reportBug | terminate => exact .terminate c _
  | takeStrategy => exact absurd rfl kept

theorem Steers.after (c : Controller σ) {calls : List Call} (kept : .takeStrategy ∉ calls) :
    c.Steers (c.after calls) := by
  induction calls generalizing c with
  | nil => exact .refl c
  | cons call calls ih =>
    obtain ⟨first, rest⟩ := not_or.1 (List.mem_cons.not.1 kept)
    exact (Steers.perform c (Ne.symm first)).trans (ih (c.perform call).2 rest)

omit [Strategy σ] in
/-- A step that an operation was chosen at is of a kind that the call named. -/
private theorem isChoice_of_point {c : Controller σ} {call : Call}
    (proper : call.Proper) {op : Nat} {kind : PointKind} (reached : c.point? call = some (op, kind)) : kind.isChoice = false := by
  cases call with
  | schedule | complete =>
    simp only [point?, Option.ite_none_right_eq_some, Option.some.injEq, Prod.mk.injEq] at reached
    exact reached.2.2 ▸ proper
  | _ => cases reached

private theorem isChoice_of_value {call : Call} {kind : PointKind}
    (chosen : call.choice? = some kind) : kind.isChoice = true := by
  cases call with
  | nextBool | nextInt => cases chosen; rfl
  | _ => cases chosen

/-! ## What asking comes to -/

omit [Strategy σ] in
/-- A decision is asked for: the run ends at the bound or leaves its strategy, or a permitted step is
recorded and the turn is given. -/
inductive Asked (c : Controller σ) (Permits : TraceStep → Nat → Prop) : Controller σ → Prop where
  | bound (full : c.maxSteps ≤ c.steps) :
    Asked c Permits { c with steps := c.steps + 1, outcome := some .boundReached }
  | recorded (free : c.steps < c.maxSteps) (step : TraceStep) {scheduled : Nat}
    {strategy : Option σ} (permitted : Permits step scheduled) :
    Asked c Permits
      { c with steps := c.steps + 1, recorded := step :: c.recorded, scheduled, strategy }
  | diverged (free : c.steps < c.maxSteps) {strategy : Option σ} {reason : String} :
    Asked c Permits
      { c with steps := c.steps + 1, strategy, outcome := some (.diverged reason) }

/-- A step gives the turn to an enabled operation that was the answer to the question which of
exactly the enabled ones goes next. -/
structure Picks (c : Controller σ) (current : Nat) (step : TraceStep) : Prop where
  enabled : step.chosen ∈ c.enabledIds
  answer : (c.askOperation step.kind current c.enabledIds).1 = .ok step.chosen

/-- A decision at a point. -/
theorem asked_advance {c : Controller σ} (running : c.outcome = none) (current : Nat)
    (kind : PointKind) (somebody : c.enabledIds ≠ []) :
    c.Asked (fun step scheduled => step.kind = kind ∧ c.Picks current step ∧
      scheduled = step.chosen) (c.advance current kind) := by
  have nonempty : ¬c.enabledIds.isEmpty = true := by simpa using somebody
  unfold advance
  rw [if_neg nonempty]
  by_cases full : c.maxSteps < c.steps + 1
  · simp only [if_pos full, finish, running]
    exact .bound (Nat.le_of_lt_succ full)
  have free : c.steps < c.maxSteps := by omega
  simp only [if_neg full]
  -- the strategy is asked before the step is counted in `Picks`, and after it in the definition
  have same : (askOperation { c with steps := c.steps + 1 } kind current c.enabledIds).1 =
      (c.askOperation kind current c.enabledIds).1 := by
    unfold askOperation
    cases c.strategy <;> rfl
  obtain ⟨strategy, asked⟩ : ∃ s,
      (askOperation { c with steps := c.steps + 1 } kind current c.enabledIds).2 =
        { c with steps := c.steps + 1, strategy := s } := by
    unfold askOperation
    cases holds : c.strategy with
    | none => exact ⟨none, by simp [← holds]⟩
    | some s => exact ⟨_, rfl⟩
  rw [same, asked]
  cases answer : (c.askOperation kind current c.enabledIds).1 with
  | error d =>
    simp only [assign, diverge, finish, running]
    exact .diverged free
  | ok chosen =>
    simp only [assign]
    split
    · next enabled =>
      exact .recorded free ⟨kind, chosen⟩ ⟨rfl, ⟨by simpa using enabled, answer⟩, rfl⟩
    · simp only [diverge, finish, running]
      exact .diverged free

omit [Strategy σ] in
/-- A decision about a value. -/
theorem asked_choose {c : Controller σ} (running : c.outcome = none) (kind : PointKind)
    (ask : σ → Answered σ Nat) :
    c.Asked (fun step scheduled => step.kind = kind ∧ scheduled = c.scheduled)
      (c.choose kind ask).2 := by
  have goesOn : ¬c.isOver = true := by simp [isOver, running]
  unfold choose
  rw [if_neg goesOn]
  by_cases full : c.maxSteps < c.steps + 1
  · simp only [if_pos full, finish, running]
    exact .bound (Nat.le_of_lt_succ full)
  have free : c.steps < c.maxSteps := by omega
  simp only [if_neg full]
  cases holds : c.strategy with
  | none =>
    simp only [diverge, finish, running]
    exact .diverged free
  | some s =>
    simp only
    cases answer : ask s with
    | mk value s' =>
      cases value with
      | ok n => exact .recorded free ⟨kind, n⟩ ⟨rfl, rfl⟩
      | error d =>
        simp only [diverge, finish, running]
        exact .diverged free

/-! ## What a call does -/

omit [Strategy σ] in
/-- Nothing is decided; if the run goes on, no step is counted. -/
structure Undecided (c d : Controller σ) : Prop where
  mode : d.mode = c.mode
  maxSteps : d.maxSteps = c.maxSteps
  scheduled : d.scheduled = c.scheduled
  recorded : d.recorded = c.recorded
  numbers : c.operations.map (·.id) = List.range c.nextId →
    d.operations.map (·.id) = List.range d.nextId
  steps : d.outcome = none → c.outcome = none ∧ d.steps = c.steps

namespace Undecided

omit [Strategy σ]

variable {c d : Controller σ}

theorem of_same (mode : d.mode = c.mode) (maxSteps : d.maxSteps = c.maxSteps)
    (scheduled : d.scheduled = c.scheduled) (recorded : d.recorded = c.recorded)
    (operations : d.operations.map (·.id) = c.operations.map (·.id)) (nextId : d.nextId = c.nextId)
    (outcome : d.outcome = c.outcome) (steps : d.steps = c.steps) : c.Undecided d where
  mode := mode
  maxSteps := maxSteps
  scheduled := scheduled
  recorded := recorded
  numbers h := by rw [operations, nextId, h]
  steps none := ⟨outcome ▸ none, steps⟩

theorem refl (c : Controller σ) : c.Undecided c := of_same rfl rfl rfl rfl rfl rfl rfl rfl

theorem trans {e : Controller σ} (h : c.Undecided d) (k : d.Undecided e) : c.Undecided e where
  mode := k.mode.trans h.mode
  maxSteps := k.maxSteps.trans h.maxSteps
  scheduled := k.scheduled.trans h.scheduled
  recorded := k.recorded.trans h.recorded
  numbers start := k.numbers (h.numbers start)
  steps none := ⟨(h.steps (k.steps none).1).1, (k.steps none).2.trans (h.steps (k.steps none).1).2⟩

theorem setStatus (c : Controller σ) (op : Nat) (old : List OperationStatus)
    (new : OperationStatus) : c.Undecided (c.setStatus op old new) :=
  of_same rfl rfl rfl rfl (c.ids_setStatus op old new) rfl rfl rfl

theorem register (c : Controller σ) (name : String) : c.Undecided (c.register name).2 where
  mode := rfl
  maxSteps := rfl
  scheduled := rfl
  recorded := rfl
  numbers start := by simp [Controller.register, start, List.range_succ]
  steps none := ⟨none, rfl⟩

theorem finish (c : Controller σ) (outcome : Outcome) : c.Undecided (c.finish outcome) := by
  obtain ⟨o, ended⟩ := c.finish_eq outcome
  rw [ended]
  exact ⟨rfl, rfl, rfl, rfl, id, fun none => by cases none⟩

theorem finishIdle (c : Controller σ) : c.Undecided c.finishIdle := by
  obtain ⟨o, ended⟩ := c.finishIdle_eq
  rw [ended]
  exact ⟨rfl, rfl, rfl, rfl, id, fun none => by cases none⟩

end Undecided

/-- The step that a call records, and who holds the turn after it. -/
inductive Settles (c : Controller σ) (call : Call) (step : TraceStep) (scheduled : Nat) : Prop where
  | operation {op : Nat} (reached : c.point? call = some (op, step.kind))
    (picks : (c.deciding call).Picks op step) (turn : scheduled = step.chosen)
  | value (chosen : call.choice? = some step.kind) (turn : scheduled = c.scheduled)

/-- What a call does: nothing is decided, or a decision that it asks for is taken. -/
inductive Performed (c : Controller σ) (call : Call) (d : Controller σ) : Prop where
  | undecided (same : c.Undecided d) (silent : c.outcome = none → ¬c.Requests call)
    (unbounded : call ≠ .terminate .boundReached → d.outcome = some .boundReached →
      c.outcome = some .boundReached)
  | decided (running : c.outcome = none) (requests : c.Requests call)
    (asked : (c.deciding call).Asked (c.Settles call) d)

omit [Strategy σ] in
private theorem Asked.mono {c d : Controller σ} {P Q : TraceStep → Nat → Prop}
    (implies : ∀ step scheduled, P step scheduled → Q step scheduled) (h : c.Asked P d) :
    c.Asked Q d := by
  cases h with
  | bound full => exact .bound full
  | recorded free step permitted => exact .recorded free step (implies _ _ permitted)
  | diverged free => exact .diverged free

omit [Strategy σ] in
/-- Where nothing is enabled, the run ends at rest if nothing waits for a reply, and in a deadlock
otherwise. -/
theorem outcome_finishIdle {c : Controller σ} (running : c.outcome = none) :
    (c.withStatus .blocked = [] ∧ c.finishIdle.outcome = some .quiescent) ∨
      (c.withStatus .blocked ≠ [] ∧
        ∃ report, c.finishIdle.outcome = some (.bugFound report) ∧ report.kind = .deadlock) := by
  unfold finishIdle
  split
  · next nobody => exact .inl ⟨nobody, by simp [finish, running]⟩
  · next somebody =>
    refine .inr ⟨somebody, ⟨.deadlock, deadlockMessage (c.withStatus .blocked), none, c.trace⟩, ?_,
      rfl⟩
    simp only [finish, running]
    rfl

/-- A call that brings an operation to a point has the next one chosen there. -/
theorem perform_of_point {c : Controller σ} (explores : c.mode = .exploration)
    (running : c.outcome = none) {call : Call} {op : Nat} {kind : PointKind}
    (reached : c.point? call = some (op, kind)) :
    (c.perform call).2 = (c.deciding call).advance op kind := by
  cases call with
  | schedule =>
    simp only [point?, Option.ite_none_right_eq_some, Option.some.injEq, Prod.mk.injEq] at reached
    obtain ⟨known, rfl, rfl⟩ := reached
    simp [perform, schedule, deciding, isOver, running, explores, Option.isNone_eq_false_iff.2 known]
  | complete =>
    simp only [point?, Option.ite_none_right_eq_some, Option.some.injEq, Prod.mk.injEq] at reached
    obtain ⟨turn, rfl, rfl⟩ := reached
    simp [perform, complete, deciding, Controller.explores, explores, isOver, running, turn,
      setStatus]
  | _ => cases reached

/-- Unless it is a point, the end of an operation is only noted. -/
theorem perform_complete_of_elsewhere {c : Controller σ} {op : Nat} {kind : PointKind}
    (elsewhere : ¬(c.outcome = none ∧ c.scheduled = op)) :
    (c.perform (.complete op kind)).2 =
      c.setStatus op [.enabled, .disabled, .blocked] .completed := by
  simp only [perform, complete]
  refine if_neg fun goesOn => elsewhere ?_
  simp only [Bool.and_eq_true, Bool.not_eq_true', beq_iff_eq] at goesOn
  exact ⟨by simpa [isOver] using goesOn.1.2, goesOn.2⟩

private theorem performed_point {c : Controller σ} (explores : c.mode = .exploration)
    (running : c.outcome = none) {call : Call} {op : Nat} {kind : PointKind}
    (reached : c.point? call = some (op, kind)) (value : call.choice? = none)
    (before : c.Undecided (c.deciding call)) : c.Performed call (c.perform call).2 := by
  have running' : (c.deciding call).outcome = none := by cases call <;> exact running
  rw [perform_of_point explores running reached]
  by_cases somebody : (c.deciding call).enabledIds = []
  · have idle : (c.deciding call).advance op kind = (c.deciding call).finishIdle := by
      simp [advance, somebody]
    rw [idle]
    refine .undecided (before.trans (.finishIdle _)) (fun _ => by simp [Requests, value, somebody])
      fun _ bound => ?_
    rcases outcome_finishIdle running' with ⟨_, rest⟩ | ⟨_, report, deadlock, _⟩ <;> simp_all
  · refine .decided running (.inr ⟨by simp [reached], somebody⟩)
      ((asked_advance running' op kind somebody).mono ?_)
    rintro step scheduled ⟨rfl, picks, turn⟩
    exact .operation reached picks turn

private theorem performed_choose {c : Controller σ} {call : Call} {kind : PointKind}
    (value : call.choice? = some kind) (same : c.deciding call = c) (ask : σ → Answered σ Nat) :
    c.Performed call (c.choose kind ask).2 := by
  cases ended : c.outcome with
  | some o =>
    have unchanged : (c.choose kind ask).2 = c := by simp [choose, isOver, ended]
    rw [unchanged]
    exact .undecided (.refl c) (by simp [ended]) fun _ => id
  | none =>
    refine .decided ended (.inl (by simp [value])) ?_
    rw [same]
    refine (asked_choose ended kind ask).mono ?_
    rintro step scheduled ⟨same, turn⟩
    exact .value (same ▸ value) turn

omit [Strategy σ] in
private theorem outcome_finish {c : Controller σ} {outcome : Outcome}
    (other : outcome ≠ .boundReached)
    (bound : (c.finish outcome).outcome = some .boundReached) : c.outcome = some .boundReached := by
  cases ended : c.outcome with
  | some o => rwa [finish_of_isOver (by simp [isOver, ended]), ended] at bound
  | none => cases outcome <;> simp_all [finish]

/-- Every call of a controller that explores. -/
theorem performed {c : Controller σ} (explores : c.mode = .exploration) (call : Call) :
    c.Performed call (c.perform call).2 := by
  have quiet {call : Call} {d : Controller σ} (same : c.Undecided d) (outcome : d.outcome = c.outcome)
      (value : call.choice? = none) (point : c.point? call = none) : c.Performed call d :=
    .undecided same (fun _ => by simp [Requests, value, point]) fun _ bound => outcome ▸ bound
  cases call with
  | register name => exact quiet (.register c name) rfl rfl rfl
  | enable | disable | block | unblock => exact quiet (.setStatus c _ _ _) rfl rfl rfl
  | waitForTurn => exact quiet (.refl c) rfl rfl rfl
  | takeStrategy => exact quiet (.of_same rfl rfl rfl rfl rfl rfl rfl rfl) rfl rfl rfl
  | nextBool =>
    have chosen : (c.perform .nextBool).2 = (c.choose .boolChoice askBool).2 := by
      simp [perform, nextBool, explores]
    rw [chosen]
    exact performed_choose rfl rfl askBool
  | nextInt max =>
    have chosen : (c.perform (.nextInt max)).2 = (c.choose .intChoice (Strategy.nextInt · max)).2 := by
      simp [perform, nextInt, explores]
    rw [chosen]
    exact performed_choose rfl rfl _
  | reportBug report =>
    exact .undecided (.finish c (.bugFound report))
      (fun _ => by simp [Requests, Call.choice?, point?]) fun _ => outcome_finish (by simp)
  | terminate outcome =>
    exact .undecided (.finish c outcome) (fun _ => by simp [Requests, Call.choice?, point?])
      fun other => outcome_finish (by simpa using other)
  | schedule op kind =>
    by_cases reached : c.outcome = none ∧ (c.status? op).isSome
    · exact performed_point explores reached.1 (if_pos reached.2) rfl (.refl c)
    · have unchanged : (c.perform (.schedule op kind)).2 = c := by
        cases ended : c.outcome <;> simp_all [perform, schedule, isOver]
      rw [unchanged]
      refine .undecided (.refl c) (fun running => ?_) fun _ => id
      have unknown : ¬(c.status? op).isSome := fun known => reached ⟨running, known⟩
      simp [Requests, Call.choice?, point?, unknown]
  | complete op kind =>
    have done := Undecided.setStatus c op [.enabled, .disabled, .blocked] .completed
    by_cases reached : c.outcome = none ∧ c.scheduled = op
    · exact performed_point explores reached.1 (if_pos reached.2) rfl done
    · rw [perform_complete_of_elsewhere reached]
      refine .undecided done (fun running => ?_) fun _ => id
      have elsewhere : c.scheduled ≠ op := fun turn => reached ⟨running, turn⟩
      simp [Requests, Call.choice?, point?, elsewhere]

/-! ## Any sequence of calls -/

omit [Strategy σ] in
/-- As long as the run goes on one step is counted for each decision, within the bound. -/
structure Metered (maxSteps : Nat) (c : Controller σ) : Prop where
  mode : c.mode = .exploration
  limit : c.maxSteps = maxSteps
  steps : c.outcome = none → c.steps = c.trace.length
  bounded : c.trace.length ≤ maxSteps

namespace Metered

variable {maxSteps : Nat} {c : Controller σ}

omit [Strategy σ] in
theorem exploration (strategy : σ) (maxSteps : Nat) :
    (Controller.exploration strategy maxSteps).Metered maxSteps :=
  ⟨rfl, rfl, fun _ => rfl, Nat.zero_le _⟩

omit [Strategy σ] in
theorem undecided (metered : c.Metered maxSteps) {d : Controller σ} (same : c.Undecided d) :
    d.Metered maxSteps where
  mode := same.mode.trans metered.mode
  limit := same.maxSteps.trans metered.limit
  steps none := by
    rw [(same.steps none).2, metered.steps (same.steps none).1, trace, trace, same.recorded]
  bounded := by
    rw [trace, same.recorded]
    exact metered.bounded

omit [Strategy σ] in
theorem deciding (metered : c.Metered maxSteps) (call : Call) :
    (c.deciding call).Metered maxSteps := by
  cases call with
  | complete op kind => exact metered.undecided (.setStatus c op _ _)
  | _ => exact metered

theorem perform (metered : c.Metered maxSteps) (call : Call) :
    (c.perform call).2.Metered maxSteps := by
  cases performed metered.mode call with
  | undecided same => exact metered.undecided same
  | decided running _ asked =>
    have before := metered.deciding call
    have running' : (c.deciding call).outcome = none := by cases call <;> exact running
    generalize (c.perform call).2 = d at asked
    cases asked with
    | bound | diverged => exact ⟨before.mode, before.limit, nofun, before.bounded⟩
    | @recorded free step scheduled strategy settles =>
      have counted := before.steps running'
      have limit := before.limit
      refine ⟨before.mode, before.limit, fun _ => ?_, ?_⟩
      · simpa [trace] using counted
      · simp only [trace, List.length_reverse, List.length_cons] at counted ⊢
        omega

theorem after (metered : c.Metered maxSteps) (calls : List Call) :
    (c.after calls).Metered maxSteps := by
  induction calls generalizing c with
  | nil => exact metered
  | cons call calls ih => exact ih (metered.perform call)

end Metered

omit [Strategy σ] in
/-- How the turn, the steps and the recorded decisions go together. -/
structure Tallied (maxSteps : Nat) (c : Controller σ) : Prop where
  mode : c.mode = .exploration
  limit : c.maxSteps = maxSteps
  numbers : c.operations.map (·.id) = List.range c.nextId
  turn : c.scheduled = c.trace.holder
  steps : c.outcome = none → c.steps = c.trace.length
  bounded : c.trace.length ≤ maxSteps

namespace Tallied

variable {maxSteps : Nat} {c : Controller σ}

omit [Strategy σ] in
theorem exploration (strategy : σ) (maxSteps : Nat) :
    (Controller.exploration strategy maxSteps).Tallied maxSteps :=
  ⟨rfl, rfl, rfl, rfl, fun _ => rfl, Nat.zero_le _⟩

omit [Strategy σ] in
theorem metered (tallied : c.Tallied maxSteps) : c.Metered maxSteps :=
  ⟨tallied.mode, tallied.limit, tallied.steps, tallied.bounded⟩

omit [Strategy σ] in
theorem undecided (tallied : c.Tallied maxSteps) {d : Controller σ} (same : c.Undecided d) :
    d.Tallied maxSteps := by
  have counted := tallied.metered.undecided same
  refine ⟨counted.mode, counted.limit, same.numbers tallied.numbers, ?_, counted.steps,
    counted.bounded⟩
  rw [same.scheduled, tallied.turn, trace, trace, same.recorded]

omit [Strategy σ] in
private theorem deciding (tallied : c.Tallied maxSteps) (call : Call) :
    (c.deciding call).Tallied maxSteps := by
  cases call with
  | complete op kind => exact tallied.undecided (.setStatus c op _ _)
  | _ => exact tallied

theorem perform (tallied : c.Tallied maxSteps) {call : Call} (proper : call.Proper) :
    (c.perform call).2.Tallied maxSteps := by
  have counted := tallied.metered.perform call
  suffices (c.perform call).2.operations.map (·.id) = List.range (c.perform call).2.nextId ∧
      (c.perform call).2.scheduled = (c.perform call).2.trace.holder from
    ⟨counted.mode, counted.limit, this.1, this.2, counted.steps, counted.bounded⟩
  cases performed tallied.mode call with
  | undecided same => exact ⟨same.numbers tallied.numbers, (tallied.undecided same).turn⟩
  | decided _ _ asked =>
    have before := tallied.deciding call
    have same : (c.deciding call).trace = c.trace ∧ (c.deciding call).scheduled = c.scheduled := by
      cases call <;> exact ⟨rfl, rfl⟩
    generalize (c.perform call).2 = d at asked
    cases asked with
    | bound | diverged => exact ⟨before.numbers, before.turn⟩
    | @recorded _ step scheduled strategy settles =>
      have longer : ∀ e : Controller σ, e.recorded = step :: (c.deciding call).recorded →
          e.trace = (c.deciding call).trace ++ [step] := by
        intro e recorded
        simp [trace, recorded]
      refine ⟨before.numbers, ?_⟩
      rw [longer _ rfl, Trace.holder_concat]
      cases settles with
      | operation reached _ turn => simp [turn, isChoice_of_point proper reached]
      | value chosen turn => simp [turn, isChoice_of_value chosen, same.1, tallied.turn]

theorem after (tallied : c.Tallied maxSteps) {calls : List Call}
    (proper : ∀ call ∈ calls, call.Proper) : (c.after calls).Tallied maxSteps := by
  induction calls generalizing c with
  | nil => exact tallied
  | cons call calls ih =>
    exact ih (tallied.perform (proper call (.head _))) fun call h => proper call (.tail _ h)

end Tallied

/-! ## The account of a run -/

omit [Strategy σ] in
/-- The enabled operations are listed completely and in ascending order. -/
structure ListsEnabled (c : Controller σ) : Prop where
  ascending : c.enabledIds.Pairwise (· < ·)
  complete : ∀ op, op ∈ c.enabledIds ↔ c.status? op = some .enabled

omit [Strategy σ] in
theorem Tallied.listsEnabled {maxSteps : Nat} {c : Controller σ} (tallied : c.Tallied maxSteps) :
    c.ListsEnabled where
  ascending := by
    have sublist : List.Sublist c.enabledIds (List.range c.nextId) :=
      tallied.numbers ▸ List.filter_sublist.map _
    exact List.pairwise_lt_range.sublist sublist
  complete op := by
    refine mem_enabledIds_iff ?_ op
    unfold Numbered
    rw [tallied.numbers]
    exact List.nodup_range

/-- One of the calls made a step the `k`-th one recorded, and the step was picked from the enabled
operations. -/
def DecidedAt (start : Controller σ) (calls : List Call) (k : Nat) (step : TraceStep) : Prop :=
  ∃ before call rest op, calls = before ++ call :: rest ∧
    (start.after before).outcome = none ∧
    (start.after before).trace.length = k ∧
    (start.after (before ++ [call])).trace = (start.after before).trace ++ [step] ∧
    (start.after before).point? call = some (op, step.kind) ∧
    ((start.after before).deciding call).ListsEnabled ∧
    ((start.after before).deciding call).Picks op step

private theorem DecidedAt.append {start : Controller σ} {calls : List Call} {k : Nat}
    {step : TraceStep} (h : start.DecidedAt calls k step) (more : List Call) :
    start.DecidedAt (calls ++ more) k step := by
  obtain ⟨before, call, rest, op, split, found⟩ := h
  exact ⟨before, call, rest ++ more, op, by simp [split], found⟩

/-- A call records at most one step. -/
theorem trace_perform {c : Controller σ} (explores : c.mode = .exploration) (call : Call) :
    (c.perform call).2.trace = c.trace ∨ ∃ step scheduled, c.outcome = none ∧
      (c.perform call).2.trace = c.trace ++ [step] ∧ c.Settles call step scheduled := by
  have same : (c.deciding call).recorded = c.recorded := by cases call <;> rfl
  cases performed explores call with
  | undecided still => exact .inl (by rw [trace, still.recorded, trace])
  | decided running _ asked =>
    generalize (c.perform call).2 = d at asked
    cases asked with
    | bound | diverged => exact .inl (congrArg List.reverse same)
    | @recorded _ step scheduled _ settles =>
      exact .inr ⟨step, scheduled, running, by simp [trace, same], settles⟩

/-- By induction on the calls: a step was there already, or the last call recorded it. -/
private theorem decidedAt {start : Controller σ} {maxSteps : Nat}
    (tallied : start.Tallied maxSteps) (fresh : start.trace = []) {calls : List Call}
    (proper : ∀ call ∈ calls, call.Proper) {k : Nat} {step : TraceStep}
    (found : (start.after calls).trace[k]? = some step) (operation : step.kind.isChoice = false) :
    start.DecidedAt calls k step := by
  induction calls using List.reverseRecOn with
  | nil =>
    have none : start.trace[k]? = some step := found
    simp [fresh] at none
  | append_singleton calls call ih =>
    have properly : ∀ call ∈ calls, call.Proper := fun call h => proper call (by simp [h])
    have before := tallied.after properly
    rw [after_concat] at found
    rcases trace_perform before.mode call with same | ⟨taken, _, running, longer, settles⟩
    · rw [same] at found
      exact (ih properly found).append [call]
    rw [longer, List.getElem?_append] at found
    split at found
    · exact (ih properly found).append [call]
    · next beyond =>
      obtain ⟨here, rfl⟩ : k - (start.after calls).trace.length = 0 ∧ taken = step := by
        simpa [List.getElem?_singleton] using found
      cases settles with
      | value chosen => simp [isChoice_of_value chosen] at operation
      | @operation op reached picks _ =>
        exact ⟨calls, call, [], op, rfl, running, by omega, by rw [after_concat, longer], reached,
          (before.deciding call).listsEnabled, picks⟩

/-- What the decisions of a run add up to. -/
structure Accounted (start : Controller σ) (maxSteps : Nat) (c : Controller σ)
    (calls : List Call) : Prop where
  /-- The turn is with the operation chosen last. -/
  turn : c.scheduled = c.trace.holder
  /-- Every operation chosen was one of exactly the enabled ones. -/
  decided : ∀ k step, c.trace[k]? = some step → step.kind.isChoice = false →
    start.DecidedAt calls k step
  steps : c.outcome = none → c.steps = c.trace.length ∧ c.steps ≤ maxSteps
  bounded : c.trace.length ≤ maxSteps
  /-- The bound ends the run exactly when one more decision is asked for. -/
  bound : c.outcome = none → ∀ call, call ≠ .terminate .boundReached →
    ((c.perform call).2.outcome = some .boundReached ↔
      c.Requests call ∧ c.trace.length = maxSteps)
  /-- At a point where nothing is enabled the run ends for that reason, also at the bound. -/
  idle : c.outcome = none → ∀ call, (c.point? call).isSome → (c.deciding call).enabledIds = [] →
    ((c.deciding call).withStatus .blocked = [] ∧ (c.perform call).2.outcome = some .quiescent) ∨
      ((c.deciding call).withStatus .blocked ≠ [] ∧
        ∃ report, (c.perform call).2.outcome = some (.bugFound report) ∧ report.kind = .deadlock)

private theorem bound_iff {maxSteps : Nat} {c : Controller σ} (tallied : c.Tallied maxSteps)
    (running : c.outcome = none) {call : Call} (other : call ≠ .terminate .boundReached) :
    (c.perform call).2.outcome = some .boundReached ↔
      c.Requests call ∧ c.trace.length = maxSteps := by
  have before := tallied.deciding call
  have running' : (c.deciding call).outcome = none := by cases call <;> exact running
  have counted : (c.deciding call).steps = c.trace.length := by
    rw [before.steps running']
    cases call <;> rfl
  have within := tallied.bounded
  have limit := before.limit
  cases performed tallied.mode call with
  | undecided _ silent unbounded =>
    refine iff_of_false (fun bound => ?_) fun ⟨requests, _⟩ => silent running requests
    rw [running] at unbounded
    cases unbounded other bound
  | decided _ requests asked =>
    generalize (c.perform call).2 = d at asked
    cases asked with
    | bound full => exact iff_of_true rfl ⟨requests, by omega⟩
    | recorded free =>
      exact iff_of_false (by simp [running']) fun ⟨_, full⟩ => by omega
    | diverged free => exact iff_of_false (by simp) fun ⟨_, full⟩ => by omega

/-- After any calls to a controller that explores, the turn, the steps and the decisions are
accounted for. -/
theorem accounted (strategy : σ) (maxSteps : Nat) {calls : List Call}
    (proper : ∀ call ∈ calls, call.Proper) :
    (exploration strategy maxSteps).Accounted maxSteps ((exploration strategy maxSteps).after calls)
      calls := by
  have start := Tallied.exploration strategy maxSteps
  have tallied := start.after proper
  refine ⟨tallied.turn, fun k step => decidedAt start rfl proper, fun running => ?_,
    tallied.bounded, fun running call => bound_iff tallied running, fun running call point idle => ?_⟩
  · have counted := tallied.steps running
    exact ⟨counted, counted ▸ tallied.bounded⟩
  · obtain ⟨⟨op, kind⟩, reached⟩ := Option.isSome_iff_exists.1 point
    have running' : (((exploration strategy maxSteps).after calls).deciding call).outcome = none := by
      cases call <;> exact running
    rw [perform_of_point tallied.mode running reached, advance, if_pos (by simp [idle])]
    exact outcome_finishIdle running'

/-- A worker gets the turn, tosses a coin, and everyone is done. -/
def working : List Call :=
  [.register "worker", .schedule 0 .send, .nextBool, .complete 0 .yield, .complete 1 .yield]

/-- The controller after these calls, steered by a script. -/
def worked : Controller ScriptedStrategy :=
  (exploration (.ofAnswers [.ok 1, .ok 1]) 2).after working

/-- The run comes to rest after as many decisions as there may be. -/
theorem accounted_working :
    (exploration (ScriptedStrategy.ofAnswers [.ok 1, .ok 1]) 2).Accounted 2 worked working ∧
      worked.trace = [⟨.send, 1⟩, ⟨.boolChoice, 1⟩] ∧ worked.outcome = some .quiescent :=
  ⟨accounted (ScriptedStrategy.ofAnswers [.ok 1, .ok 1]) 2 (by decide), by decide, by decide⟩

end Controller

end SteeredActors
