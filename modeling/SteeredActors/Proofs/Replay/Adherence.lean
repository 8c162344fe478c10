import SteeredActors.Proofs.Controller.Ended
import SteeredActors.Strategy.Replay

/-!
# Replays of any trace

A trace may have been edited, cut short or recorded by another program. A controller that replays it
still decides nothing on its own, unless its strategy is taken from it: what it records are the first
steps of the trace, and where the next step is no answer to what is asked, the run ends with a
divergence and nothing is recorded. The replay has used exactly as many steps as there are
decisions, as long as the run goes on.
-/

set_option autoImplicit false
set_option relaxedAutoImplicit false

namespace SteeredActors

/-- A step as it is recorded again: a truth value becomes zero or one. -/
def TraceStep.normal (step : TraceStep) : TraceStep :=
  if step.kind = .boolChoice then { step with chosen := (step.chosen != 0).toNat } else step

theorem TraceStep.normal_of_ne {step : TraceStep} (other : step.kind ≠ .boolChoice) :
    step.normal = step := if_neg other

/-! ## Answers from a trace -/

namespace ReplayStrategy

/-- How a replay answers: the next step suits the question and is used, or there is no answer. -/
inductive Answers (s : ReplayStrategy) (Suits : TraceStep → Prop) (value : TraceStep → Nat) :
    Answered ReplayStrategy Nat → Prop where
  | used {step : TraceStep} (next : s.trace[s.position]? = some step) (suits : Suits step) :
    Answers s Suits value (.ok (value step), ⟨s.trace, s.position + 1⟩)
  | refused (unsuited : ∀ step ∈ s.trace[s.position]?, ¬Suits step) (d : Divergence)
    (t : ReplayStrategy) : Answers s Suits value (.error d, t)

theorem answers_take (s : ReplayStrategy) (kind : PointKind) :
    s.Answers (·.kind = kind) (·.chosen) (s.take kind) := by
  unfold take
  cases next : s.trace[s.position]? with
  | none => exact .refused (by simp [next]) _ s
  | some step =>
    by_cases same : step.kind = kind
    · simp only [same, if_true]
      exact .used next same
    · simp only [same, if_false]
      exact .refused (by simpa [next] using same) _ s

theorem answers_nextOperation (s : ReplayStrategy) (kind : PointKind) (enabled : List Nat) :
    s.Answers (fun step => step.kind = kind ∧ step.chosen ∈ enabled) (·.chosen)
      (s.nextOperation kind enabled) := by
  unfold nextOperation
  have taken := s.answers_take kind
  generalize s.take kind = answer at taken
  cases taken with
  | refused unsuited d t =>
    exact .refused (fun step next suits => unsuited step next suits.1) d t
  | @used step next same =>
    by_cases able : step.chosen ∈ enabled
    · simp only [List.contains_iff_mem, able, if_true]
      exact .used next ⟨same, able⟩
    · simp only [List.contains_iff_mem, able, if_false]
      exact .refused (by simp [next, able]) _ _

theorem answers_askBool (s : ReplayStrategy) :
    s.Answers (·.kind = .boolChoice) (·.normal.chosen) (Controller.askBool s) := by
  simp only [Controller.askBool, Strategy.nextBool, nextBool]
  have taken := s.answers_take .boolChoice
  generalize s.take .boolChoice = answer at taken
  cases taken with
  | refused unsuited d t => exact .refused unsuited d t
  | @used step next same =>
    have noted : step.normal.chosen = (step.chosen != 0).toNat := by simp [TraceStep.normal, same]
    simp only [← noted]
    exact .used next same

theorem answers_nextInt (s : ReplayStrategy) (max : Nat) :
    s.Answers (fun step => step.kind = .intChoice ∧ (0 < max → step.chosen < max)) (·.chosen)
      (Strategy.nextInt s max) := by
  simp only [Strategy.nextInt, nextInt]
  have taken := s.answers_take .intChoice
  generalize s.take .intChoice = answer at taken
  cases taken with
  | refused unsuited d t =>
    exact .refused (fun step next suits => unsuited step next suits.1) d t
  | @used step next same =>
    by_cases beyond : 0 < max ∧ max ≤ step.chosen
    · simp only [if_pos beyond]
      refine .refused (fun step' next' suits => ?_) _ _
      obtain rfl : step = step' := by simpa [next] using next'
      have := suits.2 beyond.1
      omega
    · simp only [if_neg beyond]
      exact .used next ⟨same, fun positive => by omega⟩

end ReplayStrategy

namespace Controller

/-! ## One decision -/

/-- A step answers what a call asks for: it is of the kind at hand, an operation is enabled, and a
number lies below a bound that is not zero. -/
def Suits {σ : Type} (c : Controller σ) : Call → TraceStep → Prop
  | .schedule op kind, step =>
    step.kind = kind ∧ step.chosen ∈ (c.deciding (.schedule op kind)).enabledIds
  | .complete op kind, step =>
    step.kind = kind ∧ step.chosen ∈ (c.deciding (.complete op kind)).enabledIds
  | .nextBool, step => step.kind = .boolChoice
  | .nextInt max, step => step.kind = .intChoice ∧ (0 < max → step.chosen < max)
  | _, _ => False

/-- What a decision of a replay comes to: the next step suits and is recorded, or the run
diverges. -/
inductive Replayed (T before : Trace) (Suits : TraceStep → Prop) (d : Controller ReplayStrategy) :
    Prop where
  | recorded {step : TraceStep} (next : T[before.length]? = some step) (suits : Suits step)
    (trace : d.trace = before ++ [step.normal]) (held : d.strategy = some ⟨T, before.length + 1⟩)
    (running : d.outcome = none)
  | diverged (unsuited : ∀ step ∈ T[before.length]?, ¬Suits step) (trace : d.trace = before)
    (outcome : ∃ reason, d.outcome = some (.diverged reason))

theorem replayed_advance {T : Trace} {c : Controller ReplayStrategy} (running : c.outcome = none)
    (held : c.strategy = some ⟨T, c.trace.length⟩) (free : c.steps < c.maxSteps) (current : Nat)
    {kind : PointKind} (operation : kind.isChoice = false) (somebody : c.enabledIds ≠ []) :
    (c.advance current kind).Replayed T c.trace
      (fun step => step.kind = kind ∧ step.chosen ∈ c.enabledIds) := by
  have within : ¬c.maxSteps < c.steps + 1 := by omega
  have asked := ReplayStrategy.answers_nextOperation ⟨T, c.trace.length⟩ kind c.enabledIds
  simp only [advance, List.isEmpty_iff, if_neg somebody, if_neg within, askOperation, held,
    Strategy.nextOperation]
  generalize ReplayStrategy.nextOperation ⟨T, c.trace.length⟩ kind c.enabledIds = answer at asked
  cases asked with
  | @used step next suits =>
    obtain ⟨rfl, able⟩ := suits
    have other : step.kind ≠ .boolChoice := by
      intro same
      simp [same, PointKind.isChoice] at operation
    simp only [assign, List.contains_iff_mem, able, if_true]
    refine .recorded next ⟨rfl, able⟩ ?_ rfl running
    rw [TraceStep.normal_of_ne other]
    simp [record, trace]
  | refused unsuited d t =>
    simp only [assign, diverge, finish, running]
    exact .diverged unsuited rfl ⟨d.message, rfl⟩

theorem replayed_choose {T : Trace} {c : Controller ReplayStrategy} (running : c.outcome = none)
    (held : c.strategy = some ⟨T, c.trace.length⟩) (free : c.steps < c.maxSteps) {kind : PointKind}
    {ask : ReplayStrategy → Answered ReplayStrategy Nat} {Suits : TraceStep → Prop}
    {value : TraceStep → Nat}
    (asked : ReplayStrategy.Answers ⟨T, c.trace.length⟩ Suits value (ask ⟨T, c.trace.length⟩))
    (noted : ∀ step, Suits step → (⟨kind, value step⟩ : TraceStep) = step.normal) :
    (c.choose kind ask).2.Replayed T c.trace Suits := by
  have within : ¬c.maxSteps < c.steps + 1 := by omega
  have goesOn : ¬c.isOver = true := by simp [isOver, running]
  simp only [choose, if_neg goesOn, if_neg within, held]
  generalize ask ⟨T, c.trace.length⟩ = answer at asked
  cases asked with
  | used next suits =>
    refine .recorded next suits ?_ rfl running
    simp [record, trace, noted _ suits]
  | refused unsuited d t =>
    simp only [diverge, finish, running]
    exact .diverged unsuited rfl ⟨d.message, rfl⟩

/-- Every request for a decision within the bound. -/
theorem replayed_perform {T : Trace} {c : Controller ReplayStrategy}
    (explores : c.mode = .exploration) (running : c.outcome = none)
    (held : c.strategy = some ⟨T, c.trace.length⟩) (free : c.steps < c.maxSteps) {call : Call}
    (proper : call.Proper) (requests : c.Requests call) :
    (c.perform call).2.Replayed T c.trace (c.Suits call) := by
  have point {op : Nat} {kind : PointKind} (operation : kind.isChoice = false)
      (reached : c.point? call = some (op, kind)) (somebody : (c.deciding call).enabledIds ≠ []) :
      (c.perform call).2.Replayed T c.trace
        (fun step => step.kind = kind ∧ step.chosen ∈ (c.deciding call).enabledIds) := by
    have same : (c.deciding call).outcome = none ∧ (c.deciding call).trace = c.trace ∧
        (c.deciding call).strategy = c.strategy ∧
        (c.deciding call).steps < (c.deciding call).maxSteps := by
      cases call <;> exact ⟨running, rfl, rfl, free⟩
    obtain ⟨running', trace, strategy, free'⟩ := same
    rw [perform_of_point explores running reached, ← trace]
    exact replayed_advance running' (by rw [strategy, held, trace]) free' op operation somebody
  cases call with
  | schedule op kind =>
    rcases requests with chosen | ⟨reached, somebody⟩
    · cases chosen
    · have here : c.point? (.schedule op kind) = some (op, kind) :=
        if_pos (by simpa [point?] using reached)
      exact point proper here somebody
  | complete op kind =>
    rcases requests with chosen | ⟨reached, somebody⟩
    · cases chosen
    · have here : c.point? (.complete op kind) = some (op, kind) :=
        if_pos (by simpa [point?] using reached)
      exact point proper here somebody
  | nextBool =>
    have chosen : (c.perform .nextBool).2 = (c.choose .boolChoice askBool).2 := by
      simp [perform, nextBool, explores]
    rw [chosen]
    refine replayed_choose running held free (ReplayStrategy.answers_askBool _) fun step same => ?_
    have same : step.kind = .boolChoice := same
    simp [TraceStep.normal, same]
  | nextInt max =>
    have chosen :
        (c.perform (.nextInt max)).2 = (c.choose .intChoice (Strategy.nextInt · max)).2 := by
      simp [perform, nextInt, explores]
    rw [chosen]
    refine replayed_choose running held free (ReplayStrategy.answers_nextInt _ max)
      fun step suits => ?_
    rw [TraceStep.normal_of_ne (by simp [suits.1]), ← suits.1]
  | register | enable | disable | block | unblock | waitForTurn | reportBug | terminate
  | takeStrategy => rcases requests with chosen | ⟨reached, _⟩ <;> contradiction

/-! ## Any sequence of calls -/

section

variable {σ : Type} [Strategy σ]

/-- No strategy comes back. -/
theorem isSome_strategy_of_perform (c : Controller σ) (call : Call)
    (held : (c.perform call).2.strategy.isSome) : c.strategy.isSome := by
  by_cases given : call = .takeStrategy
  · subst given
    cases held
  · rwa [(Steers.perform c given).steered] at held

/-- Where no decision is asked for and the run goes on, the strategy is as it was, if it is not given
away. -/
theorem strategy_of_silent {c : Controller σ} (explores : c.mode = .exploration)
    (running : c.outcome = none) {call : Call} (silent : ¬c.Requests call)
    (goesOn : (c.perform call).2.outcome = none) :
    (c.perform call).2.strategy = c.strategy ∨ (c.perform call).2.strategy = none := by
  have point {op : Nat} {kind : PointKind} (reached : c.point? call = some (op, kind)) : False := by
    have nobody : (c.deciding call).enabledIds = [] := by
      by_contra somebody
      exact silent (.inr ⟨by simp [reached], somebody⟩)
    obtain ⟨o, ended⟩ := (c.deciding call).finishIdle_eq
    rw [perform_of_point explores running reached, advance, if_pos (by simp [nobody]), ended]
      at goesOn
    cases goesOn
  cases call with
  | register | enable | disable | block | unblock | waitForTurn => exact .inl rfl
  | takeStrategy => exact .inr rfl
  | nextBool | nextInt => exact (silent (.inl rfl)).elim
  | reportBug report =>
    have ended : (c.perform (.reportBug report)).2.isOver = true :=
      c.isOver_finish (.bugFound report)
    simp [isOver, goesOn] at ended
  | terminate outcome =>
    have ended : (c.perform (.terminate outcome)).2.isOver = true := c.isOver_finish outcome
    simp [isOver, goesOn] at ended
  | schedule op kind =>
    by_cases known : (c.status? op).isSome
    · exact (point (if_pos known)).elim
    · have unknown : c.status? op = none := by simpa using known
      simp [perform, schedule, isOver, running, explores, unknown]
  | complete op kind =>
    by_cases turn : c.scheduled = op
    · exact (point (if_pos turn)).elim
    · simp [perform, complete, setStatus, turn]

end

/-- As long as a controller has its strategy, what it has recorded is the beginning of the trace, and
while the run goes on the replay stands at the next decision. -/
structure Follows (T : Trace) (c : Controller ReplayStrategy) : Prop where
  recorded : c.strategy.isSome → c.trace <+: T.map TraceStep.normal
  position : c.outcome = none → ∀ s ∈ c.strategy, s = ⟨T, c.trace.length⟩

private theorem prefix_concat {α : Type} {xs ys : List α} {y : α} (start : xs <+: ys)
    (next : ys[xs.length]? = some y) : xs ++ [y] <+: ys := by
  obtain ⟨rest, rfl⟩ := start
  cases rest with
  | nil => simp at next
  | cons z rest =>
    obtain rfl : z = y := by simpa using next
    exact ⟨rest, by simp⟩

theorem Follows.perform {T : Trace} {c : Controller ReplayStrategy} (follows : c.Follows T)
    (explores : c.mode = .exploration) {call : Call} (proper : call.Proper) :
    (c.perform call).2.Follows T := by
  have before := c.isSome_strategy_of_perform call
  cases running : c.outcome with
  | some o =>
    have same := sameStory_perform (c := c) (by simp [isOver, running]) call
    refine ⟨fun held => same.recorded ▸ follows.recorded (before held), fun goesOn => ?_⟩
    rw [same.outcome, running] at goesOn
    cases goesOn
  | none =>
    cases performed explores call with
    | undecided same silent =>
      have kept : (c.perform call).2.trace = c.trace := by rw [trace, same.recorded, trace]
      refine ⟨fun held => kept ▸ follows.recorded (before held), fun goesOn s held => ?_⟩
      rcases strategy_of_silent explores running (silent running) goesOn with still | gone
      · exact kept ▸ follows.position running s (still ▸ held)
      · simp [gone] at held
    | decided _ requests asked =>
      cases held : c.strategy with
      | none =>
        have gone : (c.perform call).2.strategy = none := by
          simpa [held] using mt before
        exact ⟨by simp [gone], by simp [gone]⟩
      | some s =>
        obtain rfl := follows.position running s held
        have start := follows.recorded (by simp [held])
        by_cases free : c.steps < c.maxSteps
        · cases replayed_perform explores running held free proper requests with
          | recorded next _ longer held' =>
            refine ⟨fun _ => longer ▸ prefix_concat start (by simp [next]), fun _ s there => ?_⟩
            obtain rfl : (⟨T, c.trace.length + 1⟩ : ReplayStrategy) = s := by
              simpa [held'] using there
            rw [longer, List.length_append]
            rfl
          | diverged _ same outcome =>
            obtain ⟨reason, outcome⟩ := outcome
            exact ⟨fun _ => same ▸ start, fun goesOn => by simp [outcome] at goesOn⟩
        · have full : (c.deciding call).maxSteps ≤ (c.deciding call).steps := by
            cases call <;> exact Nat.not_lt.1 free
          have same : (c.deciding call).trace = c.trace := by cases call <;> rfl
          generalize (c.perform call).2 = d at asked
          cases asked with
          | bound => exact ⟨fun _ => same ▸ start, fun goesOn => by cases goesOn⟩
          | recorded free | diverged free => omega

theorem Follows.after {T : Trace} {maxSteps : Nat} {calls : List Call}
    (proper : ∀ call ∈ calls, call.Proper) :
    ((exploration (ReplayStrategy.ofTrace T) maxSteps).after calls).Follows T := by
  induction calls using List.reverseRecOn with
  | nil =>
    refine ⟨fun _ => List.nil_prefix, ?_⟩
    rintro _ _ ⟨⟩
    rfl
  | append_singleton calls call ih =>
    have properly : ∀ call ∈ calls, call.Proper := fun call h => proper call (by simp [h])
    have explores := ((Tallied.exploration (ReplayStrategy.ofTrace T) maxSteps).after properly).mode
    rw [after_concat]
    exact (ih properly).perform explores (proper call (by simp))

/-! ## Adherence -/

/-- A call ends the run with a divergence, and nothing is recorded; whatever is asked for later is
refused. -/
structure Diverges {σ : Type} [Strategy σ] (c : Controller σ) (call : Call) : Prop where
  outcome : ∃ reason, (c.perform call).2.outcome = some (.diverged reason)
  trace : (c.perform call).2.trace = c.trace
  refused : ∀ between later, ∀ reply ∈ later.refusal?,
    (((c.perform call).2.after between).perform later).1 = reply
  final : ∀ later, (c.perform call).2.SameStory ((c.perform call).2.after later)

/-- What a controller comes to that has a replay strategy. -/
structure Adheres (T : Trace) (maxSteps : Nat) (c : Controller ReplayStrategy) : Prop where
  /-- What is recorded are the first steps of the trace, with truth values as zero or one. -/
  recorded : c.trace <+: T.map TraceStep.normal
  /-- A next step that suits is the decision. -/
  taken : c.outcome = none → c.steps < maxSteps → ∀ call, call.Proper → c.Requests call →
    ∀ step ∈ T[c.trace.length]?, c.Suits call step →
      (c.perform call).2.outcome = none ∧ (c.perform call).2.trace = c.trace ++ [step.normal]
  /-- Without a next step that suits, the run diverges. -/
  diverges : c.outcome = none → c.steps < maxSteps → ∀ call, call.Proper → c.Requests call →
    (∀ step ∈ T[c.trace.length]?, ¬c.Suits call step) → c.Diverges call

/-- After any calls that leave it its replay strategy, a controller has decided what the trace says,
and where the trace does not say what is asked for, the run ends with a divergence. -/
theorem adheres (T : Trace) (maxSteps : Nat) {calls : List Call}
    (proper : ∀ call ∈ calls, call.Proper) (kept : .takeStrategy ∉ calls) :
    ((exploration (ReplayStrategy.ofTrace T) maxSteps).after calls).Adheres T maxSteps := by
  have follows : ((exploration (ReplayStrategy.ofTrace T) maxSteps).after calls).Follows T :=
    .after proper
  have held : ((exploration (ReplayStrategy.ofTrace T) maxSteps).after calls).strategy.isSome :=
    (Steers.after _ kept).steered
  have tallied := (Tallied.exploration (ReplayStrategy.ofTrace T) maxSteps).after proper
  generalize (exploration (ReplayStrategy.ofTrace T) maxSteps).after calls = c at *
  obtain ⟨s, held⟩ := Option.isSome_iff_exists.1 held
  have decided (running : c.outcome = none) (free : c.steps < maxSteps) {call : Call}
      (proper : call.Proper) (requests : c.Requests call) :
      (c.perform call).2.Replayed T c.trace (c.Suits call) := by
    obtain rfl := follows.position running s held
    exact replayed_perform tallied.mode running held (tallied.limit ▸ free) proper requests
  refine ⟨follows.recorded (by simp [held]), ?_, ?_⟩
  · intro running free call proper requests step next suits
    cases decided running free proper requests with
    | recorded next' _ longer _ goesOn =>
      obtain rfl := Option.some.inj (next.symm.trans next')
      exact ⟨goesOn, longer⟩
    | diverged unsuited => exact (unsuited step next suits).elim
  · intro running free call proper requests unsuited
    cases decided running free proper requests with
    | recorded next suits => exact (unsuited _ next suits).elim
    | diverged _ same outcome =>
      have ceased : (c.perform call).2.isOver = true := by
        obtain ⟨reason, outcome⟩ := outcome
        simp [isOver, outcome]
      refine ⟨outcome, same, fun between later reply refusal => ?_, sameStory_after ceased⟩
      exact refused_of_isOver ((sameStory_after ceased between).isOver.trans ceased) refusal

/-- A trace with a truth value and a number that are recorded nowhere. -/
def edited : Trace := [⟨.send, 1⟩, ⟨.boolChoice, 7⟩, ⟨.intChoice, 9⟩]

/-- Another operation is told to go on, and a coin is tossed. -/
def rerunning : List Call := [.register "worker", .schedule 0 .send, .nextBool]

/-- A replay of the trace up to the toss. -/
def rerun : Controller ReplayStrategy := (exploration (.ofTrace edited) 50).after rerunning

/-- The coin shows one, as seven counts as true. A die of six sides can not show nine, so the run
diverges there; without a bound it can. -/
theorem adheres_edited :
    (∀ call ∈ rerunning, call.Proper) ∧ .takeStrategy ∉ rerunning ∧
      rerun.trace = [⟨.send, 1⟩, ⟨.boolChoice, 1⟩] ∧
      rerun.Diverges (.nextInt 6) ∧
      (rerun.perform (.nextInt 0)).2.trace = rerun.trace ++ [⟨.intChoice, 9⟩] := by
  have proper : ∀ call ∈ rerunning, call.Proper := by decide
  have kept : .takeStrategy ∉ rerunning := by simp [rerunning]
  have keeps : rerun.Adheres edited 50 := adheres edited 50 proper kept
  have next : edited[rerun.trace.length]? = some ⟨.intChoice, 9⟩ := by decide
  refine ⟨proper, kept, by decide, ?_, ?_⟩
  · refine keeps.diverges (by decide) (by decide) (.nextInt 6) trivial (.inl rfl) ?_
    rw [next]
    simp [Suits]
  · exact (keeps.taken (by decide) (by decide) (.nextInt 0) trivial (.inl rfl) _ next
      ⟨rfl, by simp⟩).2

/-- The strategy is given away before a decision is asked for. -/
def depriving : List Call := [.takeStrategy, .schedule 0 .send]

/-- A replay of the empty trace whose strategy is given away. -/
def deprived : Controller ReplayStrategy := (exploration (.ofTrace []) 50).after depriving

/-- Without its strategy, a controller passes the turn to the first operation that may go on, and
records what no trace has said. -/
theorem not_adheres_deprived :
    (∀ call ∈ depriving, call.Proper) ∧ deprived.trace = [⟨.send, 0⟩] ∧
      ¬deprived.Adheres [] 50 := by
  have decided : deprived.trace = [⟨.send, 0⟩] := by decide
  refine ⟨by decide, decided, fun adheres => ?_⟩
  have recorded := adheres.recorded
  rw [decided] at recorded
  exact absurd recorded (by decide)

end Controller

end SteeredActors
