import SteeredActors.Proofs.Controller.Turn

/-!
# What a run does with its controller

Decisions are only ever added to those recorded, nothing is decided once the run has ended, a bug is
reported with the decisions recorded at that moment, and the strategy changes only by answering.
-/

set_option autoImplicit false
set_option relaxedAutoImplicit false

namespace SteeredActors

variable {σ : Type}

/-- Strategies that stay within `P` by answering, and that keep to the bound of a number. -/
structure Strategy.Fair [Strategy σ] (P : σ → Prop) : Prop where
  prepare : ∀ s iteration, P s → P (Strategy.prepare s iteration).2
  nextOperation : ∀ s kind current enabled, P s →
    P (Strategy.nextOperation s kind current enabled).2
  nextBool : ∀ s, P s → P (Strategy.nextBool s).2
  nextInt : ∀ s max, P s → P (Strategy.nextInt s max).2
  bounded : ∀ s max n, P s → 0 < max → (Strategy.nextInt s max).1 = .ok n → n < max

/-- What is asked when a value is chosen. -/
inductive Strategy.Question [Strategy σ] : (σ → Answered σ Nat) → Prop where
  | truth : Question Controller.askBool
  | number (max : Nat) : Question (Strategy.nextInt · max)

namespace Controller

variable [Strategy σ]

/-- One controller comes of another in a run. -/
structure Steers (c d : Controller σ) : Prop where
  mode : d.mode = c.mode
  recorded : c.recorded <:+ d.recorded
  final : c.isOver = true → d.outcome = c.outcome ∧ d.recorded = c.recorded
  reported : c.isOver = false → ∀ report, d.outcome = some (.bugFound report) →
    report.trace = d.trace
  steered : d.strategy.isSome = c.strategy.isSome
  fair : ∀ P : σ → Prop, Strategy.Fair P → (∀ s ∈ c.strategy, P s) → ∀ s ∈ d.strategy, P s
  maxSteps : d.maxSteps = c.maxSteps
  steps : c.steps ≤ d.steps
  within : (c.isOver = false → c.steps ≤ c.maxSteps) → d.isOver = false → d.steps ≤ d.maxSteps

namespace Steers

variable {c d e : Controller σ}

/-- Neither decisions nor the strategy nor the outcome changes. -/
theorem of_same (mode : d.mode = c.mode) (recorded : d.recorded = c.recorded)
    (outcome : d.outcome = c.outcome) (strategy : d.strategy = c.strategy)
    (maxSteps : d.maxSteps = c.maxSteps) (steps : d.steps = c.steps) : c.Steers d where
  mode := mode
  recorded := recorded ▸ List.suffix_rfl
  final _ := ⟨outcome, recorded⟩
  reported running report found := by
    rw [outcome] at found
    simp [isOver, found] at running
  steered := by rw [strategy]
  fair P _ start := by rwa [strategy]
  maxSteps := maxSteps
  steps := steps ▸ Nat.le_refl _
  within bounded running := by
    rw [isOver, outcome] at running
    rw [steps, maxSteps]
    exact bounded running

theorem refl (c : Controller σ) : c.Steers c := of_same rfl rfl rfl rfl rfl rfl

theorem trans (h : c.Steers d) (k : d.Steers e) : c.Steers e where
  mode := k.mode.trans h.mode
  recorded := h.recorded.trans k.recorded
  final finished := by
    obtain ⟨outcome, recorded⟩ := h.final finished
    have finished' : d.isOver = true := by rw [isOver, outcome]; exact finished
    exact ⟨(k.final finished').1.trans outcome, (k.final finished').2.trans recorded⟩
  reported running report found := by
    cases finished : d.isOver with
    | false => exact k.reported finished report found
    | true =>
      obtain ⟨outcome, recorded⟩ := k.final finished
      rw [h.reported running report (outcome ▸ found), trace, trace, recorded]
  steered := k.steered.trans h.steered
  fair P fair start := k.fair P fair (h.fair P fair start)
  maxSteps := k.maxSteps.trans h.maxSteps
  steps := Nat.le_trans h.steps k.steps
  within bounded := k.within (h.within bounded)

theorem setStatus (c : Controller σ) (op : Nat) (old : List OperationStatus)
    (new : OperationStatus) : c.Steers (c.setStatus op old new) := of_same rfl rfl rfl rfl rfl rfl

theorem register (c : Controller σ) (name : String) : c.Steers (c.register name).2 :=
  of_same rfl rfl rfl rfl rfl rfl

theorem finish (c : Controller σ) (outcome : Outcome) : c.Steers (c.finish outcome) := by
  cases finished : c.isOver with
  | true =>
    rw [finish_of_isOver finished]
    exact .refl c
  | false =>
    have none : c.outcome = none := by simpa [isOver] using finished
    refine ⟨?_, ?_, by simp [finished], fun _ report found => ?_, ?_, fun P _ start => ?_, ?_, ?_,
      fun _ running => by rw [isOver_finish] at running; cases running⟩
    all_goals
      unfold Controller.finish at *
      simp only [none] at *
      cases outcome <;>
        first | exact Nat.le_refl _ | rfl | exact List.suffix_rfl | exact start | cases found
    rfl

theorem terminate (c : Controller σ) (outcome : Outcome) : c.Steers (c.terminate outcome).2 :=
  .finish c outcome

theorem finishIdle (c : Controller σ) : c.Steers c.finishIdle := by
  unfold Controller.finishIdle
  split <;> exact .finish c _

private theorem diverge (c : Controller σ) (d : Divergence) : c.Steers (c.diverge d) := .finish c _

/-- A decision within the bound is counted. -/
private theorem counted (free : c.steps < c.maxSteps) :
    c.Steers { c with steps := c.steps + 1 } where
  mode := rfl
  recorded := List.suffix_rfl
  final _ := ⟨rfl, rfl⟩
  reported running report found := by simp_all [isOver]
  steered := rfl
  fair _ _ start := start
  maxSteps := rfl
  steps := Nat.le_succ _
  within _ _ := free

/-- A decision beyond the bound ends the run. -/
private theorem exceeded (c : Controller σ) :
    c.Steers ({ c with steps := c.steps + 1 }.finish .boundReached) := by
  have ends := finish { c with steps := c.steps + 1 } .boundReached
  refine ⟨ends.mode, ends.recorded, ends.final, ends.reported, ends.steered, ends.fair,
    ends.maxSteps, Nat.le_of_succ_le ends.steps, fun _ running => ?_⟩
  rw [isOver_finish] at running
  cases running

/-- A strategy is asked. -/
private theorem asked {s s' : σ} (holds : c.strategy = some s)
    (keeps : ∀ P : σ → Prop, Strategy.Fair P → P s → P s') :
    c.Steers { c with strategy := some s' } where
  mode := rfl
  recorded := List.suffix_rfl
  final _ := ⟨rfl, rfl⟩
  reported running report found := by simp_all [isOver]
  steered := by rw [holds]; rfl
  fair P fair start := by
    rintro _ ⟨⟩
    exact keeps P fair (start s holds)
  maxSteps := rfl
  steps := Nat.le_refl _
  within bounded := bounded

/-- A decision is recorded while the run goes on. -/
private theorem decided (running : c.isOver = false) (step : TraceStep) (scheduled : Nat) :
    c.Steers { c with recorded := step :: c.recorded, scheduled } where
  mode := rfl
  recorded := List.suffix_cons _ _
  final finished := by simp [running] at finished
  reported _ report found := by simp_all [isOver]
  steered := rfl
  fair _ _ start := start
  maxSteps := rfl
  steps := Nat.le_refl _
  within bounded := bounded

theorem advance (running : c.isOver = false) (current : Nat) (kind : PointKind) :
    c.Steers (c.advance current kind) := by
  unfold Controller.advance
  simp only
  split
  · exact .finishIdle c
  · split
    · exact exceeded c
    · next within =>
      have count : c.Steers { c with steps := c.steps + 1 } := counted (Nat.not_lt.1 within)
      refine count.trans (Steers.trans
        (d := (askOperation { c with steps := c.steps + 1 } kind current c.enabledIds).2) ?_ ?_)
      · unfold askOperation
        split
        · next s holds => exact asked holds fun P fair => fair.nextOperation s _ _ _
        · exact .refl _
      · have goesOn : (askOperation { c with steps := c.steps + 1 } kind current
            c.enabledIds).2.isOver = false := by
          unfold askOperation
          split <;> exact running
        unfold assign
        split
        · split
          · exact decided goesOn _ _
          · exact .finish _ _
        · exact .finish _ _

theorem schedule (c : Controller σ) (op : Nat) (kind : PointKind) :
    c.Steers (c.schedule op kind).2 := by
  unfold Controller.schedule
  split
  · exact .refl c
  · next running =>
    split
    · exact .refl c
    · split
      · exact .refl c
      · exact .advance (by simpa using running) op kind

theorem complete (c : Controller σ) (op : Nat) (kind : PointKind) :
    c.Steers (c.complete op kind) := by
  have done := setStatus c op [.enabled, .disabled, .blocked] .completed
  unfold Controller.complete
  simp only
  split
  · next goesOn =>
    simp only [Bool.and_eq_true, Bool.not_eq_true'] at goesOn
    exact done.trans (.advance goesOn.1.2 op kind)
  · exact done

private theorem choose (c : Controller σ) (kind : PointKind) {ask : σ → Answered σ Nat}
    (question : Strategy.Question ask) : c.Steers (c.choose kind ask).2 := by
  have keeps : ∀ s (P : σ → Prop), Strategy.Fair P → P s → P (ask s).2 := by
    intro s P fair start
    cases question with
    | number max => exact fair.nextInt s max start
    | truth =>
      unfold askBool
      have next := fair.nextBool s start
      cases answer : Strategy.nextBool s with
      | mk value s' =>
        rw [answer] at next
        cases value <;> exact next
  cases finished : c.isOver with
  | true =>
    rw [Controller.choose, finished]
    exact .refl c
  | false =>
    simp only [Controller.choose, finished, Bool.false_eq_true, if_false]
    split
    · exact exceeded c
    · next within =>
      have count : c.Steers { c with steps := c.steps + 1 } := counted (Nat.not_lt.1 within)
      split
      · exact count.trans (.diverge _ _)
      · next s holds =>
        have ask := asked (c := { c with steps := c.steps + 1 }) holds (keeps s)
        split
        · next value s' answer =>
          rw [answer] at ask
          refine count.trans (ask.trans ?_)
          exact decided (c := { c with steps := c.steps + 1, strategy := some s' }) finished
            ⟨kind, value⟩ _
        · next d s' answer =>
          rw [answer] at ask
          exact count.trans (ask.trans (.diverge _ d))

theorem nextBool (c : Controller σ) : c.Steers c.nextBool.2 := by
  unfold Controller.nextBool
  split
  · exact .refl c
  · exact choose c _ .truth

theorem nextInt (c : Controller σ) (max : Nat) : c.Steers (c.nextInt max).2 := by
  unfold Controller.nextInt
  split
  · exact .refl c
  · exact choose c _ (.number max)

end Steers

end Controller

end SteeredActors
