import Mathlib.Data.Nat.Find
import Mathlib.Logic.Equiv.Basic
import SteeredActors.Proofs.Replay.Steps
import SteeredActors.Proofs.World.Numbers

/-!
# Replay reproduces the bug

A replay of the decisions of an iteration is that iteration in another generation, up to the end of
the run. So if the programs of a test do not look at generations, the replay of the trace of a bug
finds the same bug.
-/

set_option autoImplicit false
set_option relaxedAutoImplicit false

namespace SteeredActors

/-! ## Strategies that can be replayed -/

/-- The strategy answers by itself. -/
def AnyStrategy.Unscripted : AnyStrategy → Prop
  | .scripted _ => False
  | _ => True

private theorem RandomStrategy.nextInt_lt {s : RandomStrategy} {max n : Nat} (positive : 0 < max)
    (answer : (s.nextInt max).1 = .ok n) : n < max := by
  have drawn : (s.generator.below64 max).1 = n := by
    simpa [nextInt, Nat.ne_of_gt positive] using answer
  exact drawn ▸ s.generator.below64_lt positive

private theorem PctStrategy.nextInt_lt {s : PctStrategy} {max n : Nat} (positive : 0 < max)
    (answer : (s.nextInt max).1 = .ok n) : n < max := by
  have drawn : (s.advance.generator.below64 max).1 = n := by
    simpa [nextInt, Nat.ne_of_gt positive] using answer
  exact drawn ▸ s.advance.generator.below64_lt positive

private theorem ReplayStrategy.nextInt_lt {s : ReplayStrategy} {max n : Nat} (positive : 0 < max)
    (answer : (s.nextInt max).1 = .ok n) : n < max := by
  unfold nextInt at answer
  split at answer
  · split at answer
    · cases answer
    · next within =>
      cases answer
      omega
  · cases answer

/-- Only scripts answer with numbers beyond the bound. -/
theorem AnyStrategy.fair_unscripted : Strategy.Fair AnyStrategy.Unscripted where
  prepare s _ h := by cases s <;> first | exact h.elim | trivial
  nextOperation s _ _ _ h := by cases s <;> first | exact h.elim | trivial
  nextBool s h := by cases s <;> first | exact h.elim | trivial
  nextInt s _ h := by cases s <;> first | exact h.elim | trivial
  bounded s max n h positive answer := by
    cases s with
    | random s => exact RandomStrategy.nextInt_lt positive answer
    | pct s => exact PctStrategy.nextInt_lt positive answer
    | replay s => exact ReplayStrategy.nextInt_lt positive answer
    | scripted s => exact h.elim

theorem Experiment.unscripted_of_strategy {e : Experiment} {seed iterations : Nat}
    {load : String → Option Trace} {s : AnyStrategy}
    (asked : e.strategy seed load = .ok (s, iterations)) : s.Unscripted := by
  unfold Experiment.strategy at asked
  dsimp only at asked
  split at asked
  · cases asked; trivial
  · cases asked; trivial
  · split at asked
    · cases asked
    · split at asked
      · cases asked; trivial
      · cases asked

/-! ## Runs that show no identity -/

/-- The task shows no identity, whatever the values are. -/
def Task.plain : Task → Bool
  | .perform _ (.ask _ (.render _) _) | .perform _ (.ask _ (.add _ _) _)
  | .perform _ (.ask _ (.access _ _ _) _) | .touch _ _ => false
  | _ => true

theorem Task.discreet_of_plain {x : Task} (h : x.plain = true) (objects : List SharedObject) :
    x.Discreet objects := by
  cases x <;> try trivial
  next speaker program =>
    cases program with
    | finish => trivial
    | ask voice request next => cases request <;> trivial

/-- A run ends within a number of steps, and the holder of the turn has plain tasks only. -/
def World.plainFor {σ : Type} [Strategy σ] : Nat → World σ → Bool
  | 0, w => w.isOver
  | n + 1, w => w.isOver || w.next?.all Task.plain && (w.step?.map (plainFor n)).getD true

theorem World.plain_of_plainFor {σ : Type} [Strategy σ] {n : Nat} {w : World σ}
    (h : w.plainFor n = true) {k : Nat} (running : (w.run k).isOver = false) :
    ∀ x ∈ (w.run k).next?, x.plain = true := by
  have finished : ∀ {w : World σ} {k : Nat}, w.isOver = true → (w.run k).isOver = false → False := by
    intro w k ceased running
    rw [World.isOver, Controller.isOver, World.outcome_run k ceased] at running
    rw [World.isOver, Controller.isOver, running] at ceased
    cases ceased
  induction n generalizing w k with
  | zero => exact (finished h running).elim
  | succ n ih =>
    rcases Bool.or_eq_true_iff.1 h with ceased | goesOn
    · exact (finished ceased running).elim
    · obtain ⟨plain, later⟩ := Bool.and_eq_true_iff.1 goesOn
      have here : ∀ x ∈ w.next?, x.plain = true := fun x next => by
        simpa [show w.next? = some x from next] using plain
      cases k with
      | zero => exact here
      | succ k =>
        unfold World.run at running ⊢
        cases moved : w.step? with
        | none => exact here
        | some w' =>
          simp only [moved, Option.map_some, Option.getD_some] at later running ⊢
          exact ih later running

namespace Experiment

/-! ## One iteration -/

/-- The programs of a test do not look at generations: with other generations they do the same. -/
structure Oblivious (e : Experiment) : Prop where
  test : ∀ π, e.test.rename π = e.test
  registry : ∀ π, e.registry.rename π = e.registry

variable {σ : Type} [Strategy σ] (e : Experiment)

/-- No step of an iteration shows an identity, as long as there is no outcome. -/
def Silent (ids : Allocator) (s : σ) : Prop :=
  ∀ n, (e.iterate n ids s).isOver = false → ∀ x ∈ (e.iterate n ids s).next?,
    x.Discreet (e.iterate n ids s).objects

variable {e}

/-- The replay of the decisions of an iteration is that iteration in another generation, step by step
until it ends. -/
theorem iterate_ofTrace (accepted : e.registry.Accepted) (oblivious : e.Oblivious)
    (π : Equiv.Perm Nat) {g : Nat} {s : σ} {P : σ → Prop} (fair : Strategy.Fair P) (start : P s)
    (silent : e.Silent ⟨0, g⟩ s) {T : Trace} (short : T.length < maxWord) {N : Nat}
    (running : ∀ n < N, (e.iterate n ⟨0, g⟩ s).isOver = false)
    (ended : (e.iterate N ⟨0, g⟩ s).isOver = true)
    (along : (e.iterate N ⟨0, g⟩ s).controller.Along T) {n : Nat} (le : n ≤ N) :
    e.iterate n ⟨0, π g⟩ (ReplayStrategy.ofTrace T) = (e.iterate n ⟨0, g⟩ s).replayed π T := by
  induction n with
  | zero =>
    have renamed : (e.iterate 0 ⟨0, g⟩ s).replayed π T =
        World.new (.exploration (ReplayStrategy.ofTrace T) e.settings.scheduling.maxSteps)
          (e.registry.rename π) e.settings.runtime.dequeuePolicy ⟨0, π g⟩ (e.test.rename π) := rfl
    rw [renamed, oblivious.test, oblivious.registry]
    rfl
  | succ n ih =>
    have before := running n le
    have sound := e.sound before
    cases moved : (e.iterate n ⟨0, g⟩ s).step? with
    | none =>
      -- the iteration would never end
      rw [e.iterate_of_stuck moved (Nat.le_of_succ_le le), before] at ended
      cases ended
    | some w' =>
      have same : e.iterate (n + 1) ⟨0, g⟩ s = w' := by rw [iterate_succ, moved, Option.getD_some]
      have steps := moved
      rw [World.step?_of_running sound.explores before] at steps
      obtain ⟨x, rest, outside, found, _⟩ := World.of_stepThread? steps
      have next := World.next?_of_thread found
      have orderly := (e.reached n ⟨0, g⟩ s).orderly accepted
      have evolved := e.evolves accepted ⟨0, g⟩ s (Nat.zero_le n)
      have native : (e.iterate n ⟨0, g⟩ s).Native := by
        intro a mem
        obtain ⟨i, there⟩ := List.getElem?_of_mem mem
        exact (orderly.fit.made i a.core (by simp [World.core?, there])).1
      have bounded : (e.iterate n ⟨0, g⟩ s).InRange := by
        intro s' holds max n positive answer
        refine fair.bounded s' max n (evolved.controller.fair P fair ?_ s' holds) positive answer
        rintro _ ⟨⟩
        exact start
      have room : ∀ speaker voice request next, x = .perform speaker (.ask voice request next) →
          (e.iterate n ⟨0, g⟩ s).ids.counter < maxWord := by
        rintro speaker voice request cont rfl
        have few := e.counter_le_decisions accepted (show (⟨0, g⟩ : Allocator).counter = 0 from rfl) s
          before next
        have part :=
          (e.evolves accepted ⟨0, g⟩ s (Nat.le_of_succ_le le)).controller.recorded.length_le
        have whole := along.trace.length_le
        rw [Controller.trace, List.length_reverse] at whole
        omega
      have follows : w'.controller.Along T :=
        .before (same ▸ (e.evolves accepted ⟨0, g⟩ s le).controller) along
      have replayed := World.stepThread?_replayed (π := π) native bounded found room
        (silent n before x next) steps follows
      have running' : ((e.iterate n ⟨0, g⟩ s).replayed π T).isOver = false := by
        rw [World.isOver_replayed, before]
      have explores' : ((e.iterate n ⟨0, g⟩ s).replayed π T).explores = true := sound.explores
      rw [iterate_succ, ih (Nat.le_of_succ_le le), World.step?_of_running explores' running',
        show ((e.iterate n ⟨0, g⟩ s).replayed π T).controller.scheduled =
        (e.iterate n ⟨0, g⟩ s).controller.scheduled from rfl, replayed, Option.getD_some, same]

/-! ## Explorations -/

/-- The identities and the strategy with which the iterations of an exploration start. -/
inductive Starts (e : Experiment) (fuel : Nat) (s₀ : σ) : Nat → Allocator → σ → Prop where
  | first {s : σ} (ready : Strategy.prepare s₀ 0 = (true, s)) :
      Starts e fuel s₀ 0 (.ofGeneration e.settings.runtime.generation) s
  | next {i : Nat} {ids : Allocator} {s s₁ s₂ : σ} {outcome : Outcome}
      (before : Starts e fuel s₀ i ids s)
      (ended : (e.iterate fuel ids s).controller.outcome = some outcome)
      (goesOn : isFinal outcome = false)
      (kept : (e.iterate fuel ids s).controller.strategy = some s₁)
      (ready : Strategy.prepare s₁ (i + 1) = (true, s₂)) :
      Starts e fuel s₀ (i + 1) (e.iterate fuel ids s).ids.nextGeneration s₂

/-- No iteration of an exploration shows an identity. -/
def Discreet (e : Experiment) (fuel : Nat) (s₀ : σ) : Prop :=
  ∀ i ids s, e.Starts fuel s₀ i ids s → e.Silent ids s

/-- No number is used up when an iteration starts. -/
theorem Starts.counter {fuel i : Nat} {s₀ s : σ} {ids : Allocator} (h : e.Starts fuel s₀ i ids s) :
    ids.counter = 0 := by
  cases h <;> rfl

theorem Starts.fair {P : σ → Prop} (fair : Strategy.Fair P) (accepted : e.registry.Accepted)
    {fuel i : Nat} {s₀ s : σ} {ids : Allocator} (h : e.Starts fuel s₀ i ids s) (start : P s₀) :
    P s := by
  induction h with
  | first ready =>
    have next := fair.prepare s₀ 0 start
    rwa [ready] at next
  | @next i ids s s₁ s₂ _ before _ _ kept ready ih =>
    have steered := (e.evolves accepted ids s (Nat.zero_le fuel)).controller.fair P fair
      (by rintro _ ⟨⟩; exact ih) s₁ kept
    have next := fair.prepare s₁ (i + 1) steered
    rwa [ready] at next

/-- A bug that an exploration finds is the outcome of one of its iterations. -/
theorem starts_of_explore {fuel : Nat} (s₀ : σ) (remaining : Nat) {i : Nat} {s : σ}
    {ids : Allocator} {findings : Findings} {b : BugReport}
    (explored : e.explore fuel s ids i remaining = .ok findings) (found : findings.bug = some b)
    (starts : ∀ s', Strategy.prepare s i = (true, s') →
      e.Starts fuel s₀ i (if i = 0 then ids else ids.nextGeneration) s') :
    ∃ j ids' s', e.Starts fuel s₀ j ids' s' ∧
      (e.iterate fuel ids' s').controller.outcome = some (.bugFound b) := by
  induction remaining generalizing i s ids findings with
  | zero =>
    cases explored
    cases found
  | succ remaining ih =>
    unfold explore at explored
    cases ready : Strategy.prepare s i with
    | mk goesOn s' =>
      simp only [ready] at explored
      cases goesOn with
      | false =>
        cases explored
        cases found
      | true =>
        simp only [Bool.not_true, Bool.false_eq_true, if_false] at explored
        have here := starts s' ready
        generalize (if i = 0 then ids else ids.nextGeneration) = ids' at explored here
        split at explored
        · next outcome s₁ ended kept =>
          split at explored
          · cases explored
            cases outcome with
            | bugFound report =>
              obtain rfl : report = b := Option.some.inj found
              exact ⟨i, ids', s', here, ended⟩
            | _ => cases found
          · next goesOn =>
            split at explored
            · next findings₁ rest =>
              cases explored
              exact ih rest found fun s₂ ready => by
                simpa using Starts.next here ended (by simpa using goesOn) kept ready
            · cases explored
        · cases explored

/-- The replay of the bug of an iteration ends with the same bug in the generation of the replay. -/
theorem outcome_ofTrace (accepted : e.registry.Accepted) (oblivious : e.Oblivious)
    {P : σ → Prop} (fair : Strategy.Fair P) {g : Nat} (g' : Nat) {s : σ} (start : P s)
    (silent : e.Silent ⟨0, g⟩ s) {fuel : Nat} {b : BugReport}
    (found : (e.iterate fuel ⟨0, g⟩ s).controller.outcome = some (.bugFound b))
    (short : b.trace.length < maxWord) :
    ∃ π : Equiv.Perm Nat,
      (e.iterate fuel ⟨0, g'⟩ (ReplayStrategy.ofTrace b.trace)).controller.outcome =
        some (.bugFound (b.rename π)) := by
  classical
  have finished : ∃ n, (e.iterate n ⟨0, g⟩ s).isOver = true :=
    ⟨fuel, by simp [World.isOver, Controller.isOver, found]⟩
  -- the first step after which there is an outcome
  obtain ⟨N, ended, first⟩ : ∃ N, (e.iterate N ⟨0, g⟩ s).isOver = true ∧
      ∀ n < N, (e.iterate n ⟨0, g⟩ s).isOver = false :=
    ⟨Nat.find finished, Nat.find_spec finished, fun n lt => by simpa using Nat.find_min finished lt⟩
  have le : N ≤ fuel := by
    by_contra beyond
    have none := first fuel (Nat.lt_of_not_le beyond)
    simp [World.isOver, Controller.isOver, found] at none
  have outcome : (e.iterate N ⟨0, g⟩ s).controller.outcome = some (.bugFound b) := by
    rw [← found]
    exact (((e.evolves accepted ⟨0, g⟩ s le).controller.final ended).1).symm
  have along : (e.iterate N ⟨0, g⟩ s).controller.Along b.trace := by
    refine ⟨?_, fun reason diverged => ?_⟩
    · have reported := (e.evolves accepted ⟨0, g⟩ s (Nat.zero_le N)).controller.reported rfl b outcome
      exact reported ▸ List.prefix_rfl
    · rw [outcome] at diverged
      cases diverged
  refine ⟨Equiv.swap g g', ?_⟩
  have replayed := iterate_ofTrace accepted oblivious (Equiv.swap g g') fair start silent short
    first ended along (Nat.le_refl N)
  rw [Equiv.swap_apply_left] at replayed
  have finished' : (e.iterate N ⟨0, g'⟩ (ReplayStrategy.ofTrace b.trace)).isOver = true := by
    rw [replayed, World.isOver_replayed, ended]
  rw [((e.evolves accepted ⟨0, g'⟩ (ReplayStrategy.ofTrace b.trace) le).controller.final finished').1,
    replayed]
  exact congrArg (Option.map (Outcome.rename (Equiv.swap g g'))) outcome

/-- What an exploration found, it found from the first iteration on. -/
private theorem explore_of_run {fuel seed : Nat} {load : String → Option Trace}
    {report : ExplorationReport} (ran : e.run fuel seed load = .ok report) :
    e.check = .ok () ∧ ∃ s iterations findings, e.strategy seed load = .ok (s, iterations) ∧
      e.explore fuel s (.ofGeneration e.settings.runtime.generation) 0 iterations = .ok findings ∧
      findings.bug = report.bug := by
  unfold run at ran
  cases checked : e.check with
  | error fault => simp [checked, bind, Except.bind] at ran
  | ok _ =>
    cases asked : e.strategy seed load with
    | error fault => simp [checked, asked, bind, Except.bind] at ran
    | ok chosen =>
      obtain ⟨s, iterations⟩ := chosen
      simp only [checked, asked, bind, Except.bind, exploreWith] at ran
      cases explored : e.explore fuel s (.ofGeneration e.settings.runtime.generation) 0
        iterations with
      | error fault => simp [explored] at ran
      | ok findings =>
        simp only [explored, pure, Except.pure, Except.ok.injEq] at ran
        exact ⟨rfl, s, iterations, findings, rfl, explored, by rw [← ran]⟩

/-- A replay whose iteration finds a bug. -/
private theorem replay_of_outcome {fuel : Nat} {trace : Trace} {b : BugReport}
    (checked : e.check = .ok ())
    (ended : (e.iterate fuel (.ofGeneration e.settings.runtime.generation)
      (ReplayStrategy.ofTrace trace)).controller.outcome = some (.bugFound b))
    (steered : (e.iterate fuel (.ofGeneration e.settings.runtime.generation)
      (ReplayStrategy.ofTrace trace)).controller.strategy.isSome) :
    ∃ again iteration, e.replay fuel trace = .ok again ∧ again.iterations = [iteration] ∧
      iteration.outcome = .bugFound b ∧ again.bug = some b := by
  obtain ⟨s, kept⟩ := Option.isSome_iff_exists.1 steered
  have ready : Strategy.prepare (ReplayStrategy.ofTrace trace) 0 =
      (true, ReplayStrategy.ofTrace trace) := rfl
  simp only [replay, checked, exploreWith, explore, ready, bind, Except.bind, Bool.not_true,
    Bool.false_eq_true, if_false, if_true, ended, kept, isFinal, pure, Except.pure]
  exact ⟨_, _, rfl, rfl, rfl, rfl⟩

/-- The replay of the trace of a bug runs one iteration and finds the same bug. -/
theorem replay_reproduces {e : Experiment} (accepted : e.registry.Accepted) (oblivious : e.Oblivious)
    {fuel seed : Nat} {load : String → Option Trace}
    (discreet : ∀ s iterations, e.strategy seed load = .ok (s, iterations) → e.Discreet fuel s)
    {report : ExplorationReport} (ran : e.run fuel seed load = .ok report) {b : BugReport}
    (found : report.bug = some b) (short : b.trace.length < maxWord) :
    ∃ again iteration b', e.replay fuel b.trace = .ok again ∧ again.iterations = [iteration] ∧
      iteration.outcome = .bugFound b' ∧ again.bug = some b' ∧ b'.kind = b.kind ∧
      b'.message = b.message ∧ b'.trace = b.trace := by
  obtain ⟨checked, s, iterations, findings, asked, explored, same⟩ := explore_of_run ran
  obtain ⟨i, ids, s', starts, outcome⟩ := starts_of_explore s iterations explored
    (same.trans found) fun _ ready => .first ready
  have fair := AnyStrategy.fair_unscripted
  have unscripted := starts.fair fair accepted (unscripted_of_strategy asked)
  have silent := discreet s iterations asked i ids s' starts
  obtain ⟨counter, g⟩ := ids
  obtain rfl : counter = 0 := starts.counter
  obtain ⟨π, again⟩ := outcome_ofTrace accepted oblivious fair e.settings.runtime.generation
    unscripted silent outcome short
  have steered := (e.evolves accepted (.ofGeneration e.settings.runtime.generation)
    (ReplayStrategy.ofTrace b.trace) (Nat.zero_le fuel)).controller.steered
  obtain ⟨report', iteration, replayed, one, ended, bug⟩ :=
    replay_of_outcome checked again (steered.trans rfl)
  exact ⟨report', iteration, b.rename π, replayed, one, ended, bug, rfl, rfl, rfl⟩

/-! ## A coin that shows tails in the second iteration -/

/-- An action that asserts that a random truth value is true. -/
private def toss : Action := fun o =>
  .ask .own .randomBool fun
    | .ok (.bool b) => .ask .own (.assert b "The coin shows tails.") fun _ => .finish o.memory .ok
    | _ => .finish o.memory .ok

private def tossed : StateDescriptor := ⟨"Tossed", true, none, some toss, none, []⟩

private def coin : Declaration :=
  { typeTag := "Coin", kind := .machine, inherited := [], observes := [], derived := [tossed] }

private def coinDescriptor : Descriptor := ⟨"Coin", .machine, [tossed], tossed, []⟩

/-- The test creates a machine that tosses a coin. -/
def tossing : Experiment where
  settings := .exploration
  registry := ⟨Timer.descriptors ++ [coinDescriptor]⟩
  test := .ask .own (.create "Coin" none none false) fun _ => .finish {} .ok

private theorem accepted_tossing : tossing.registry.Accepted := by
  have built : coin.build = .ok coinDescriptor :=
    Declaration.build_of_plain (by decide) rfl rfl rfl rfl rfl
  exact ⟨[coinDescriptor], by simpa using ⟨coin, built⟩, rfl⟩

private theorem toss_rename (π : Equiv.Perm Nat) : Action.rename π toss = toss := by
  refine Action.rename_eq π fun o => ?_
  symm
  refine Program.rename_ask π fun a => ?_
  rcases a with f | v
  · rfl
  · cases v with
    | bool b => exact Program.rename_ask π fun _ => rfl
    | _ => rfl

private theorem oblivious_tossing : tossing.Oblivious where
  test π := Program.rename_ask π fun _ => rfl
  registry π := by
    have machines : (Timer.descriptors ++ [coinDescriptor]).map (Descriptor.rename π) =
        Timer.descriptors ++ [coinDescriptor] := by
      simp [Timer.descriptors_rename, coinDescriptor, Descriptor.rename, tossed,
        StateDescriptor.rename, toss_rename]
    exact congrArg Registry.mk machines

/-- The first strategy, and the one with which the second iteration starts. -/
private def tosses : Nat → AnyStrategy
  | 0 => .random (.ofSeed 0)
  | n + 1 =>
    ((tossing.iterate 20 ⟨0, n⟩ (tosses n)).controller.strategy.map fun s =>
      (Strategy.prepare s (n + 1)).2).getD (.random (.ofSeed 0))

private theorem starts_tossing {i : Nat} {ids : Allocator} {s : AnyStrategy}
    (h : tossing.Starts 20 (tosses 0) i ids s) : i ≤ 1 ∧ ids = ⟨0, i⟩ ∧ s = tosses i := by
  induction h with
  | first ready => exact ⟨Nat.zero_le 1, rfl, (congrArg Prod.snd ready).symm⟩
  | @next i ids s s₁ s₂ outcome before ended goesOn kept ready ih =>
    obtain ⟨le, rfl, rfl⟩ := ih
    have generation :=
      (tossing.evolves accepted_tossing ⟨0, i⟩ (tosses i) (Nat.zero_le 20)).ids.generation
    obtain rfl | rfl : i = 0 ∨ i = 1 := by omega
    · refine ⟨Nat.le_refl 1, ?_, ?_⟩
      · rw [Allocator.nextGeneration, generation]
        rfl
      · rw [tosses, kept, Option.map_some, Option.getD_some, ready]
    · -- the second iteration is the last one
      have final : (tossing.iterate 20 ⟨0, 1⟩ (tosses 1)).controller.outcome.all isFinal = true := by
        decide +kernel
      rw [ended, Option.all_some, goesOn] at final
      cases final

private theorem discreet_tossing : tossing.Discreet 20 (tosses 0) := by
  intro i ids s starts n running x next
  obtain ⟨le, rfl, rfl⟩ := starts_tossing starts
  have plain : ((tossing.iterate 0 ⟨0, i⟩ (tosses i)).plainFor 20) = true := by
    obtain rfl | rfl : i = 0 ∨ i = 1 := by omega
    · decide +kernel
    · decide +kernel
  exact Task.discreet_of_plain (World.plain_of_plainFor plain running x next) _

/-- The coin shows heads in the first iteration and tails in the second one, whose trace is
replayed. -/
theorem replay_reproduces_tossing :
    ∃ report b again iteration b', tossing.run 20 0 (fun _ => none) = .ok report ∧
      report.iterations.length = 2 ∧ report.bug = some b ∧ tossing.replay 20 b.trace = .ok again ∧
      again.iterations = [iteration] ∧ again.bug = some b' ∧ b'.kind = b.kind ∧
      b'.message = b.message ∧ b'.trace = b.trace := by
  have computed : (match tossing.run 20 0 (fun _ => none) with
      | .ok r => r.iterations.length == 2 && r.bug.any fun b => b.trace.length < 10
      | .error _ => false) = true := by
    decide +kernel
  cases ran : tossing.run 20 0 (fun _ => none) with
  | error fault => simp [ran] at computed
  | ok report =>
    simp only [ran, Bool.and_eq_true, beq_iff_eq] at computed
    obtain ⟨two, bug⟩ := computed
    cases found : report.bug with
    | none => simp [found] at bug
    | some b =>
      have short : b.trace.length < 10 := by simpa [found] using bug
      obtain ⟨again, iteration, b', replayed, one, _, same, kind, message, trace⟩ :=
        replay_reproduces accepted_tossing oblivious_tossing
          (fun s iterations asked => by cases asked; exact discreet_tossing) ran found
          (Nat.lt_trans short (by decide))
      exact ⟨report, b, again, iteration, b', rfl, two, found, replayed, one, same, kind, message,
        trace⟩

end Experiment

end SteeredActors
