import SteeredActors.Proofs.Replay.Adherence
import SteeredActors.Proofs.Strategy.Priorities
import SteeredActors.Strategy.Random

/-!
# What strategies may answer

A controller relies on its strategy for an enabled operation, and a program for a number below its
bound. Whatever they have been asked before, strategies that draw always give such an answer. A
replay gives one or none, with an exception: for the bound zero it answers with any number that its
trace holds, while the others answer with zero.
-/

set_option autoImplicit false
set_option relaxedAutoImplicit false

namespace SteeredActors

namespace Strategy

variable {σ : Type} [Strategy σ]

/-- An operation that is given as an answer is enabled, and a number lies below a bound that is not
zero. -/
structure Fitting (s : σ) : Prop where
  enabled : ∀ kind current enabled op, enabled ≠ [] →
    (nextOperation s kind current enabled).1 = .ok op → op ∈ enabled
  below : ∀ max n, 0 < max → (nextInt s max).1 = .ok n → n < max

/-- Every question gets a fitting answer, and the bound zero the answer zero. -/
structure Contract (s : σ) : Prop extends Fitting s where
  operation : ∀ kind current enabled, enabled ≠ [] →
    ∃ op, (nextOperation s kind current enabled).1 = .ok op
  truth : ∃ b, (nextBool s).1 = .ok b
  number : ∀ max, ∃ n, (nextInt s max).1 = .ok n
  zero : (nextInt s 0).1 = .ok 0

theorem Contract.of_answers {s : σ}
    (operation : ∀ kind current enabled, enabled ≠ [] →
      ∃ op ∈ enabled, (nextOperation s kind current enabled).1 = .ok op)
    (truth : ∃ b, (nextBool s).1 = .ok b)
    (number : ∀ max, 0 < max → ∃ n < max, (nextInt s max).1 = .ok n)
    (zero : (nextInt s 0).1 = .ok 0) : Contract s where
  enabled kind current enabled op somebody answer := by
    obtain ⟨op', able, answer'⟩ := operation kind current enabled somebody
    obtain rfl : op' = op := Except.ok.inj (answer'.symm.trans answer)
    exact able
  below max n positive answer := by
    obtain ⟨n', below, answer'⟩ := number max positive
    obtain rfl : n' = n := Except.ok.inj (answer'.symm.trans answer)
    exact below
  operation kind current enabled somebody :=
    (operation kind current enabled somebody).imp fun _ => And.right
  truth := truth
  number max := by
    rcases Nat.eq_zero_or_pos max with rfl | positive
    · exact ⟨0, zero⟩
    · exact (number max positive).imp fun _ => And.right
  zero := zero

end Strategy

open Strategy (Inquiry Fitting Contract)

/-- A random position below the length of a list of operations holds one of them. -/
theorem RandomStrategy.contract (s : RandomStrategy) : Contract s := by
  refine .of_answers (fun kind current enabled somebody => ?_) ⟨_, rfl⟩ (fun max positive => ?_) rfl
  · have below := s.generator.below64_lt (List.length_pos_iff.2 somebody)
    refine ⟨enabled[(s.generator.below64 enabled.length).1], List.getElem_mem below, ?_⟩
    simp only [Strategy.nextOperation, nextOperation, List.getElem?_eq_getElem below,
      Option.getD_some]
  · refine ⟨(s.generator.below64 max).1, s.generator.below64_lt positive, ?_⟩
    simp only [Strategy.nextInt, nextInt, if_neg (Nat.ne_of_gt positive)]

/-- By the time of the answer everyone who is enabled has a priority. -/
theorem PctStrategy.contract (s : PctStrategy) : Contract s := by
  refine .of_answers (fun kind current enabled somebody => ?_) ⟨_, rfl⟩ (fun max positive => ?_) rfl
  · obtain ⟨op, able⟩ := List.exists_mem_of_ne_nil enabled somebody
    have known := s.mem_ask_of_enabled (q := .operation kind current enabled) able
    obtain ⟨top, able, highest⟩ := exists_highest? able known
    exact ⟨top, able, Strategy.of_chosen? (s.chosen?_eq_highest? kind current enabled ▸ highest)⟩
  · refine ⟨(s.generator.below64 max).1, s.generator.below64_lt positive, ?_⟩
    simp only [Strategy.nextInt, nextInt, if_neg (Nat.ne_of_gt positive)]
    rfl

namespace ReplayStrategy

theorem fitting (s : ReplayStrategy) : Fitting s where
  enabled kind current enabled op _ answer := by
    have asked := s.answers_nextOperation kind enabled
    have answer : (s.nextOperation kind enabled).1 = .ok op := answer
    generalize s.nextOperation kind enabled = given at asked answer
    cases asked with
    | used _ suits => exact Except.ok.inj answer ▸ suits.2
    | refused => cases answer
  below max n positive answer := by
    have asked := s.answers_nextInt max
    generalize Strategy.nextInt s max = given at asked answer
    cases asked with
    | used _ suits => exact Except.ok.inj answer ▸ suits.2 positive
    | refused => cases answer

/-- For the bound zero any recorded number is the answer. -/
theorem nextInt_zero_iff (s : ReplayStrategy) (n : Nat) :
    (Strategy.nextInt s 0).1 = .ok n ↔ s.trace[s.position]? = some ⟨.intChoice, n⟩ := by
  have asked := s.answers_nextInt 0
  generalize Strategy.nextInt s 0 = given at asked
  cases asked with
  | @used step next suits =>
    obtain ⟨kind, chosen⟩ := step
    obtain rfl : kind = .intChoice := suits.1
    simp [next]
  | refused unsuited =>
    refine iff_of_false (by simp) fun next => unsuited _ next ⟨rfl, nofun⟩

/-- No question changes the trace. -/
theorem trace_ask (s : ReplayStrategy) (q : Inquiry) : (Strategy.ask s q).trace = s.trace := by
  have taken (kind : PointKind) : (s.take kind).2.trace = s.trace := by
    unfold take
    split
    · rfl
    · split <;> rfl
  cases q with
  | iteration => rfl
  | operation kind current enabled =>
    rw [← taken kind]
    simp only [Strategy.ask, Strategy.nextOperation, nextOperation]
    split
    · split <;> simp [*]
    · simp [*]
  | truth =>
    rw [← taken .boolChoice]
    simp only [Strategy.ask, Strategy.nextBool, nextBool]
    split <;> simp [*]
  | number max =>
    rw [← taken .intChoice]
    simp only [Strategy.ask, Strategy.nextInt, nextInt]
    split
    · split <;> simp [*]
    · simp [*]

theorem trace_after (s : ReplayStrategy) (asked : List Inquiry) :
    (Strategy.after s asked).trace = s.trace := by
  induction asked generalizing s with
  | nil => rfl
  | cons q asked ih => rw [Strategy.after_cons, ih, trace_ask]

end ReplayStrategy

namespace Strategy

/-- Whatever they have been asked, strategies that draw keep the contract, and so does a replay as
far as it answers, except for the bound zero: its answer then is the number recorded next. -/
theorem keeps_contract (seed changePointCount : Nat) (recorded : Trace) (asked : List Inquiry) :
    Contract (after (RandomStrategy.ofSeed seed) asked) ∧
      Contract (after (PctStrategy.new seed changePointCount) asked) ∧
      Fitting (after (ReplayStrategy.ofTrace recorded) asked) ∧
      ∀ n, (nextInt (after (ReplayStrategy.ofTrace recorded) asked) 0).1 = .ok n ↔
        recorded[(after (ReplayStrategy.ofTrace recorded) asked).position]? =
          some ⟨.intChoice, n⟩ := by
  refine ⟨RandomStrategy.contract _, PctStrategy.contract _, ReplayStrategy.fitting _, fun n => ?_⟩
  rw [ReplayStrategy.nextInt_zero_iff, ReplayStrategy.trace_after]
  rfl

/-- A number recorded under another bound is the answer for the bound zero. -/
example : (nextInt (ReplayStrategy.ofTrace [⟨.intChoice, 5⟩]) 0).1 = .ok 5 := rfl

end Strategy

end SteeredActors
