import SteeredActors.Proofs.World.Decisions
import SteeredActors.Proofs.World.Reached

/-!
# Actors and decisions

Every creation of an actor is a scheduling point. So there are at most as many actors as decisions,
but for the one that has just been created, and at most as many numbers are used up.
-/

set_option autoImplicit false
set_option relaxedAutoImplicit false

namespace SteeredActors

variable {σ : Type}

/-- The holder of the turn is at the point that comes with a new actor. -/
def World.AtCreation (w : World σ) : Prop :=
  ∃ x rest, x.ofCreation = true ∧
    w.thread? (World.threadOf w.controller.scheduled) = some ⟨x :: rest, false⟩

variable [Strategy σ]

/-- A decision that does not end the run is recorded. -/
theorem Controller.recorded_advance {c : Controller σ} {current : Nat} {kind : PointKind}
    (goesOn : (c.advance current kind).isOver = false) :
    (c.advance current kind).recorded.length = c.recorded.length + 1 := by
  unfold advance at goesOn ⊢
  simp only at goesOn ⊢
  split at goesOn
  · obtain ⟨o, h⟩ := c.finishIdle_eq
    rw [h] at goesOn
    cases goesOn
  · next nonempty =>
    rw [if_neg nonempty]
    split at goesOn
    · rw [isOver_finish] at goesOn
      cases goesOn
    · next within =>
      rw [if_neg within]
      have asked : ∀ answer, ((askOperation { c with steps := c.steps + 1 } kind current
          c.enabledIds).2.assign kind c.enabledIds answer).isOver = false →
          ((askOperation { c with steps := c.steps + 1 } kind current c.enabledIds).2.assign kind
            c.enabledIds answer).recorded.length = c.recorded.length + 1 := by
        intro answer goesOn
        have same : (askOperation { c with steps := c.steps + 1 } kind current
            c.enabledIds).2.recorded = c.recorded := by
          unfold askOperation
          split <;> rfl
        cases answer with
        | error d =>
          simp only [assign, diverge, isOver_finish] at goesOn
          cases goesOn
        | ok chosen =>
          unfold assign at goesOn ⊢
          simp only at goesOn ⊢
          split at goesOn
          · next enabled =>
            rw [if_pos enabled]
            simp only [record, List.length_cons, same]
          · simp only [diverge, isOver_finish] at goesOn
            cases goesOn
      exact asked _ goesOn

/-- The point that comes with a new actor leads to a decision. -/
theorem Sound.step_of_creation {w w' : World σ} (sound : Sound w) (poised : Poised w)
    (running : w.isOver = false) (moved : w.step? = some w') (goesOn : w'.isOver = false)
    (creates : w.AtCreation) :
    w'.AtCreation ∧ w'.controller.recorded = w.controller.recorded ∨
      w'.controller.recorded.length = w.controller.recorded.length + 1 := by
  obtain ⟨x, rest, kind, found⟩ := creates
  obtain ⟨thread, found', _, turn⟩ := sound.holder poised
  have asks : w.caller? (World.threadOf w.controller.scheduled) = some w.controller.scheduled := by
    rw [World.caller?, found]
    exact turn
  unfold Task.ofCreation at kind
  split at kind
  · -- the point becomes the request for a decision
    left
    have executed : w.exec (World.threadOf w.controller.scheduled) (.point .create) =
        .go [.pass .create, .turn] w := by
      simp [World.exec, running, sound.explores, asks, World.ensureKnown]
    rw [World.step?_of_running sound.explores running, World.stepThread?_cons found,
      executed] at moved
    simp only [found, Option.some.injEq] at moved
    subst moved
    refine ⟨⟨.pass .create, .turn :: rest, rfl, ?_⟩, by rw [World.controller_setThread]⟩
    rw [World.controller_setThread]
    exact World.thread?_setThread w found _
  · right
    have decides : w.decision? = some ⟨w.controller, w.controller.scheduled, .create⟩ := by
      simp [World.decision?, World.next?_of_thread found, asks]
    obtain ⟨w₁, moved₁, same⟩ := sound.step_of_decision poised running decides
    obtain rfl := Option.some.inj (moved.symm.trans moved₁)
    have goes : w'.controller.isOver = false := goesOn
    rw [same] at goes ⊢
    exact Controller.recorded_advance goes
  · cases kind

namespace Experiment

/-- As long as an iteration goes on there are at most as many actors as decisions, but for the one
that has just been created. -/
theorem actors_le_decisions (e : Experiment) (accepted : e.registry.Accepted) (ids : Allocator)
    (s : σ) {n : Nat} (running : (e.iterate n ids s).isOver = false) :
    (e.iterate n ids s).actors.length ≤ (e.iterate n ids s).controller.recorded.length ∨
      (e.iterate n ids s).AtCreation ∧
        (e.iterate n ids s).actors.length ≤ (e.iterate n ids s).controller.recorded.length + 1 := by
  induction n with
  | zero => exact .inl (Nat.le_refl 0)
  | succ n ih =>
    have before := e.running_of_succ ids s running
    have counted := ih before
    cases moved : (e.iterate n ids s).step? with
    | none =>
      rw [iterate_succ, moved, Option.getD_none]
      exact counted
    | some w' =>
      have step := e.transition_of_step? running moved
      have same : e.iterate (n + 1) ids s = w' := by rw [iterate_succ, moved, Option.getD_some]
      have more : (e.iterate n ids s).controller.recorded.length ≤
          (e.iterate (n + 1) ids s).controller.recorded.length :=
        (e.evolves accepted ids s (Nat.le_succ n)).controller.recorded.length_le
      rcases step.length_actors with
        kept | ⟨grown, ⟨_, _, _, _, _, asks⟩, w₁, x, rest, creates, turn, made⟩
      · rcases counted with few | ⟨creates, few⟩
        · exact .inl (by omega)
        · rcases (e.sound before).step_of_creation (e.poised before) before (same ▸ moved)
            running creates with ⟨goesOn, recorded⟩ | recorded
          · exact .inr ⟨goesOn, by rw [kept, recorded]; exact few⟩
          · exact .inl (by omega)
      · have few : (e.iterate n ids s).actors.length ≤
            (e.iterate n ids s).controller.recorded.length := by
          rcases counted with few | ⟨⟨y, _, creates, found⟩, _⟩
          · exact few
          · obtain ⟨⟨rfl, _⟩, _⟩ := by simpa [asks] using found
            cases creates
        refine .inr ⟨⟨x, rest, creates, ?_⟩, by omega⟩
        obtain ⟨thread, found, _⟩ := (e.sound running).holder (e.poised running)
        rw [turn, made] at found
        rw [turn, made, found, World.eq_of_thread?_setThread w₁ found]

/-- As long as an iteration goes on and a program has its turn, at most as many numbers are used up
as decisions are recorded. -/
theorem counter_le_decisions (e : Experiment) (accepted : e.registry.Accepted) {ids : Allocator}
    (start : ids.counter = 0) (s : σ) {n : Nat} (running : (e.iterate n ids s).isOver = false)
    {speaker : Speaker} {program : Program}
    (next : (e.iterate n ids s).next? = some (.perform speaker program)) :
    (e.iterate n ids s).ids.counter ≤ (e.iterate n ids s).controller.recorded.length := by
  have numbers := (e.evolves accepted ids s (Nat.zero_le n)).numbers
  rw [show (e.iterate 0 ids s).ids.counter = 0 from start,
    show (e.iterate 0 ids s).actors.length = 0 from rfl] at numbers
  rcases e.actors_le_decisions accepted ids s running with few | ⟨⟨x, rest, creates, found⟩, _⟩
  · omega
  · obtain rfl := Option.some.inj (next.symm.trans (World.next?_of_thread found))
    cases creates

end Experiment

end SteeredActors
