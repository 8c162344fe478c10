import SteeredActors.Proofs.World.Reached

/-!
# Which failures are reported

An action or a test that fails while its run goes on ends the run with a bug, at once and for good.
There is one exception: a failure that is the runtime's own signal to unwind. No call returns it
while the run goes on, but an action may make it up, and then it only unwinds.
-/

set_option autoImplicit false
set_option relaxedAutoImplicit false

namespace SteeredActors

variable {σ : Type}

/-- The ending looks like the runtime's own signal to unwind. -/
def Ending.feigns : Ending → Bool
  | .failed failure => failure.isTermination
  | .ok | .panicked _ => false

namespace World

variable {w : World σ}

theorem outcome_report (running : w.isOver = false) (report : BugReport) :
    (w.report report).controller.outcome =
      some (.bugFound { report with trace := w.controller.trace }) := by
  have none : w.controller.outcome = none := by
    simpa [isOver, Controller.isOver] using running
  simp only [World.report, Controller.reportBug, Controller.terminate, Controller.finish, none]

/-- What becomes of the outcome when a program has failed with an ending: it tells of an action
fault, unless the ending looks like the signal to unwind. -/
structure Complains (w : World σ) (ending : Ending) (w' : World σ) : Prop where
  feigned : ending.feigns = true → w'.controller.outcome = w.controller.outcome
  reported : ending.feigns = false → ∃ report : BugReport, report.kind = .actionFault ∧
    w'.controller.outcome = some (.bugFound report)

private theorem Complains.unwind {w' : World σ} {ending : Ending} (feigns : ending.feigns = true)
    (same : w'.controller = w.controller) : w.Complains ending w' :=
  ⟨fun _ => by rw [same], fun honest => by simp [feigns] at honest⟩

private theorem Complains.report {w' : World σ} {ending : Ending} (honest : ending.feigns = false)
    (running : w'.isOver = false) {report : BugReport} (kind : report.kind = .actionFault) :
    w.Complains ending (w'.report report) :=
  ⟨fun feigns => by simp [honest] at feigns,
    fun _ => ⟨{ report with trace := w'.controller.trace }, kind, outcome_report running report⟩⟩

private theorem complains_finishAction (running : w.isOver = false) {c : Subject} {core : Core}
    (found : w.core? c = some core) (memory : Memory) {ending : Ending} (fails : ending ≠ .ok) :
    ∃ a w₁, w.finishAction c memory ending = .answer a w₁ ∧ w.Complains ending w₁ := by
  have same : (w.modifyCore c fun core => { core with memory }).controller = w.controller := by
    cases c <;> rfl
  have there := core?_modifyCore found fun core => { core with memory }
  unfold finishAction
  generalize w.modifyCore c (fun core => { core with memory }) = w₁ at same there ⊢
  have goesOn : w₁.isOver = false := by rw [isOver, same]; exact running
  cases ending with
  | ok => exact absurd rfl fails
  | failed failure =>
    simp only [goesOn, withCore, there]
    split
    · next feigns => exact ⟨_, _, rfl, .unwind feigns same⟩
    · next honest => exact ⟨_, _, rfl, .report (by simpa [Ending.feigns] using honest) goesOn rfl⟩
  | panicked message =>
    simp only [goesOn, withCore, there]
    exact ⟨_, _, rfl, .report rfl goesOn rfl⟩

private theorem complains_finishTest (running : w.isOver = false) (explores : w.explores = true)
    (memory : Memory) {ending : Ending} (fails : ending ≠ .ok) :
    ∃ w₁, w.finishTest memory ending = .go [.retire .yield] w₁ ∧ w.Complains ending w₁ := by
  unfold finishTest
  have same : ({ w with test := { w.test with memory, ending := some ending } }).controller =
    w.controller := rfl
  generalize { w with test := { w.test with memory, ending := some ending } } = w₁ at same ⊢
  have goesOn : w₁.isOver = false := by rw [isOver, same]; exact running
  have steered : w₁.explores = true := by rw [World.explores, same]; exact explores
  cases ending with
  | ok => exact absurd rfl fails
  | failed failure =>
    simp only [goesOn, steered]
    split
    · next feigns => exact ⟨_, rfl, .unwind feigns same⟩
    · next honest => exact ⟨_, rfl, .report (by simpa [Ending.feigns] using honest) goesOn rfl⟩
  | panicked message =>
    simp only [goesOn, steered]
    exact ⟨_, rfl, .report rfl goesOn rfl⟩

/-- Whoever fails while a run is explored complains. -/
theorem Orderly.complains [Strategy σ] (orderly : w.Orderly) (running : w.isOver = false)
    (explores : w.explores = true) {t : ThreadId} {speaker : Speaker} {memory : Memory}
    {ending : Ending} {rest : List Task} {outside : Bool}
    (found : w.thread? t = some ⟨.perform speaker (.finish memory ending) :: rest, outside⟩)
    (awake : ∀ j, speaker ≠ .sleeper j) (fails : ending ≠ .ok) :
    ∃ w', w.stepThread? t = some w' ∧ w.Complains ending w' := by
  have founded := orderly.founded t _ found _ List.mem_cons_self
  cases speaker with
  | sleeper j => exact absurd rfl (awake j)
  | action c phase =>
    obtain ⟨core, there⟩ := Option.isSome_iff_exists.1 founded
    obtain ⟨a, w₁, finished, complains⟩ := complains_finishAction running there memory fails
    have executed : w.exec t (.perform (.action c phase) (.finish memory ending)) = .answer a w₁ :=
      finished
    refine ⟨w₁.deliverAnswer t a rest, by rw [stepThread?_cons found, executed], ?_⟩
    exact ⟨fun feigns => by rw [outcome_deliverAnswer, complains.feigned feigns],
      fun honest => by rw [outcome_deliverAnswer]; exact complains.reported honest⟩
  | test =>
    obtain ⟨w₁, finished, complains⟩ := complains_finishTest running explores memory fails
    have executed : w.exec t (.perform .test (.finish memory ending)) = .go [.retire .yield] w₁ :=
      finished
    have acts := acts_exec orderly.fit t founded rfl fun _ => id
    rw [executed] at acts
    obtain ⟨thread, kept, _⟩ := acts.1.kept t _ found
    refine ⟨w₁.setThread t { thread with tasks := [.retire .yield] ++ rest }, ?_, ?_⟩
    · rw [stepThread?_cons found, executed]
      simp only [kept]
    · exact ⟨fun feigns => by rw [controller_setThread, complains.feigned feigns],
        fun honest => by rw [controller_setThread]; exact complains.reported honest⟩

end World

/-- What has ended with an outcome keeps it. -/
theorem Experiment.outcome_of_le [Strategy σ] (e : Experiment) {ids : Allocator} {s : σ} {n m : Nat}
    (ceased : (e.iterate n ids s).isOver = true) (le : n ≤ m) :
    (e.iterate m ids s).controller.outcome = (e.iterate n ids s).controller.outcome := by
  induction le with
  | refl => rfl
  | @step m _ ih =>
    have finished : (e.iterate m ids s).isOver = true := by
      rw [World.isOver, Controller.isOver, ih]
      exact ceased
    rw [e.iterate_succ, ← ih]
    cases moved : (e.iterate m ids s).step? with
    | none => rfl
    | some w' => exact World.outcome_step? finished moved

/-- In an explored run that goes on, an action of a machine or a monitor, or the test, fails. Then the
run ends at once with an action fault, and that stays its outcome, unless the failure looks like the
runtime's own signal to unwind: then the run goes on as if nothing had failed. -/
theorem Experiment.reported_of_fails [Strategy σ] (e : Experiment) (accepted : e.registry.Accepted)
    (ids : Allocator) (s : σ) {n : Nat} (running : (e.iterate n ids s).isOver = false)
    {speaker : Speaker} {memory : Memory} {ending : Ending}
    (next : (e.iterate n ids s).next? = some (.perform speaker (.finish memory ending)))
    (awake : ∀ j, speaker ≠ .sleeper j) (fails : ending ≠ .ok) :
    (ending.feigns = false → ∃ report : BugReport, report.kind = .actionFault ∧
      ∀ m > n, (e.iterate m ids s).controller.outcome = some (.bugFound report)) ∧
    (ending.feigns = true → (e.iterate (n + 1) ids s).isOver = false) := by
  obtain ⟨rest, outside, found⟩ := World.thread_of_next? next
  have explores := (e.sound running).explores
  obtain ⟨w', moved, complains⟩ := ((e.reached n ids s).orderly accepted).complains running explores
    found awake fails
  have step : e.iterate (n + 1) ids s = w' := by
    rw [e.iterate_succ, World.step?_of_running explores running, moved, Option.getD_some]
  constructor
  · intro honest
    obtain ⟨report, kind, outcome⟩ := complains.reported honest
    rw [← step] at outcome
    have ceased : (e.iterate (n + 1) ids s).isOver = true := by
      rw [World.isOver, Controller.isOver, outcome]
      rfl
    exact ⟨report, kind, fun m later => (e.outcome_of_le ceased later).trans outcome⟩
  · intro feigns
    rw [step, World.isOver, Controller.isOver, complains.feigned feigns]
    exact running

private def failsWith (ending : Ending) : StateDescriptor :=
  ⟨"Init", true, none, some fun o => .finish o.memory ending, none, []⟩

private def failingDescriptor (ending : Ending) : Descriptor :=
  ⟨"Failing", .machine, [failsWith ending], failsWith ending, []⟩

/-- The test creates a machine whose first entry action fails. -/
def failing (ending : Ending) : Experiment where
  settings := .exploration
  registry := ⟨Timer.descriptors ++ [failingDescriptor ending]⟩
  test := .ask .own (.create "Failing" none none false) fun _ => .finish {} .ok

private theorem accepted_failing (ending : Ending) : (failing ending).registry.Accepted := by
  refine ⟨[failingDescriptor ending], ?_, rfl⟩
  let declared : Declaration :=
    { typeTag := "Failing", kind := .machine, inherited := [], observes := [],
      derived := [failsWith ending] }
  have built : declared.build = .ok (failingDescriptor ending) :=
    Declaration.build_of_plain (by simp [declared, failsWith]) rfl rfl rfl rfl rfl
  simpa using ⟨declared, built⟩

private def turnsOfFailing : ScriptedStrategy := .ofAnswers [.ok 1, .ok 0]

/-- One action gives up with an error of its own, another one with the signal of the runtime, with the
same text. The first one is reported. The run of the second one ends as if nothing had failed. -/
theorem Experiment.reported_of_fails_failing :
    (∃ report : BugReport, report.kind = .actionFault ∧ ∀ m > 7,
      ((failing (.failed (.other "Execution canceled"))).iterate m ⟨0, 0⟩
        turnsOfFailing).controller.outcome = some (.bugFound report)) ∧
    ((failing (.failed (.runtime .canceled))).iterate 8 ⟨0, 0⟩ turnsOfFailing).isOver = false ∧
    ((failing (.failed (.runtime .canceled))).iterate 20 ⟨0, 0⟩
      turnsOfFailing).controller.outcome = some .quiescent := by
  refine ⟨?_, ?_, rfl⟩
  · have next : ((failing (.failed (.other "Execution canceled"))).iterate 7 ⟨0, 0⟩
        turnsOfFailing).next? = some (.perform (.action (.actor 0) .entry)
          (.finish {} (.failed (.other "Execution canceled")))) := rfl
    exact ((failing _).reported_of_fails (accepted_failing _) _ _ rfl next (by simp) (by simp)).1 rfl
  · have next : ((failing (.failed (.runtime .canceled))).iterate 7 ⟨0, 0⟩ turnsOfFailing).next? =
        some (.perform (.action (.actor 0) .entry) (.finish {} (.failed (.runtime .canceled)))) := rfl
    exact ((failing _).reported_of_fails (accepted_failing _) _ _ rfl next (by simp) (by simp)).2 rfl

end SteeredActors
