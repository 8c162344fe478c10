import SteeredActors.Proofs.World.Runs

/-!
# Scheduling decisions

A decision is taken where the holder of the turn passes it on and where it is done. At every decision
of a run without an outcome an actor is idle exactly when its operation is disabled, and whoever is
idle has nothing to do: no wake-up was lost. So a run that ends for lack of enabled operations has
nothing left to select.
-/

set_option autoImplicit false
set_option relaxedAutoImplicit false

namespace SteeredActors

variable {σ : Type}

/-- A question who goes next: the controller that is asked, and for which operation at which point. -/
structure Decision (σ : Type) where
  controller : Controller σ
  current : Nat
  kind : PointKind

/-- The decision that comes with the next step, if the holder of the turn passes it on or is done. -/
def World.decision? (w : World σ) : Option (Decision σ) :=
  let t := World.threadOf w.controller.scheduled
  match w.next? with
  | some (.pass kind) => (w.caller? t).map fun op => ⟨w.controller, op, kind⟩
  | some (.retire kind) =>
    (w.operation? t).map fun op =>
      ⟨w.controller.setStatus op [.enabled, .disabled, .blocked] .completed, op, kind⟩
  | _ => none

/-- Mailbox, operation and interpreter of an actor agree. -/
structure Actor.Agrees (policy : DequeuePolicy) (s : Option OperationStatus) (a : Actor) : Prop where
  idle : a.mailbox.status = .idle ↔ s = some .disabled
  busy : a.mailbox.status = .uninitialized ∨ a.mailbox.status = .running →
    s = some .enabled ∨ s = some .blocked
  halted : a.mailbox.status = .halted → s = some .completed
  resting : a.mailbox.status = .idle → a.Resting policy

/-- An actor that has halted, or is idle with nothing to select. -/
def Actor.AtRest (policy : DequeuePolicy) (a : Actor) : Prop :=
  a.mailbox.status = .halted ∧ a.mailbox.queue = [] ∨
    a.mailbox.status = .idle ∧ a.Resting policy

/-- An actor whose operation can not go on is at rest. -/
theorem Actor.Agrees.atRest {policy : DequeuePolicy} {s : Option OperationStatus} {a : Actor}
    (agrees : a.Agrees policy s) (tidy : a.Tidy) (enabled : s ≠ some .enabled)
    (blocked : s ≠ some .blocked) : a.AtRest policy := by
  cases status : a.mailbox.status with
  | halted => exact .inl ⟨status, tidy.queue status⟩
  | idle => exact .inr ⟨status, agrees.resting status⟩
  | uninitialized =>
    rcases agrees.busy (.inl status) with h | h
    · exact absurd h enabled
    · exact absurd h blocked
  | running =>
    rcases agrees.busy (.inr status) with h | h
    · exact absurd h enabled
    · exact absurd h blocked

/-- The tasks at which the mailbox of a running actor may have halted while its operation has not
completed. -/
private def Task.unsettled : Task → Bool
  | .wake _ | .cycle _ | .settle _ _ _ | .retire _ => true
  | _ => false

/-- An actor agrees with its operation unless it is on its way out. -/
private theorem ActorStage.agrees {policy : DequeuePolicy} {i : Nat} {holds : Prop}
    {s : OperationStatus} {a : Actor} (stage : ActorStage policy i holds s a)
    (settled : holds → ∀ x ∈ a.thread.tasks.head?, x.unsettled = false) :
    a.Agrees policy (some s) := by
  have absurd_of : ∀ {x rest outside} {p : Prop}, holds → a.thread = ⟨x :: rest, outside⟩ →
      x.unsettled = true → p := by
    intro x rest outside p turn thread unsettled
    have := settled turn x (by simp [thread])
    rw [unsettled] at this
    cases this
  cases stage with
  | fresh thread status enabled =>
    subst enabled
    exact ⟨by simp [status], fun _ => .inl rfl, by simp [status], by simp [status]⟩
  | called turn thread => exact absurd_of turn thread rfl
  | working thread works grounded status active =>
    refine ⟨?_, fun _ => ?_, by simp [status], by simp [status]⟩
    · rcases active with rfl | rfl <;> simp [status]
    · rcases active with rfl | rfl
      · exact .inl rfl
      · exact .inr rfl
  | halting turn thread =>
    rcases thread with thread | ⟨r, handled, thread⟩
    · exact absurd_of turn thread rfl
    · exact absurd_of turn thread rfl
  | pausing _ _ parked | resting _ parked =>
    rcases parked with ⟨status, rfl, resting⟩ | ⟨status, rfl, _⟩
    · exact ⟨by simp [status], by simp [status], by simp [status], fun _ => resting⟩
    · exact ⟨by simp [status], fun _ => .inl rfl, by simp [status], by simp [status]⟩
  | retiring turn kind thread => exact absurd_of turn thread rfl
  | gone _ status completed =>
    subst completed
    exact ⟨by simp [status], by simp [status], fun _ => rfl, by simp [status]⟩

namespace World

variable {w : World σ} {d : Decision σ}

/-- Who is asked for holds the turn. -/
theorem decision?_inv (h : Sound w) (poised : Poised w) (decides : w.decision? = some d) :
    d.current = w.controller.scheduled ∧
      (w.next? = some (.pass d.kind) ∧ d.controller = w.controller ∨
        w.next? = some (.retire d.kind) ∧
          d.controller = w.controller.setStatus w.controller.scheduled
            [.enabled, .disabled, .blocked] .completed) := by
  obtain ⟨thread, found, _, turn⟩ := h.holder poised
  have same : ∀ op, w.caller? (threadOf w.controller.scheduled) = some op →
      op = w.controller.scheduled := by
    intro op asks
    rw [caller?, found] at asks
    simp only [turn] at asks
    split at asks
    · cases asks
    · exact (Option.some.inj asks).symm
  simp only [decision?] at decides
  split at decides
  · next kind next =>
    obtain ⟨op, asks, rfl⟩ := Option.map_eq_some_iff.1 decides
    exact ⟨same op asks, .inl ⟨next, rfl⟩⟩
  · next kind next =>
    obtain ⟨op, asks, rfl⟩ := Option.map_eq_some_iff.1 decides
    obtain rfl := Option.some.inj (turn.symm.trans asks)
    exact ⟨rfl, .inr ⟨next, rfl⟩⟩
  · cases decides

end World

namespace Sound

variable {w : World σ} {d : Decision σ}

/-- At a decision every actor agrees with its operation. -/
theorem agrees (h : Sound w) (poised : Poised w) (decides : w.decision? = some d) {i : Nat}
    {a : Actor} (found : w.actors[i]? = some a) :
    a.Agrees w.policy (d.controller.status? a.operation) := by
  have stands := h.actors i a found
  obtain ⟨s, status, stage⟩ := stands.stage
  rw [stands.operation]
  -- Whoever holds the turn has the deciding task at the head of its thread.
  have head : w.controller.scheduled = i + 1 → w.next? = a.thread.tasks.head? := by
    intro turn
    simp [World.next?, turn, World.threadOf, World.thread?, found]
  obtain ⟨_, ⟨next, same⟩ | ⟨next, same⟩⟩ := World.decision?_inv h poised decides
  · rw [same, status]
    refine stage.agrees ?_
    intro turn x hx
    rw [← head turn, next] at hx
    cases hx
    rfl
  · rw [same, Controller.status?_setStatus, status]
    by_cases turn : w.controller.scheduled = i + 1
    · -- Only an actor that has halted is done.
      have retiring : a.mailbox.status = .halted := by
        have first : a.thread.tasks.head? = some (.retire d.kind) := by rw [← head turn, next]
        cases stage with
        | retiring _ _ _ status => exact status
        | working thread works =>
          rw [thread] at first
          cases works with
          | cons fits => cases first; exact fits.elim
          | cycle | settle | handle | test | testWaits | collect | waits => cases first
        | halting _ thread =>
          rcases thread with thread | ⟨r, handled, thread⟩ <;> rw [thread] at first <;> cases first
        | fresh thread | called _ thread | pausing _ thread | resting thread | gone thread =>
          rw [thread] at first
          cases first
      have completed : (if i + 1 = w.controller.scheduled ∧
          s ∈ [OperationStatus.enabled, .disabled, .blocked] then OperationStatus.completed else s) =
          .completed := by
        cases s <;> simp [turn]
      rw [Option.map_some, completed]
      exact ⟨by simp [retiring], by simp [retiring], fun _ => rfl, by simp [retiring]⟩
    · have other : ¬(i + 1 = w.controller.scheduled ∧
          s ∈ [OperationStatus.enabled, .disabled, .blocked]) := fun e => turn e.1.symm
      rw [Option.map_some, if_neg other]
      exact stage.agrees fun holds => absurd holds turn

/-- At a decision the test is at work or done. -/
theorem completed_of_decision (h : Sound w) (poised : Poised w) (decides : w.decision? = some d)
    (enabled : d.controller.status? 0 ≠ some .enabled)
    (blocked : d.controller.status? 0 ≠ some .blocked) :
    d.controller.status? 0 = some .completed := by
  obtain ⟨s, status, stage⟩ := h.driver
  obtain ⟨_, ⟨next, same⟩ | ⟨next, same⟩⟩ := World.decision?_inv h poised decides
  · rw [same, status] at enabled blocked ⊢
    cases stage with
    | working _ active =>
      rcases active with rfl | rfl
      · exact absurd rfl enabled
      · exact absurd rfl blocked
    | retiring _ _ e => exact absurd (congrArg some e) enabled
    | gone _ completed => rw [completed]
  · rw [same, Controller.status?_setStatus, status] at enabled blocked ⊢
    by_cases turn : 0 = w.controller.scheduled
    · cases s <;> simp [← turn]
    · simp only [turn, false_and, if_false, Option.map_some] at enabled blocked ⊢
      cases stage with
      | working _ active =>
        rcases active with rfl | rfl
        · exact absurd rfl enabled
        · exact absurd rfl blocked
      | retiring _ _ e => exact absurd (congrArg some e) enabled
      | gone _ completed => rw [completed]

variable [Strategy σ]

/-- The step that comes with a decision lets the controller take it. -/
theorem step_of_decision (h : Sound w) (poised : Poised w) (running : w.isOver = false)
    (decides : w.decision? = some d) :
    ∃ w', w.step? = some w' ∧ w'.controller = d.controller.advance d.current d.kind := by
  obtain ⟨current, cases⟩ := World.decision?_inv h poised decides
  obtain ⟨thread, found, _, turn⟩ := h.holder poised
  obtain ⟨s, status⟩ := h.status_of_thread found
  have mode := World.mode_of_explores h.explores
  have ceased : w.controller.isOver = false := running
  rw [World.step?_of_running h.explores running, current]
  rcases cases with ⟨next, same⟩ | ⟨next, same⟩
  · obtain ⟨rest, outside, found⟩ := World.thread_of_next? next
    have asks : w.caller? (World.threadOf w.controller.scheduled) =
        some w.controller.scheduled := by
      have decided := decides
      simp only [World.decision?, next] at decided
      obtain ⟨op, asks, e⟩ := Option.map_eq_some_iff.1 decided
      rw [asks, ← current, ← e]
    have executed : w.exec (World.threadOf w.controller.scheduled) (.pass d.kind) =
        .go [] { w with
          controller := (w.controller.schedule w.controller.scheduled d.kind).2 } := by
      simp [World.exec, asks]
    have advanced : (w.controller.schedule w.controller.scheduled d.kind).2 =
        w.controller.advance w.controller.scheduled d.kind := by
      simp [Controller.schedule, ceased, mode, status]
    rw [World.stepThread?_cons found, executed]
    simp only [World.thread?_setController, found]
    refine ⟨_, rfl, ?_⟩
    rw [World.controller_setThread, same]
    exact advanced
  · obtain ⟨rest, outside, found⟩ := World.thread_of_next? next
    have executed : w.exec (World.threadOf w.controller.scheduled) (.retire d.kind) =
        .go [] { w with
          controller := w.controller.complete w.controller.scheduled d.kind } := by
      simp [World.exec, turn]
    have advanced : w.controller.complete w.controller.scheduled d.kind =
        d.controller.advance w.controller.scheduled d.kind := by
      have exploring : (w.controller.setStatus w.controller.scheduled
          [.enabled, .disabled, .blocked] .completed).explores = true := h.explores
      have goes : (w.controller.setStatus w.controller.scheduled
          [.enabled, .disabled, .blocked] .completed).isOver = false := ceased
      simp [Controller.complete, exploring, goes, same]
    rw [World.stepThread?_cons found, executed]
    simp only [World.thread?_setController, found]
    refine ⟨_, rfl, ?_⟩
    rw [World.controller_setThread]
    exact advanced

/-- Who reaches a scheduling point passes the turn on next. -/
theorem passes_of_point (h : Sound w) (running : w.isOver = false) {t : ThreadId} {op : Nat}
    (asks : w.operation? t = some op) {kind : PointKind} {rest : List Task}
    (found : w.thread? t = some ⟨.point kind :: rest, false⟩) :
    w.stepThread? t = some (w.setThread t ⟨.pass kind :: .turn :: rest, false⟩) := by
  have executed : w.exec t (.point kind) = .go [.pass kind, .turn] w := by
    simp [World.exec, running, h.explores, World.caller?, found, asks, World.ensureKnown]
  rw [World.stepThread?_cons found, executed]
  simp [found]

/-- Whoever engages with an actor opens a rendezvous, posts the event and passes the turn on next. -/
theorem step_of_engage (h : Sound w) (poised : Poised w) {i : Nat} {event : Event}
    {rest : List Task} {outside : Bool}
    (found : w.thread? (World.threadOf w.controller.scheduled) =
      some ⟨.engage i event :: rest, outside⟩) :
    ∃ w₁ : World σ, w₁.actors = w.actors ∧
      w₁.rendezvous = w.rendezvous ++ [⟨some w.controller.scheduled, none⟩] ∧
      w₁.thread? (World.threadOf w.controller.scheduled) =
        w.thread? (World.threadOf w.controller.scheduled) ∧
      w.stepThread? (World.threadOf w.controller.scheduled) =
        some ((w₁.enqueue i ⟨event, some w.rendezvous.length⟩).setThread
          (World.threadOf w.controller.scheduled)
          ⟨.pass .rendezvous :: .turn :: .collect w.rendezvous.length :: rest, false⟩) := by
  obtain ⟨_, found', posture, turn⟩ := h.holder poised
  obtain rfl := Option.some.inj (found.symm.trans found')
  obtain rfl : outside = false := by
    cases posture with
    | working works =>
      cases works with
      | cons fits => exact fits.1
  have executed := World.exec_engage found h.explores turn
  generalize ht : World.threadOf w.controller.scheduled = t at *
  generalize w.controller.scheduled = op at *
  obtain ⟨w₁, hw₁⟩ : ∃ w₁, w₁ = (w.openRendezvous (some op)).2.blockCaller (some op) := ⟨_, rfl⟩
  rw [← hw₁] at executed
  have parts : w₁.actors = w.actors ∧ w₁.rendezvous = w.rendezvous ++ [⟨some op, none⟩] := by
    rw [hw₁]
    unfold World.blockCaller
    simp only
    split <;> exact ⟨rfl, by simp [World.openRendezvous, h.explores]⟩
  have same : w₁.thread? t = w.thread? t := by
    rw [hw₁, World.thread?_blockCaller, World.thread?_openRendezvous]
  refine ⟨w₁, parts.1, parts.2, same, ?_⟩
  have kept := (World.thread?_enqueue w₁ t i ⟨event, some w.rendezvous.length⟩).trans
    (same.trans found)
  rw [World.stepThread?_cons found, executed]
  simp only [kept]
  rfl

end Sound

/-- The turn is handed over by decisions only. -/
theorem Transition.scheduled [Strategy σ] {t : ThreadId} {w w' : World σ}
    (step : Transition t w w') :
    w'.controller.scheduled = w.controller.scheduled ∨
      ∃ x rest, w.thread? t = some ⟨x :: rest, false⟩ ∧
        ∃ kind, x = .pass kind ∨ x = .retire kind := by
  have enqueued := fun (w : World σ) i envelope => (Attends.enqueue w i envelope).scheduled
  have added : ∀ (w : World σ) id descriptor event rendezvous,
      (w.addActor id descriptor event rendezvous).controller.scheduled =
        w.controller.scheduled := by
    intro w id descriptor event rendezvous
    simp [World.addActor, Controller.register]
  have discarded := fun (w : World σ) envelopes => (Relieves.discard w envelopes).controller.scheduled
  cases step
  case passes kind op tasks found _ _ => exact .inr ⟨_, _, found, kind, .inl rfl⟩
  case retires kind op found _ => exact .inr ⟨_, _, found, kind, .inr rfl⟩
  all_goals refine .inl ?_; rw [World.controller_setThread]
  case works still _ _ _ => exact still.controller.scheduled
  case ends still => exact still.controller.scheduled
  case unwinds still => exact (Attends.abandon _ _).scheduled.trans still.controller.scheduled
  case posts => exact enqueued _ _ _
  case engages => exact (enqueued _ _ _).trans (World.scheduled_blockCaller _ _)
  case creates still _ _ _ => exact (added _ _ _ _ _).trans still.controller.scheduled
  case createsAndWaits still _ _ =>
    exact (World.scheduled_blockCaller _ _).trans
      ((added _ _ _ _ _).trans still.controller.scheduled)
  case settles =>
    split
    · exact (Relieves.reply w _ _).controller.scheduled
    · rfl
  case halts => exact (Attends.halt _ _).scheduled
  case selects | defaults => exact discarded _ _
  case idles => exact (World.scheduled_rested _ _ _).trans (discarded _ _)
  case starves => exact World.scheduled_rested _ _ _
  all_goals rfl

/-- Without a decision the turn stays where it is. -/
theorem Sound.scheduled_of_undecided [Strategy σ] {w w' : World σ} (h : Sound w) (poised : Poised w)
    (step : Transition (World.threadOf w.controller.scheduled) w w')
    (undecided : w.decision? = none) : w'.controller.scheduled = w.controller.scheduled := by
  rcases step.scheduled with same | ⟨x, rest, found, kind, asks⟩
  · exact same
  · exfalso
    obtain ⟨_, _, _, turn⟩ := h.holder poised
    have next := World.next?_of_thread found
    have caller : w.caller? (World.threadOf w.controller.scheduled) =
        some w.controller.scheduled := by
      simp [World.caller?, found, turn]
    rcases asks with rfl | rfl
    · simp [World.decision?, next, caller] at undecided
    · simp [World.decision?, next, turn] at undecided

namespace Experiment

/-! ## No wake-up is lost -/

variable [Strategy σ]

omit [Strategy σ] in
private theorem atRest_of_idle {c : Controller σ} {policy : DequeuePolicy} {a : Actor}
    (numbered : c.Numbered) (idle : c.enabledIds = []) (tidy : a.Tidy)
    (agrees : a.Agrees policy (c.status? a.operation))
    (unblocked : c.status? a.operation ≠ some .blocked) : a.AtRest policy := by
  refine agrees.atRest tidy ?_ unblocked
  intro enabled
  have := (Controller.mem_enabledIds_iff numbered a.operation).2 enabled
  simp [idle] at this

/-- At every scheduling decision of a run without an outcome each actor agrees with its operation.
So the controller ends a run as quiescent only when the test is done, nobody waits for a reply and
every actor is at rest, and it reports a deadlock only when all who do not wait are at rest. -/
theorem no_lost_wakeup (e : Experiment) (ids : Allocator) (s : σ) {n : Nat} {d : Decision σ}
    (running : (e.iterate n ids s).isOver = false)
    (decides : (e.iterate n ids s).decision? = some d) :
    let policy := e.settings.runtime.dequeuePolicy
    let ended := (e.iterate (n + 1) ids s).controller.outcome
    (∀ a ∈ (e.iterate n ids s).actors, a.Agrees policy (d.controller.status? a.operation)) ∧
      (e.iterate (n + 1) ids s).controller = d.controller.advance d.current d.kind ∧
      (ended = some .quiescent →
        d.controller.status? Controller.driverOperation = some .completed ∧
          (∀ op, d.controller.status? op ≠ some .blocked) ∧
          ∀ a ∈ (e.iterate n ids s).actors, a.AtRest policy) ∧
      ∀ report, ended = some (.bugFound report) →
        report.kind = .deadlock ∧
          ∀ a ∈ (e.iterate n ids s).actors,
            d.controller.status? a.operation ≠ some .blocked → a.AtRest policy := by
  have sound := e.sound running
  have poised := e.poised running
  have agrees : ∀ a ∈ (e.iterate n ids s).actors,
      a.Agrees e.settings.runtime.dequeuePolicy (d.controller.status? a.operation) := by
    intro a ha
    obtain ⟨i, found⟩ := List.getElem?_of_mem ha
    rw [← e.policy_iterate running]
    exact sound.agrees poised decides found
  have tidy : ∀ a ∈ (e.iterate n ids s).actors, a.Tidy := by
    intro a ha
    obtain ⟨i, found⟩ := List.getElem?_of_mem ha
    exact (sound.actors i a found).tidy
  have advanced : (e.iterate (n + 1) ids s).controller =
      d.controller.advance d.current d.kind := by
    obtain ⟨w', moved, same⟩ := sound.step_of_decision poised running decides
    rw [iterate_succ, moved, Option.getD_some, same]
  obtain ⟨_, cases⟩ := World.decision?_inv sound poised decides
  have numbered : d.controller.Numbered := by
    rcases cases with ⟨_, same⟩ | ⟨_, same⟩
    · rw [same]
      exact sound.numbered
    · rw [same, Controller.Numbered, Controller.ids_setStatus]
      exact sound.numbered
  have goes : d.controller.isOver = false := by
    rcases cases with ⟨_, same⟩ | ⟨_, same⟩
    · rw [same]
      exact running
    · rw [same]
      exact running
  have none : d.controller.outcome = none := by simpa [Controller.isOver] using goes
  refine ⟨agrees, advanced, ?_, ?_⟩
  · intro quiescent
    rw [advanced] at quiescent
    obtain ⟨idle, ended⟩ := Controller.enabledIds_of_outcome goes quiescent (by simp) rfl
    have unblocked : ∀ op, d.controller.status? op ≠ some .blocked := by
      intro op blocked
      obtain ⟨x, hx, _⟩ := (Controller.mem_withStatus_iff numbered .blocked op).2 blocked
      rw [ended] at quiescent
      cases waiting : d.controller.withStatus .blocked with
      | nil => simp [waiting] at hx
      | cons => simp [Controller.finishIdle, waiting, Controller.finish, none] at quiescent
    have unenabled : ∀ op, d.controller.status? op ≠ some .enabled := by
      intro op enabled
      have := (Controller.mem_enabledIds_iff numbered op).2 enabled
      simp [idle] at this
    exact ⟨sound.completed_of_decision poised decides (unenabled 0) (unblocked 0), unblocked,
      fun a ha => atRest_of_idle numbered idle (tidy a ha) (agrees a ha) (unblocked _)⟩
  · intro report bug
    rw [advanced] at bug
    obtain ⟨idle, ended⟩ := Controller.enabledIds_of_outcome goes bug (by simp) rfl
    refine ⟨?_, fun a ha => atRest_of_idle numbered idle (tidy a ha) (agrees a ha)⟩
    rw [ended] at bug
    cases waiting : d.controller.withStatus .blocked with
    | nil => simp [Controller.finishIdle, waiting, Controller.finish, none] at bug
    | cons x blocked =>
      simp only [Controller.finishIdle, waiting, Controller.finish, none, Option.some.injEq,
        Outcome.bugFound.injEq] at bug
      rw [← bug]
      rfl

/-- One machine that takes an event and does nothing. -/
def echo : Descriptor :=
  let only : StateDescriptor :=
    ⟨"Only", true, none, none, none, [(⟨"Ping"⟩, .action fun o => .finish o.memory .ok)]⟩
  ⟨"Echo", .machine, [only], only, []⟩

/-- The test creates the machine and sends it an event, and waits both times. -/
def calling : Experiment where
  settings := .exploration
  registry := ⟨[echo]⟩
  test :=
    .ask .own (.create "Echo" (some "echo") none true) fun
      | .ok (.actor id) =>
        .ask .own (.sendAndExecute id (.ofType ⟨"Ping"⟩)) fun _ => .finish {} .ok
      | _ => .finish {} .ok

/-- The turns of the machine and the test in such a run. -/
def turns : ScriptedStrategy := .ofAnswers [.ok 1, .ok 0, .ok 1, .ok 0]

/-- The run ends as quiescent with the machine at rest. -/
theorem no_lost_wakeup_calling :
    (calling.iterate 25 ⟨0, 0⟩ turns).isOver = false ∧
      (calling.iterate 25 ⟨0, 0⟩ turns).decision?.isSome = true ∧
      (calling.iterate 26 ⟨0, 0⟩ turns).controller.outcome = some .quiescent ∧
      ∀ a ∈ (calling.iterate 25 ⟨0, 0⟩ turns).actors, a.AtRest .firstNonDeferred := by
  obtain ⟨d, decides⟩ : ∃ d, (calling.iterate 25 ⟨0, 0⟩ turns).decision? = some d := ⟨_, rfl⟩
  exact ⟨rfl, rfl, rfl, ((no_lost_wakeup calling _ _ rfl decides).2.2.1 rfl).2.2⟩

end Experiment

end SteeredActors
