import SteeredActors.Proofs.Descriptor.Subscriptions
import SteeredActors.Proofs.World.Registrations

/-!
# Events that monitors are handed

A monitor keeps the subscriptions of its descriptor for good, and its descriptor is one of the
registry. So what is sent is forwarded to the registered monitors whose declarations ask for it; the
reserved event only to those that were told to observe it.
-/

set_option autoImplicit false
set_option relaxedAutoImplicit false

namespace SteeredActors

variable {σ : Type}

namespace World

variable {w w' : World σ} {t : ThreadId}

/-- What monitors are subscribed to. -/
def subscribed (w : World σ) : List (List EventType) := w.monitors.map (·.subscriptions)

theorem subscribed_eq (same : w'.standing = w.standing) : w'.subscribed = w.subscribed := by
  have told : ∀ w : World σ, w.subscribed = w.standing.map (·.2) := fun w => by
    simp [subscribed, standing, Monitor.standing]
  rw [told, told, same]

theorem subscribed_setThread (w : World σ) (t : ThreadId) (thread : Thread) :
    (w.setThread t thread).subscribed = w.subscribed := by
  cases t <;> rfl

theorem subscribed_deliverAnswer (w : World σ) (t : ThreadId) (a : Answer) (tasks : List Task) :
    (w.deliverAnswer t a tasks).subscribed = w.subscribed := by
  induction tasks generalizing w with
  | nil =>
    cases t with
    | driver | sleeper j => rfl
    | actor i =>
      exact (subscribed_setThread _ _ _).trans
        (subscribed_eq (Retains.abandon (t := .driver) w i).standing)
  | cons x rest ih =>
    cases x
    case resume => exact subscribed_setThread _ _ _
    case release m | enlist m => exact (ih _).trans (w.map_monitors_modifyMonitor m fun _ => rfl)
    all_goals exact ih w

variable [Strategy σ]

/-- A step changes no subscriptions; it may add a monitor with those of its descriptor. -/
theorem subscribed_of_stepThread? (moved : w.stepThread? t = some w') :
    w'.subscribed = w.subscribed ∨ ∃ id d,
      w'.monitors = w.monitors ++ [⟨.new id d, d.subscriptions, .starting, false⟩] := by
  obtain ⟨x, rest, outside, found, steps⟩ := of_stepThread? moved
  cases registers : x.registers with
  | false =>
    have kept := standing_exec w t found registers
    rcases steps with ⟨xs, w₁, old, executed, _, rfl⟩ | ⟨a, w₁, executed, rfl⟩ <;>
      rw [executed] at kept
    · exact .inl ((subscribed_setThread ..).trans (subscribed_eq kept.1))
    · exact .inl ((subscribed_deliverAnswer ..).trans (subscribed_eq kept))
  | true =>
    cases x
    case enlist m =>
      rcases steps with ⟨xs, w₁, old, executed, _, rfl⟩ | ⟨a, w₁, executed, _⟩ <;> cases executed
      exact .inl ((subscribed_setThread ..).trans (w.map_monitors_modifyMonitor m fun _ => rfl))
    case install d id =>
      rcases w.exec_install t d id with ⟨waits, _⟩ | ⟨r, answers⟩ | ⟨_, goes⟩
      all_goals rcases steps with ⟨xs, w₁, old, executed, _, rfl⟩ | ⟨a, w₁, executed, rfl⟩
      · cases waits.symm.trans executed
      · cases waits.symm.trans executed
      · cases answers.symm.trans executed
      · cases answers.symm.trans executed
        exact .inl (subscribed_deliverAnswer ..)
      · cases goes.symm.trans executed
        refine .inr ⟨id, d, ?_⟩
        cases t <;> rfl
      · cases goes.symm.trans executed
    all_goals cases registers

omit [Strategy σ] in
/-- Monitors are subscribed to what their descriptors say, and their descriptors are of the
registry. -/
structure Attuned (w : World σ) : Prop where
  offered : ∀ m core, w.core? (.monitor m) = some core →
    ∃ typeTag, w.registry.monitor? typeTag = some core.descriptor
  subscribes : ∀ (m : Nat) (a : Monitor), w.monitors[m]? = some a →
    a.subscriptions = a.core.descriptor.subscriptions

namespace Attuned

theorem move (attuned : w.Attuned) (orderly : w.Orderly) (moves : w.Moves w') : w'.Attuned := by
  have evolves := orderly.evolves moves
  refine ⟨fun m core found => ?_, fun m a there => ?_⟩
  · rw [evolves.registry]
    cases before : w.core? (.monitor m) with
    | some old =>
      obtain ⟨core', found', becomes⟩ := evolves.cores _ old before
      obtain rfl := Option.some.inj (found.symm.trans found')
      exact becomes.descriptor ▸ attuned.offered m old before
    | none =>
      obtain ⟨_, id, typeTag, d, offered, _, becomes⟩ := evolves.fresh _ core before found
      exact ⟨typeTag, becomes.descriptor ▸ offered⟩
  · have found : w'.core? (.monitor m) = some a.core := by simp [core?, there]
    cases moves with
    | waits | drives | stops => exact attuned.subscribes m a there
    | does moved =>
      rcases subscribed_of_stepThread? moved with same | ⟨id, d, more⟩
      · have listed : w.subscribed[m]? = some a.subscriptions := by
          rw [← same]
          simp [subscribed, there]
        rw [subscribed, List.getElem?_map] at listed
        obtain ⟨old, before, same⟩ := Option.map_eq_some_iff.1 listed
        obtain ⟨core', found', becomes⟩ :=
          evolves.cores (.monitor m) old.core (by simp [core?, before])
        obtain rfl := Option.some.inj (found.symm.trans found')
        rw [← same, becomes.descriptor, attuned.subscribes m old before]
      · rw [more] at there
        rcases Nat.lt_or_ge m w.monitors.length with old | new
        · rw [List.getElem?_append_left old] at there
          exact attuned.subscribes m a there
        · rw [List.getElem?_append_right new, List.getElem?_singleton] at there
          split at there
          · cases there
            rfl
          · cases there

end Attuned

theorem Reached.attuned {registry : Registry} (accepted : registry.Accepted)
    (reached : World.Reached registry w) : w.Attuned ∧ w.registry = registry := by
  obtain ⟨controller, policy, ids, test, moves⟩ := reached
  induction moves with
  | refl =>
    refine ⟨⟨fun m core found => ?_, fun m a there => ?_⟩, rfl⟩
    · cases found
    · cases there
  | tail before moves ih =>
    have orderly := World.Reached.orderly accepted ⟨controller, policy, ids, test, before⟩
    exact ⟨ih.1.move orderly moves, (orderly.evolves moves).registry.trans ih.2⟩

/-- What is forwarded to a monitor. -/
structure Attends (w : World σ) (m : Nat) (a : Monitor) (decl : Declaration) : Prop where
  built : decl.build = .ok a.core.descriptor
  monitor : decl.kind = .monitor
  /-- It is handed what is sent if it is registered and subscribes to it. -/
  handed : ∀ t event tasks w', w.exec t (.forward event) = .go tasks w' →
    (.deliver m event ∈ tasks ↔
      a.stage = .listed ∧ event.type ∈ a.core.descriptor.subscriptions)
  /-- It is handed the reserved event only if it was told to observe it. -/
  reserved : ∀ t event tasks w', w.exec t (.forward event) = .go tasks w' →
    event.type = .default → .deliver m event ∈ tasks → .default ∈ decl.observes

/-- What a monitor is handed is told by the declaration that its descriptor was built from. -/
theorem attends_of_declared {registry : Registry} (accepted : registry.Accepted) :
    (∀ (decl : Declaration) d, decl.build = .ok d → decl.kind = .monitor → decl.Subscribes d) ∧
      ∀ w : World σ, World.Reached registry w → ∀ (m : Nat) (a : Monitor),
        w.monitors[m]? = some a → ∃ decl, w.Attends m a decl := by
  refine ⟨fun decl d built monitor => Declaration.subscribes_of_build built monitor, ?_⟩
  intro w reached m a there
  obtain ⟨attuned, rfl⟩ := reached.attuned accepted
  obtain ⟨typeTag, offered⟩ := attuned.offered m a.core (by simp [core?, there])
  obtain ⟨decl, built, monitor⟩ := accepted.declared offered
  have handed : ∀ t event tasks w', w.exec t (.forward event) = .go tasks w' →
      (.deliver m event ∈ tasks ↔
        a.stage = .listed ∧ event.type ∈ a.core.descriptor.subscriptions) := by
    intro t event tasks w' goes
    simp only [exec] at goes
    split at goes
    · cases goes
    · cases goes
      rw [← attuned.subscribes m a there]
      simp [mem_observers, standing, Monitor.standing, there]
  refine ⟨decl, built, monitor, handed, fun t event tasks w' goes same delivered => ?_⟩
  have subscribed := ((handed t event tasks w' goes).1 delivered).2
  rw [same] at subscribed
  exact (Declaration.subscribes_of_build built monitor).reserved.1 subscribed

end World

/-! ## Two monitors and the reserved event -/

private def calm : StateDescriptor :=
  ⟨"Calm", true, none, none, none, [(⟨"Alarm"⟩, .goto "Alert" none)]⟩

private def alert : StateDescriptor :=
  ⟨"Alert", false, none, none, none, [(.default, .goto "Calm" none)]⟩

private def passive : StateDescriptor := ⟨"Init", true, none, none, none, [(.default, .ignore)]⟩

/-- A monitor whose states name the reserved event. -/
private def sentry : Declaration :=
  { typeTag := "Sentry", kind := .monitor, inherited := [], observes := [],
    derived := [calm, alert] }

/-- A monitor that observes the reserved event. -/
private def auditor : Declaration :=
  { typeTag := "Auditor", kind := .monitor, inherited := [], observes := [.default],
    derived := [passive] }

private def target : Declaration :=
  { typeTag := "Target", kind := .machine, inherited := [], observes := [], derived := [passive] }

private def sentryDescriptor : Descriptor := ⟨"Sentry", .monitor, [calm, alert], calm, []⟩

private def auditorDescriptor : Descriptor :=
  ⟨"Auditor", .monitor, [passive], passive, [.default]⟩

private def targetDescriptor : Descriptor := ⟨"Target", .machine, [passive], passive, []⟩

/-- The test registers both monitors and sends the reserved event to a machine. -/
def auditing : Experiment where
  settings := .exploration
  registry := ⟨Timer.descriptors ++ [sentryDescriptor, auditorDescriptor, targetDescriptor]⟩
  test :=
    .ask .own (.registerMonitor "Sentry") fun _ =>
      .ask .own (.registerMonitor "Auditor") fun _ =>
        .ask .own (.create "Target" none none false) fun
          | .ok (.actor id) => .ask .own (.send id (.ofType .default)) fun _ => .finish {} .ok
          | _ => .finish {} .ok

private theorem build_sentry : sentry.build = .ok sentryDescriptor :=
  Declaration.build_of_plain (by decide) rfl rfl rfl rfl rfl

private theorem accepted_auditing : auditing.registry.Accepted := by
  have built : auditor.build = .ok auditorDescriptor :=
    Declaration.build_of_plain (by decide) rfl rfl rfl rfl rfl
  have built' : target.build = .ok targetDescriptor :=
    Declaration.build_of_plain (by decide) rfl rfl rfl rfl rfl
  exact ⟨[sentryDescriptor, auditorDescriptor, targetDescriptor],
    by simpa using ⟨⟨sentry, build_sentry⟩, ⟨auditor, built⟩, target, built'⟩, rfl⟩

/-- The world when the test comes to forward what it sends. -/
private def audited : World ScriptedStrategy :=
  auditing.iterate 20 ⟨0, 0⟩ (.ofAnswers [.ok 0, .ok 0, .ok 0])

/-- The reserved event is forwarded to the monitor that observes it, and not to the one whose states
name it. -/
theorem attends_of_declared_auditing :
    sentry.Subscribes sentryDescriptor ∧
      audited.exec .driver (.forward (.ofType .default)) =
        .go [.deliver 1 (.ofType .default)] audited ∧
      ∃ a b decl decl', audited.monitors = [a, b] ∧
        audited.Attends 0 a decl ∧ audited.Attends 1 b decl' := by
  have reached := auditing.reached 20 ⟨0, 0⟩ (ScriptedStrategy.ofAnswers [.ok 0, .ok 0, .ok 0])
  obtain ⟨declared, attends⟩ : _ ∧ ∀ w : World ScriptedStrategy, _ :=
    World.attends_of_declared accepted_auditing
  obtain ⟨a, b, both⟩ : ∃ a b, audited.monitors = [a, b] := ⟨_, _, rfl⟩
  obtain ⟨decl, first⟩ := attends audited reached 0 a (by rw [both]; rfl)
  obtain ⟨decl', second⟩ := attends audited reached 1 b (by rw [both]; rfl)
  exact ⟨declared sentry sentryDescriptor build_sentry rfl, rfl, a, b, decl, decl', both, first,
    second⟩

end SteeredActors
