import SteeredActors.Proofs.Descriptor.WellFormed

/-!
# Subscriptions of a monitor

A monitor is handed the events that its states name, in whatever declaration, and those that it was
told to observe. The reserved event, which interpreters only make up, is left out of the first ones
and not of the second.
-/

set_option autoImplicit false
set_option relaxedAutoImplicit false

namespace SteeredActors

/-- The state names an event in a goto or an action, or as ignored or deferred. -/
def StateDescriptor.Names (s : StateDescriptor) (e : EventType) : Prop :=
  (∃ target transition, (e, .goto target transition) ∈ s.bindings) ∨
    (∃ a, (e, .action a) ∈ s.bindings) ∨ (e, .ignore) ∈ s.bindings ∨ (e, .defer) ∈ s.bindings

/-- Where nothing is pushed, these are all declarations that there are. -/
theorem StateDescriptor.mem_events_iff {s : StateDescriptor} (flat : s.pushes = false)
    {e : EventType} : e ∈ s.events ↔ s.Names e := by
  have single (target : String) : (e, .push target) ∉ s.bindings := fun mem => by
    simpa [pushTarget?] using List.any_eq_false.1 flat _ mem
  simp only [events, List.mem_map, Prod.exists, exists_and_right, exists_eq_right, Names]
  constructor
  · rintro ⟨d, mem⟩
    cases d with
    | goto target transition => exact .inl ⟨target, transition, mem⟩
    | push target => exact absurd mem (single target)
    | action a => exact .inr (.inl ⟨a, mem⟩)
    | ignore => exact .inr (.inr (.inl mem))
    | defer => exact .inr (.inr (.inr mem))
  · rintro (⟨_, _, mem⟩ | ⟨_, mem⟩ | mem | mem) <;> exact ⟨_, mem⟩

theorem Descriptor.mem_subscriptions_iff {d : Descriptor} {e : EventType} :
    e ∈ d.subscriptions ↔ (∃ s ∈ d.states, e ∈ s.events) ∧ e ≠ .default ∨ e ∈ d.observes := by
  simp [subscriptions]

namespace Declaration

/-- What the subscriptions of a monitor come from. -/
structure Subscribes (decl : Declaration) (d : Descriptor) : Prop where
  named : ∀ e, e ≠ .default →
    (e ∈ d.subscriptions ↔ (∃ s ∈ d.states, s.Names e) ∨ e ∈ decl.observes)
  /-- The reserved event is subscribed to on demand only. -/
  reserved : .default ∈ d.subscriptions ↔ .default ∈ decl.observes

theorem observes_of_build {decl : Declaration} {d : Descriptor} (built : decl.build = .ok d) :
    d.observes = decl.observes := by
  obtain ⟨_, _, passes⟩ := passes_of_build built
  have same := Except.ok.inj (built.symm.trans passes.build)
  rw [same]

theorem subscribes_of_build {decl : Declaration} {d : Descriptor} (built : decl.build = .ok d)
    (monitor : decl.kind = .monitor) : decl.Subscribes d := by
  have flat := (wellFormed_of_build built).flat ((passes_of_build built).1.trans monitor)
  refine ⟨fun e other => ?_, ?_⟩
  · have named : (∃ s ∈ d.states, e ∈ s.events) ↔ ∃ s ∈ d.states, s.Names e := by
      refine exists_congr fun s => and_congr_right fun mem => ?_
      exact StateDescriptor.mem_events_iff (flat s mem)
    rw [Descriptor.mem_subscriptions_iff, observes_of_build built, named]
    simp [other]
  · simp [Descriptor.mem_subscriptions_iff, observes_of_build built]

end Declaration

/-- The monitors of a registry were built from declarations. -/
theorem Registry.Accepted.declared {r : Registry} (accepted : r.Accepted) {typeTag : String}
    {d : Descriptor} (found : r.monitor? typeTag = some d) :
    ∃ decl : Declaration, decl.build = .ok d ∧ decl.kind = .monitor := by
  obtain ⟨same, mem | ⟨decl, built⟩⟩ := accepted.origin found
  · have machine : ∀ d ∈ Timer.descriptors, d.kind = .machine := by decide
    cases (machine d mem).symm.trans same
  · exact ⟨decl, built, (Declaration.passes_of_build built).1.symm.trans same⟩

end SteeredActors
