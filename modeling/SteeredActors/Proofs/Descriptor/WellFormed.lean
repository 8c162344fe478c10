import SteeredActors.Descriptor.Registry
import SteeredActors.Proofs.Descriptor.Extension

/-!
# What building a descriptor ensures

The checks are made before states take over what they extend, yet what is built has the checked
properties: no event has two dispositions in a state, no target dangles, and no state of a monitor
pushes.
-/

set_option autoImplicit false
set_option relaxedAutoImplicit false

namespace SteeredActors

/-- What is relied on when a descriptor is interpreted. -/
structure Descriptor.WellFormed (d : Descriptor) : Prop where
  initial : d.initial ∈ d.states
  distinct : ∀ s ∈ d.states, s.events.Nodup
  targets : ∀ s ∈ d.states, ∀ target ∈ s.targets, (d.state? target).isSome = true
  flat : d.kind = .monitor → ∀ s ∈ d.states, s.pushes = false

/-! ## Repeated items -/

/-- Items of which none is repeated are distinct, and apart from those before them. -/
theorem nodup_of_repeated {α : Type} [BEq α] [LawfulBEq α] {seen xs : List α}
    (none : repeated seen xs = []) : xs.Nodup ∧ ∀ x ∈ xs, x ∉ seen := by
  induction xs generalizing seen with
  | nil => simp
  | cons a xs ih =>
    rw [repeated] at none
    split at none
    · cases none
    · next fresh =>
      obtain ⟨nodup, apart⟩ := ih none
      refine ⟨List.nodup_cons.2 ⟨fun mem => apart a mem List.mem_cons_self, nodup⟩, ?_⟩
      intro x mem
      rcases List.mem_cons.1 mem with rfl | mem
      · simpa using fresh
      · exact fun old => apart x mem (List.mem_cons_of_mem _ old)

theorem StateDescriptor.nodup_of_conflicts {s : StateDescriptor} (none : s.conflicts = []) :
    s.events.Nodup := (nodup_of_repeated none).1

/-! ## Inherited sets of states -/

private theorem mem_of_adopted {taken : List String} {set : List StateDescriptor}
    {s : StateDescriptor} (mem : s ∈ adopted taken set) : s ∈ set := by
  induction set generalizing taken with
  | nil => exact mem
  | cons first rest ih =>
    rw [adopted] at mem
    split at mem
    · exact List.mem_cons_of_mem _ (ih mem)
    · rcases List.mem_cons.1 mem with rfl | mem
      · exact List.mem_cons_self
      · exact List.mem_cons_of_mem _ (ih mem)

/-- A state without conflicts, if none are listed. -/
private theorem conflicts_eq_nil {states : List StateDescriptor} {s : StateDescriptor}
    (mem : s ∈ states) (none : ∀ c ∈ conflictsOf states, c.1 ≠ s.name) : s.conflicts = [] := by
  refine List.eq_nil_iff_forall_not_mem.2 fun e conflict => ?_
  exact none (s.name, e) (List.mem_flatMap.2 ⟨s, mem, List.mem_map.2 ⟨e, conflict, rfl⟩⟩) rfl

/-- States without conflicts stay so when sets are inherited and nothing is listed. -/
private theorem nodup_of_inherit {states : List StateDescriptor}
    {conflicts : List (String × EventType)} {sets : List (List StateDescriptor)}
    {all : List StateDescriptor} (inherited : inherit states conflicts sets = (all, []))
    (sound : conflicts = [] → ∀ s ∈ states, s.events.Nodup) : ∀ s ∈ all, s.events.Nodup := by
  induction sets generalizing states conflicts with
  | nil =>
    obtain ⟨rfl, none⟩ := Prod.mk.injEq _ _ _ _ ▸ inherited
    exact sound none
  | cons set sets ih =>
    refine ih inherited fun none s mem => ?_
    obtain ⟨old, new⟩ := List.append_eq_nil_iff.1 none
    rcases List.mem_append.1 mem with mem | mem
    · exact sound old s mem
    · refine StateDescriptor.nodup_of_conflicts (conflicts_eq_nil (mem_of_adopted mem) ?_)
      intro c conflict same
      have kept := List.filter_eq_nil_iff.1 new c conflict
      exact kept (by simpa [same] using ⟨s, mem, rfl⟩)

/-! ## Extended states -/

private theorem pushes_extending (s b : StateDescriptor) (own : s.pushes = false)
    (others : b.pushes = false) : (s.extending b).pushes = false := by
  simp only [StateDescriptor.pushes, List.any_eq_false] at own others ⊢
  intro x mem
  rcases List.mem_append.1 mem with mem | mem
  · exact own x mem
  · exact others x (List.mem_filter.1 mem).1

/-! ## Built descriptors -/

private theorem initialState_mem {actor : String} {states : List StateDescriptor}
    {s : StateDescriptor} (found : initialState actor states = .ok s) : s ∈ states := by
  unfold initialState at found
  split at found
  · cases found
  · next only =>
    cases found
    have mem : s ∈ states.filter (·.initial) := by simp [only]
    exact (List.mem_filter.1 mem).1
  · cases found

private theorem known_of_targetFault? {actor : String} {states : List StateDescriptor}
    (none : targetFault? actor states = none) :
    ∀ s ∈ states, ∀ target ∈ s.targets, (states.find? (·.name == target)).isSome = true := by
  intro s mem target leads
  have sound := List.findSome?_eq_none_iff.1 none s mem
  simp only [Option.map_eq_none_iff, unknownTarget?, List.find?_eq_none] at sound
  have known := sound target leads
  simp only [Bool.not_eq_true', Bool.not_eq_false, List.contains_iff_mem, List.mem_map] at known
  obtain ⟨s', mem', name⟩ := known
  exact List.find?_isSome.2 ⟨s', mem', by simp [name]⟩

private theorem of_declarationFault? {actor : String} {kind : ActorKind}
    {states : List StateDescriptor} {conflicts : List (String × EventType)}
    (none : declarationFault? actor kind states conflicts = none) :
    conflicts = [] ∧ (kind = .monitor → ∀ s ∈ states, s.pushes = false) := by
  unfold declarationFault? at none
  split at none
  · cases none
  · refine ⟨rfl, ?_⟩
    rintro rfl s mem
    split at none
    · cases none
    · next only =>
      cases found : states.find? StateDescriptor.pushes with
      | none => simpa using List.find?_eq_none.1 found s mem
      | some s' => exact absurd found (only s' rfl)

/-- The checks that a declaration passes, with its states before and after they are resolved. -/
structure Declaration.Passes (decl : Declaration) (states resolved : List StateDescriptor)
    (initial : StateDescriptor) : Prop where
  once : repeated [] (decl.derived.map (·.name)) = []
  inherited : inherit decl.derived (conflictsOf decl.derived) decl.inherited = (states, [])
  declared : declarationFault? decl.typeTag decl.kind states [] = none
  resolves : resolveStates decl.typeTag states = .ok resolved
  starts : initialState decl.typeTag resolved = .ok initial
  aims : targetFault? decl.typeTag resolved = none

/-- A declaration that passes all checks is built. -/
theorem Declaration.Passes.build {decl : Declaration} {states resolved : List StateDescriptor}
    {initial : StateDescriptor} (passes : decl.Passes states resolved initial) :
    decl.build = .ok ⟨decl.typeTag, decl.kind, resolved, initial, decl.observes⟩ := by
  unfold Declaration.build
  simp only [passes.once, passes.inherited, passes.declared, passes.resolves, bind, Except.bind,
    passes.starts, passes.aims, pure, Except.pure]

/-- A declaration without inheritance is built as it stands. -/
theorem Declaration.build_of_plain {decl : Declaration} {initial : StateDescriptor}
    (plain : ∀ s ∈ decl.derived, s.base = none)
    (once : repeated [] (decl.derived.map (·.name)) = [])
    (alone : inherit decl.derived (conflictsOf decl.derived) decl.inherited = (decl.derived, []))
    (declared : declarationFault? decl.typeTag decl.kind decl.derived [] = none)
    (starts : initialState decl.typeTag decl.derived = .ok initial)
    (aims : targetFault? decl.typeTag decl.derived = none) :
    decl.build = .ok ⟨decl.typeTag, decl.kind, decl.derived, initial, decl.observes⟩ :=
  have resolves := resolveStates_of_plain decl.typeTag (nodup_of_repeated once).1 plain
  Passes.build ⟨once, alone, declared, resolves, starts, aims⟩

/-- What is built has passed all checks. -/
theorem Declaration.passes_of_build {decl : Declaration} {d : Descriptor}
    (built : decl.build = .ok d) :
    d.kind = decl.kind ∧ ∃ states, decl.Passes states d.states d.initial := by
  unfold Declaration.build at built
  simp only [bind, Except.bind, pure, Except.pure, throw, throwThe, MonadExceptOf.throw] at built
  split at built
  · cases built
  next once =>
  cases inherited : inherit decl.derived (conflictsOf decl.derived) decl.inherited with
  | mk states conflicts =>
    simp only [inherited] at built
    split at built
    · cases built
    next fault =>
    split at built
    · cases built
    next resolves =>
    split at built
    · cases built
    next starts =>
    split at built
    · cases built
    next dangling =>
    cases built
    have declared := Option.eq_none_iff_forall_ne_some.2 fault
    obtain ⟨rfl, -⟩ := of_declarationFault? declared
    refine ⟨rfl, states, ?_, inherited, declared, resolves, starts,
      Option.eq_none_iff_forall_ne_some.2 dangling⟩
    cases all : repeated [] (decl.derived.map (·.name)) with
    | nil => rfl
    | cons name rest => exact absurd all (once name rest)

/-- A descriptor that was built is well formed. -/
theorem Declaration.wellFormed_of_build {decl : Declaration} {d : Descriptor}
    (built : decl.build = .ok d) : d.WellFormed := by
  obtain ⟨kind, states, passes⟩ := passes_of_build built
  have flat := (of_declarationFault? passes.declared).2
  have declared : conflictsOf decl.derived = [] → ∀ s ∈ decl.derived, s.events.Nodup := by
    intro none s mem
    exact StateDescriptor.nodup_of_conflicts (conflicts_eq_nil mem (by simp [none]))
  refine ⟨initialState_mem passes.starts, ?_, known_of_targetFault? passes.aims, ?_⟩
  · exact resolveStates_kept StateDescriptor.nodup_extending
      (nodup_of_inherit passes.inherited declared) passes.resolves
  · intro monitor
    exact resolveStates_kept pushes_extending (flat (kind ▸ monitor)) passes.resolves

/-! ## Registries -/

/-- The built-in machines are well formed. -/
private theorem wellFormed_timer {d : Descriptor} (mem : d ∈ Timer.descriptors) : d.WellFormed := by
  have single : ∀ typeTag entry bindings,
      (bindings.map Prod.fst).Nodup →
      (bindings.filterMap fun b => StateDescriptor.gotoTarget? b.2) = [] →
      (bindings.filterMap fun b => StateDescriptor.pushTarget? b.2) = [] →
      (Timer.machine typeTag entry bindings).WellFormed := by
    intro typeTag entry bindings nodup gotos pushes
    refine ⟨List.mem_singleton.2 rfl, ?_, ?_, fun monitor => nomatch monitor⟩
    · intro s mem
      obtain rfl := List.mem_singleton.1 mem
      exact nodup
    · intro s mem target leads
      obtain rfl := List.mem_singleton.1 mem
      simp [StateDescriptor.targets, gotos, pushes] at leads
  simp only [Timer.descriptors, List.mem_cons, List.not_mem_nil, or_false] at mem
  rcases mem with rfl | rfl
  · exact single _ _ _ (by decide) rfl rfl
  · exact single _ _ _ (by decide) rfl rfl

/-- A registry whose types were all built from declarations. -/
def Registry.Accepted (r : Registry) : Prop :=
  ∃ types, (∀ d ∈ types, ∃ decl : Declaration, decl.build = .ok d) ∧ Registry.build types = .ok r

/-- What is found in a registry is of the kind that was asked for. It is a built-in machine or was
built from a declaration. -/
theorem Registry.Accepted.origin {r : Registry} (accepted : r.Accepted) {kind : ActorKind}
    {typeTag : String} {d : Descriptor} (found : r.find? kind typeTag = some d) :
    d.kind = kind ∧ (d ∈ Timer.descriptors ∨ ∃ decl : Declaration, decl.build = .ok d) := by
  obtain ⟨types, each, built⟩ := accepted
  have mem := List.mem_of_find?_eq_some found
  have same := List.find?_some found
  simp only [Bool.and_eq_true, beq_iff_eq] at same
  refine ⟨same.1, ?_⟩
  unfold Registry.build at built
  simp only at built
  split at built
  · cases built
  · cases built
    exact (List.mem_append.1 mem).imp_right (each d)

/-- Whatever is found in a registry is of the kind that was asked for, and well formed. -/
theorem Registry.Accepted.find? {r : Registry} (accepted : r.Accepted) {kind : ActorKind}
    {typeTag : String} {d : Descriptor} (found : r.find? kind typeTag = some d) :
    d.WellFormed ∧ d.kind = kind := by
  obtain ⟨same, mem | ⟨decl, built⟩⟩ := accepted.origin found
  · exact ⟨wellFormed_timer mem, same⟩
  · exact ⟨Declaration.wellFormed_of_build built, same⟩

end SteeredActors
