import SteeredActors.Proofs.World.Exclusion

/-!
# The roster of monitors

A type of monitors is registered once: a monitor of the same type can be registered again only if the
one before failed to start. So at no time are there more monitors in use than the registry has types.
-/

set_option autoImplicit false
set_option relaxedAutoImplicit false

namespace SteeredActors

variable {σ : Type}

namespace World

variable {w w' : World σ} {t : ThreadId} {m n : Nat}

/-- The type of a monitor. -/
def tag? (w : World σ) (m : Nat) : Option String :=
  (w.core? (.monitor m)).map (·.descriptor.typeTag)

/-- A monitor that is registered or being registered. -/
def Enrolled (w : World σ) (m : Nat) : Prop := w.Starting m ∨ w.Listed m

theorem Enrolled.lt (enrolled : w.Enrolled m) : m < w.standing.length := by
  rcases enrolled with ⟨_, stands⟩ | ⟨_, stands⟩ <;> exact (List.getElem?_eq_some_iff.1 stands).1

theorem Enrolled.tagged (enrolled : w.Enrolled m) : ∃ tag, w.tag? m = some tag := by
  have lt := enrolled.lt
  rw [standing, List.length_map] at lt
  exact ⟨_, by simp [tag?, core?, List.getElem?_eq_getElem lt]; rfl⟩

/-- Where no monitor of a type is found, none is registered. -/
theorem not_listed_of_monitor? {tag : String} (fresh : w.monitor? tag = none)
    (same : w.tag? m = some tag) : ¬w.Listed m := by
  rintro ⟨observed, lists⟩
  rw [standing, List.getElem?_map] at lists
  obtain ⟨a, there, stands⟩ := Option.map_eq_some_iff.1 lists
  have own : a.core.descriptor.typeTag = tag := by simpa [tag?, core?, there] using same
  have other := List.findIdx?_eq_none_iff.1 fresh a (List.mem_of_getElem? there)
  rw [own, show a.stage = .listed from congrArg Prod.fst stands] at other
  simp at other

/-- A monitor in hand is in use. -/
theorem Exclusive.enrolled (exclusive : w.Exclusive) {thread : Thread}
    (found : w.thread? t = some thread) (held : m ∈ inHand thread.tasks) : w.Enrolled m := by
  rcases exclusive.taken t thread found m held with busy | starts
  · exact .inr (exclusive.busy m busy)
  · exact .inl starts

/-- Monitors have types of the registry, and those in use have different ones. -/
structure Rostered (w : World σ) : Prop where
  known : ∀ m tag, w.tag? m = some tag → tag ∈ w.registry.descriptors.map (·.typeTag)
  once : ∀ m n, w.Enrolled m → w.Enrolled n → w.tag? m = w.tag? n → m = n

/-- There are no more monitors in use than types. -/
theorem Rostered.length_le (rostered : w.Rostered) {ms : List Nat} (once : ms.Nodup)
    (enrolled : ∀ m ∈ ms, w.Enrolled m) : ms.length ≤ w.registry.descriptors.length := by
  have distinct : (ms.map w.tag?).Nodup :=
    once.map_on fun m mem n mem' => rostered.once m n (enrolled m mem) (enrolled n mem')
  have known : ms.map w.tag? ⊆ (w.registry.descriptors.map (·.typeTag)).map some := by
    intro _ mem
    obtain ⟨m, held, rfl⟩ := List.mem_map.1 mem
    obtain ⟨tag, tagged⟩ := (enrolled m held).tagged
    rw [tagged]
    exact List.mem_map_of_mem (rostered.known m tag tagged)
  simpa using (List.subperm_of_subset distinct known).length_le

/-- Only a registration brings a monitor into use. -/
private theorem enrolled_of_registers (registers : w.Registering) {x : Task} {rest tasks : List Task}
    {outside : Bool} (found : w.thread? t = some ⟨x :: rest, outside⟩)
    (step : w.Registers w' x rest tasks) (enrolled : w'.Enrolled m) :
    w.Enrolled m ∨ m = w.standing.length ∧ (∀ k, ¬w.Starting k) ∧
      ∃ core, w'.core? (.monitor m) = some core ∧
        w.monitor? core.descriptor.typeTag = none := by
  cases step with
  | rests same =>
    rw [Enrolled, Starting, Listed, same] at enrolled
    exact .inl enrolled
  | begins observed unlocked more _ fresh =>
    rcases Nat.lt_or_ge m w.standing.length with lt | ge
    · rw [Enrolled, Starting, Listed, more, List.getElem?_append_left lt] at enrolled
      exact .inl enrolled
    · have last : m = w.standing.length := by
        have lt := enrolled.lt
        rw [more, List.length_append, List.length_singleton] at lt
        omega
      subst last
      exact .inr ⟨rfl, monitorsLocked_eq_false_iff.1 unlocked, fresh⟩
  | ends k stage settled changed mine =>
    by_cases same : k = m
    · subst same
      exact .inl (.inl (((registers.alone found mine).1 k).2 rfl))
    · rw [Enrolled, Starting, Listed, changed, List.getElem?_modify_ne _ _ same] at enrolled
      exact .inl enrolled

variable [Strategy σ]

theorem Rostered.does (rostered : w.Rostered) (registers : w.Registering) (orderly : w.Orderly)
    (moved : w.stepThread? t = some w') : w'.Rostered := by
  obtain ⟨x, rest, outside, found, _⟩ := of_stepThread? moved
  obtain ⟨thread, now⟩ := orderly.stays moved
  have step := registers_of_stepThread? found moved (registers.once found) now
  have evolves := orderly.evolves (.does moved)
  have kept : ∀ {m}, w.Enrolled m → w'.tag? m = w.tag? m := by
    intro m enrolled
    obtain ⟨tag, tagged⟩ := enrolled.tagged
    obtain ⟨core, there, rfl⟩ := Option.map_eq_some_iff.1 tagged
    obtain ⟨core', there', becomes⟩ := evolves.cores _ core there
    simp [tag?, there, there', becomes.descriptor]
  have apart : ∀ m n, w.Enrolled m → (∀ k, ¬w.Starting k) →
      (∃ core, w'.core? (.monitor n) = some core ∧ w.monitor? core.descriptor.typeTag = none) →
        w'.tag? m ≠ w'.tag? n := by
    rintro m n enrolled idle ⟨core, new, fresh⟩ same
    rw [kept enrolled, tag?, tag?, new] at same
    exact not_listed_of_monitor? fresh same (enrolled.resolve_left (idle m))
  refine ⟨fun m tag tagged => ?_, fun m n enrolled enrolled' same => ?_⟩
  · obtain ⟨core', there', rfl⟩ := Option.map_eq_some_iff.1 tagged
    rw [evolves.registry]
    cases there : w.core? (.monitor m) with
    | some core =>
      obtain ⟨core'', there'', becomes⟩ := evolves.cores _ core there
      obtain rfl := Option.some.inj (there'.symm.trans there'')
      rw [becomes.descriptor]
      exact rostered.known m _ (by simp [tag?, there])
    | none =>
      obtain ⟨_, id, tag, d, offered, _, becomes⟩ := evolves.fresh _ core' there there'
      rw [becomes.descriptor]
      exact List.mem_map_of_mem (List.mem_of_find?_eq_some offered)
  · rcases enrolled_of_registers registers found step enrolled with old | ⟨last, idle, new⟩ <;>
      rcases enrolled_of_registers registers found step enrolled' with old' | ⟨last', idle, new'⟩
    · rw [kept old, kept old'] at same
      exact rostered.once m n old old' same
    · exact absurd same (apart m n old idle new')
    · exact absurd same.symm (apart n m old' idle new)
    · exact last.trans last'.symm

omit [Strategy σ] in
theorem Rostered.initial (controller : Controller σ) (registry : Registry)
    (policy : DequeuePolicy) (ids : Allocator) (test : Program) :
    (World.new controller registry policy ids test).Rostered := by
  refine ⟨fun m tag tagged => ?_, fun m n enrolled => ?_⟩
  · cases tagged
  · exact absurd enrolled.lt (Nat.not_lt_zero m)

end World

namespace Experiment

variable [Strategy σ] (e : Experiment)

theorem rostered (accepted : e.registry.Accepted) (ids : Allocator) (s : σ) (n : Nat) :
    (e.iterate n ids s).Rostered := by
  induction n with
  | zero => exact .initial _ _ _ _ _
  | succ n ih =>
    rw [e.iterate_succ]
    cases moved : (e.iterate n ids s).step? with
    | none => exact ih
    | some w =>
      rcases World.of_step? moved with ⟨t, _, does⟩ | ⟨_, clock, rfl⟩
      · exact ih.does (e.registering accepted ids s n) ((e.reached n ids s).orderly accepted) does
      · exact ⟨ih.known, ih.once⟩

/-- Deliveries to monitors and registrations nest no deeper than there are types. -/
theorem length_inHand_le (accepted : e.registry.Accepted) (ids : Allocator) (s : σ) {n : Nat}
    {t : ThreadId} {thread : Thread} (found : (e.iterate n ids s).thread? t = some thread) :
    (inHand thread.tasks).length ≤ e.registry.descriptors.length := by
  have exclusive := e.exclusive accepted ids s n
  have bound := (e.rostered accepted ids s n).length_le (exclusive.once t thread found)
    fun m held => exclusive.enrolled found held
  rwa [(e.evolves accepted ids s (Nat.zero_le n)).registry] at bound

end Experiment

end SteeredActors
