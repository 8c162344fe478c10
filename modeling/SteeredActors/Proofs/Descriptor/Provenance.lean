import Mathlib.Data.List.Duplicate
import SteeredActors.Proofs.Descriptor.WellFormed

/-!
# Where the states of a descriptor come from

A type declares states of its own and inherits sets of them. What is built has one state for each
name, which comes from the first declaration of the name and keeps what that declares. A type that
declares a name twice is refused; a set that does so is not, and its later declarations of the name
are lost. Apart from these, what is lost is shadowed by the type itself or by an earlier set.
-/

set_option autoImplicit false
set_option relaxedAutoImplicit false

namespace SteeredActors

/-! ## First declarations -/

/-- The declarations that are the first of their name, in order. -/
def firstOfName : List StateDescriptor → List StateDescriptor
  | [] => []
  | s :: rest => s :: (firstOfName rest).filter (·.name != s.name)

/-- The declarations of sets whose name is not taken and not declared in an earlier set. -/
def unshadowed (taken : List String) : List (List StateDescriptor) → List StateDescriptor
  | [] => []
  | set :: sets =>
    set.filter (fun s => !taken.contains s.name) ++ unshadowed (taken ++ set.map (·.name)) sets

theorem mem_names_firstOfName {xs : List StateDescriptor} {name : String} :
    name ∈ (firstOfName xs).map (·.name) ↔ name ∈ xs.map (·.name) := by
  induction xs with
  | nil => rfl
  | cons s rest ih =>
    simp only [List.mem_map] at ih
    by_cases same : s.name = name
    · simp [firstOfName, same]
    · simp only [firstOfName, List.map_cons, List.mem_cons, List.mem_map, List.mem_filter,
        bne_iff_ne, ne_eq]
      refine or_congr_right ?_
      rw [← ih]
      exact ⟨fun ⟨t, ⟨mem, _⟩, named⟩ => ⟨t, mem, named⟩,
        fun ⟨t, mem, named⟩ => ⟨t, ⟨mem, fun eq => same (eq ▸ named)⟩, named⟩⟩

theorem nodup_names_firstOfName (xs : List StateDescriptor) :
    ((firstOfName xs).map (·.name)).Nodup := by
  induction xs with
  | nil => exact List.nodup_nil
  | cons s rest ih =>
    rw [firstOfName, List.map_cons, List.nodup_cons]
    refine ⟨?_, ih.sublist (List.filter_sublist.map _)⟩
    simp

/-- Behind others, the first declarations are those whose name is not among them. -/
theorem firstOfName_append (xs ys : List StateDescriptor) :
    firstOfName (xs ++ ys) =
      firstOfName xs ++ (firstOfName ys).filter fun s => !(xs.map (·.name)).contains s.name := by
  induction xs with
  | nil => simp [firstOfName]
  | cons x xs ih =>
    simp only [List.cons_append, firstOfName, ih, List.filter_append, List.filter_filter]
    refine congrArg (x :: _ ++ ·) (List.filter_congr fun s _ => ?_)
    rw [Bool.eq_iff_iff]
    simp

/-- Declarations of distinct names are all the first of theirs. -/
theorem firstOfName_of_nodup {xs : List StateDescriptor} (distinct : (xs.map (·.name)).Nodup) :
    firstOfName xs = xs := by
  induction xs with
  | nil => rfl
  | cons s rest ih =>
    obtain ⟨new, others⟩ := List.nodup_cons.1 distinct
    rw [firstOfName, ih others, List.filter_eq_self.2]
    intro t mem
    simp only [bne_iff_ne, ne_eq]
    exact fun same => new (List.mem_map.2 ⟨t, mem, same⟩)

/-- If no set declares a name twice, only what is shadowed is not the first of its name. -/
theorem firstOfName_append_flatten (xs : List StateDescriptor) {sets : List (List StateDescriptor)}
    (distinct : ∀ set ∈ sets, (set.map (·.name)).Nodup) :
    firstOfName (xs ++ sets.flatten) = firstOfName xs ++ unshadowed (xs.map (·.name)) sets := by
  induction sets generalizing xs with
  | nil => simp [unshadowed]
  | cons set sets ih =>
    obtain ⟨here, others⟩ := List.forall_mem_cons.1 distinct
    rw [List.flatten_cons, ← List.append_assoc, ih (xs ++ set) others, firstOfName_append,
      firstOfName_of_nodup here, unshadowed, List.map_append, List.append_assoc]

/-! ## What is inherited -/

/-- A set adds its first declarations of the names that are not taken. -/
theorem adopted_eq_filter (taken : List String) (set : List StateDescriptor) :
    adopted taken set = (firstOfName set).filter fun s => !taken.contains s.name := by
  induction set generalizing taken with
  | nil => rfl
  | cons s rest ih =>
    rw [adopted, firstOfName, List.filter_cons, List.filter_filter]
    split
    · next old =>
      simp only [old, Bool.not_true, Bool.false_eq_true, if_false, ih]
      refine List.filter_congr fun t _ => ?_
      by_cases same : t.name = s.name
      · simp [same, List.contains_iff_mem.1 old]
      · simp [same]
    · next new =>
      simp only [new, Bool.not_false, if_true, ih]
      refine congrArg (s :: ·) (List.filter_congr fun t _ => ?_)
      rw [Bool.eq_iff_iff]
      simp [and_comm]

/-- The states after all sets were inherited are the first declarations of their names. -/
theorem fst_inherit (xs : List StateDescriptor) (conflicts : List (String × EventType))
    (sets : List (List StateDescriptor)) :
    (inherit (firstOfName xs) conflicts sets).1 = firstOfName (xs ++ sets.flatten) := by
  induction sets generalizing xs conflicts with
  | nil => simp [inherit]
  | cons set sets ih =>
    have added : firstOfName xs ++ adopted ((firstOfName xs).map (·.name)) set =
        firstOfName (xs ++ set) := by
      rw [adopted_eq_filter, firstOfName_append]
      refine congrArg (firstOfName xs ++ ·) (List.filter_congr fun s _ => congrArg (! ·) ?_)
      rw [Bool.eq_iff_iff, List.contains_iff_mem, List.contains_iff_mem, mem_names_firstOfName]
    rw [inherit, added, ih, List.flatten_cons, List.append_assoc]

/-! ## What is kept -/

/-- A state has all that its declaration gives it. -/
structure StateDescriptor.Keeps (s declaration : StateDescriptor) : Prop where
  name : s.name = declaration.name
  initial : s.initial = declaration.initial
  entry : ∀ action ∈ declaration.entry, s.entry = some action
  exit : ∀ action ∈ declaration.exit, s.exit = some action
  bindings : declaration.bindings <+: s.bindings

/-- An event that the declaration names has the same disposition in the state. -/
theorem StateDescriptor.Keeps.disposition? {s declaration : StateDescriptor}
    (keeps : s.Keeps declaration) {e : EventType} {d : Disposition}
    (own : declaration.disposition? e = some d) : s.disposition? e = some d := by
  obtain ⟨rest, same⟩ := keeps.bindings
  rw [StateDescriptor.disposition?] at own ⊢
  rw [← same, List.find?_append]
  cases found : declaration.bindings.find? (·.1 == e) with
  | none => simp [found] at own
  | some b => simpa [found] using own

theorem StateDescriptor.keeps_atop (s : StateDescriptor) (bases : List StateDescriptor) :
    (s.atop bases).Keeps s := by
  cases bases with
  | nil => exact ⟨rfl, rfl, fun _ => id, fun _ => id, List.prefix_refl _⟩
  | cons b bases =>
    refine ⟨rfl, rfl, ?_, ?_, List.prefix_append _ _⟩
    · rintro action own
      simp [atop, extending, Option.mem_def.1 own]
    · rintro action own
      simp [atop, extending, Option.mem_def.1 own]

/-! ## Built descriptors -/

/-- What is repeated was seen before or is there twice. -/
private theorem duplicate_of_repeated {α : Type} [BEq α] [LawfulBEq α] {seen xs rest : List α}
    {a : α} (again : repeated seen xs = a :: rest) : a ∈ seen ∧ a ∈ xs ∨ xs.Duplicate a := by
  induction xs generalizing seen with
  | nil => cases again
  | cons x xs ih =>
    rw [repeated] at again
    split at again
    · next old =>
      cases again
      exact .inl ⟨List.contains_iff_mem.1 old, List.mem_cons_self⟩
    · rcases ih again with ⟨old, mem⟩ | twice
      · rcases List.mem_cons.1 old with rfl | old
        · exact .inr (.cons_mem mem)
        · exact .inl ⟨old, List.mem_cons_of_mem _ mem⟩
      · exact .inr (.cons_duplicate twice)

/-- The declarations of a type, its own before those of the sets that it inherits. -/
def Declaration.declared (decl : Declaration) : List StateDescriptor :=
  decl.derived ++ decl.inherited.flatten

/-- The states of a descriptor come from the first declarations of their names, in order. -/
structure Declaration.Origins (decl : Declaration) (d : Descriptor) : Prop where
  first : List.Forall₂ StateDescriptor.Keeps d.states (firstOfName decl.declared)
  once : (d.states.map (·.name)).Nodup
  /-- The type's own states are all there, before the inherited ones. -/
  own : decl.derived <+: firstOfName decl.declared
  /-- Only what is shadowed is lost, if no set declares a name twice. -/
  lossless : (∀ set ∈ decl.inherited, (set.map (·.name)).Nodup) →
    firstOfName decl.declared =
      decl.derived ++ unshadowed (decl.derived.map (·.name)) decl.inherited

/-- A type that declares a name twice is refused, and what is built otherwise has one state for each
name, in the order of the declarations that they come from. -/
theorem Declaration.origins (decl : Declaration) :
    (¬(decl.derived.map (·.name)).Nodup → ∃ name, (decl.derived.map (·.name)).Duplicate name ∧
      decl.build = .error (.duplicateState decl.typeTag name)) ∧
    ∀ d, decl.build = .ok d → decl.Origins d := by
  constructor
  · intro twice
    cases again : repeated [] (decl.derived.map (·.name)) with
    | nil => exact absurd (nodup_of_repeated again).1 twice
    | cons name rest =>
      refine ⟨name, (duplicate_of_repeated again).resolve_left (by simp), ?_⟩
      unfold build
      simp only [again]
      rfl
  · intro d built
    obtain ⟨-, states, passes⟩ := passes_of_build built
    have own := firstOfName_of_nodup (nodup_of_repeated passes.once).1
    have all : states = firstOfName decl.declared := by
      have inherited := fst_inherit decl.derived (conflictsOf decl.derived) decl.inherited
      rw [own, passes.inherited] at inherited
      exact inherited
    have distinct : (states.map (·.name)).Nodup := all ▸ nodup_names_firstOfName decl.declared
    obtain ⟨chain, -, resolved⟩ := exists_chain_of_resolveStates distinct passes.resolves
    refine ⟨?_, ?_, ?_, fun sets => ?_⟩
    · rw [resolved, ← all, List.forall₂_map_left_iff, List.forall₂_same]
      exact fun s _ => s.keeps_atop (chain s)
    · have same : d.states.map (·.name) = states.map (·.name) := by simp [resolved]
      exact same ▸ distinct
    · rw [declared, firstOfName_append, own]
      exact List.prefix_append _ _
    · rw [declared, firstOfName_append_flatten decl.derived sets, own]

/-- A set declares a name twice; another one declares it again, and one that the type has. -/
def Declaration.doubling : Declaration where
  typeTag := "Door"
  kind := .machine
  derived := [⟨"Shut", true, none, none, none, [(⟨"Push"⟩, .goto "Open" none)]⟩]
  inherited :=
    [[⟨"Open", false, none, none, none, [(⟨"Push"⟩, .ignore)]⟩,
        ⟨"Open", false, none, none, none, [(⟨"Push"⟩, .defer)]⟩],
      [⟨"Open", false, none, none, none, []⟩, ⟨"Shut", true, none, none, none, []⟩,
        ⟨"Stuck", false, none, none, none, []⟩]]
  observes := []

/-- The second declaration in a set is lost like those that are shadowed. -/
theorem Declaration.origins_doubling :
    ∃ d, doubling.build = .ok d ∧ doubling.Origins d ∧
      d.states.map (fun s => (s.name, s.ignores ⟨"Push"⟩)) =
        [("Shut", false), ("Open", true), ("Stuck", false)] := by
  let states := (inherit doubling.derived [] doubling.inherited).1
  have resolves : resolveStates doubling.typeTag states = .ok states :=
    resolveStates_of_plain _ (by decide) (by decide)
  have passes : doubling.Passes states states doubling.derived[0] :=
    ⟨rfl, rfl, rfl, resolves, rfl, rfl⟩
  exact ⟨_, passes.build, (origins doubling).2 _ passes.build, by decide⟩

end SteeredActors
