import Mathlib.Data.List.Nodup
import Mathlib.Logic.Relation
import SteeredActors.Descriptor.Build

/-!
# States that extend others

A state that extends another takes over what it does not declare itself, and so does that one. A
resolved state has the nearest declaration of each event and action along its chain, whatever the
order of the states is; resolving fails exactly where a chain leaves the declared states or comes
back to one of them.
-/

set_option autoImplicit false
set_option relaxedAutoImplicit false

namespace SteeredActors

/-! ## Chains -/

/-- The states that a state extends, the nearest first, up to one that extends none. -/
inductive Extends (states : List StateDescriptor) :
    StateDescriptor → List StateDescriptor → Prop where
  | root {s : StateDescriptor} (alone : s.base = none) : Extends states s []
  | link {s b : StateDescriptor} {bases : List StateDescriptor} (base : s.base = some b.name)
      (declared : b ∈ states) (rest : Extends states b bases) : Extends states s (b :: bases)

/-- A state of the first name extends the second name. -/
def Refers (states : List StateDescriptor) (name base : String) : Prop :=
  ∃ s ∈ states, s.name = name ∧ s.base = some base

variable {states : List StateDescriptor}

private theorem eq_of_name (distinct : (states.map (·.name)).Nodup) {s t : StateDescriptor}
    (first : s ∈ states) (second : t ∈ states) (same : s.name = t.name) : s = t :=
  List.inj_on_of_nodup_map distinct first second same

private theorem of_find? {name : String} {s : StateDescriptor}
    (found : states.find? (·.name == name) = some s) : s ∈ states ∧ s.name = name :=
  ⟨List.mem_of_find?_eq_some found, by simpa using List.find?_some found⟩

private theorem find?_of_named {name : String} (named : ∃ s ∈ states, s.name = name) :
    ∃ s, states.find? (·.name == name) = some s ∧ s ∈ states ∧ s.name = name := by
  have there : (states.find? (·.name == name)).isSome = true := by simpa using named
  obtain ⟨s, found⟩ := Option.isSome_iff_exists.1 there
  exact ⟨s, found, of_find? found⟩

namespace Extends

variable {s t : StateDescriptor} {bases others : List StateDescriptor}

theorem declared (chain : Extends states s bases) (mem : t ∈ bases) : t ∈ states := by
  induction chain with
  | root => cases mem
  | link _ known _ ih =>
    rcases List.mem_cons.1 mem with rfl | mem
    · exact known
    · exact ih mem

/-- A chain goes through declared states only, in any order of declaration. -/
theorem mono {more : List StateDescriptor} (sub : states ⊆ more) (chain : Extends states s bases) :
    Extends more s bases := by
  induction chain with
  | root alone => exact .root alone
  | link base known _ ih => exact .link base (sub known) ih

/-- A state extends one chain only. -/
theorem unique (distinct : (states.map (·.name)).Nodup) (chain : Extends states s bases)
    (other : Extends states s others) : bases = others := by
  induction chain generalizing others with
  | root alone =>
    cases other with
    | root => rfl
    | link base => cases alone.symm.trans base
  | @link s b bases base known _ ih =>
    cases other with
    | root alone => cases alone.symm.trans base
    | @link _ b' _ base' known' rest' =>
      have same : b = b' := eq_of_name distinct known known' (by simpa [base] using base')
      subst same
      rw [ih rest']

/-- Each state of a chain extends the rest of it. -/
theorem suffix (chain : Extends states s bases) (mem : t ∈ bases) :
    ∃ rest, Extends states t rest ∧ rest.length < bases.length := by
  induction chain with
  | root => cases mem
  | @link s b bases _ _ rest ih =>
    rcases List.mem_cons.1 mem with rfl | mem
    · exact ⟨bases, rest, by simp⟩
    · obtain ⟨rest, extends_, shorter⟩ := ih mem
      exact ⟨rest, extends_, by simp only [List.length_cons]; omega⟩

/-- A chain does not come back to where it starts. -/
theorem acyclic (distinct : (states.map (·.name)).Nodup) (chain : Extends states s bases)
    (known : s ∈ states) (mem : t ∈ bases) : t.name ≠ s.name := by
  intro same
  obtain rfl := eq_of_name distinct (chain.declared mem) known same
  obtain ⟨rest, extends_, shorter⟩ := chain.suffix mem
  rw [chain.unique distinct extends_] at shorter
  exact Nat.lt_irrefl _ shorter

end Extends

/-! ## Taking over -/

namespace StateDescriptor

/-- A state with what it takes over from others, the nearest first. -/
def atop (s : StateDescriptor) : List StateDescriptor → StateDescriptor
  | [] => s
  | b :: bases => s.extending (b.atop bases)

/-- A resolved state is the declared one with the nearest of everything that can be taken over. -/
structure TakesNearest (r s : StateDescriptor) (bases : List StateDescriptor) : Prop where
  name : r.name = s.name
  initial : r.initial = s.initial
  entry : r.entry = (s :: bases).findSome? (·.entry)
  exit : r.exit = (s :: bases).findSome? (·.exit)
  disposition : ∀ e, r.disposition? e = (s :: bases).findSome? (·.disposition? e)
  /-- No event has two dispositions if it has not in any of the states. -/
  once : (∀ t ∈ s :: bases, t.events.Nodup) → r.events.Nodup

@[simp] theorem name_atop (s : StateDescriptor) (bases : List StateDescriptor) :
    (s.atop bases).name = s.name := by cases bases <;> rfl

@[simp] theorem initial_atop (s : StateDescriptor) (bases : List StateDescriptor) :
    (s.atop bases).initial = s.initial := by cases bases <;> rfl

private theorem findSome?_cons_or {α β : Type} (f : α → Option β) (a : α) (rest : List α) :
    (a :: rest).findSome? f = (f a).or (rest.findSome? f) := by
  rw [List.findSome?_cons]
  cases f a <;> rfl

/-- A field that is extended by a choice between two is the nearest one over a chain. -/
private theorem field_atop {α : Type} (field : StateDescriptor → Option α)
    (extending : ∀ s b : StateDescriptor, field (s.extending b) = (field s).or (field b))
    (s : StateDescriptor) (bases : List StateDescriptor) :
    field (s.atop bases) = (s :: bases).findSome? field := by
  induction bases generalizing s with
  | nil => simp [atop, findSome?_cons_or]
  | cons b bases ih => rw [atop, extending, ih, ← findSome?_cons_or]

/-- An event has its own disposition before that of the extended state. -/
theorem disposition?_extending (s base : StateDescriptor) (e : EventType) :
    (s.extending base).disposition? e = (s.disposition? e).or (base.disposition? e) := by
  simp only [disposition?, extending, List.find?_append]
  cases own : s.bindings.find? (·.1 == e) with
  | some binding => rfl
  | none =>
    have unnamed : s.declares e = false := by
      simp only [List.find?_eq_none, beq_iff_eq] at own
      simpa [declares, events] using fun d mem => own (e, d) mem rfl
    have same : (fun b : EventType × Disposition =>
        decide ((!s.declares b.1) = true ∧ (b.1 == e) = true)) = (·.1 == e) := by
      funext b
      by_cases this : b.1 = e
      · simp [this, unnamed]
      · simp [this]
    rw [List.find?_filter, same, Option.none_or]
    rfl

theorem events_extending (s b : StateDescriptor) :
    (s.extending b).events = s.events ++ b.events.filter fun e => !s.declares e := by
  simp [extending, events, List.filter_map, Function.comp_def]

theorem nodup_extending (s b : StateDescriptor) (own : s.events.Nodup) (others : b.events.Nodup) :
    (s.extending b).events.Nodup := by
  rw [events_extending]
  refine List.nodup_append.2 ⟨own, others.filter _, ?_⟩
  rintro e mem _ taken rfl
  have unnamed := (List.mem_filter.1 taken).2
  simp [declares, mem] at unnamed

/-- What extending keeps holds of a state over others of which it holds. -/
theorem atop_kept {P : StateDescriptor → Prop} (extending : ∀ s b, P s → P b → P (s.extending b))
    {s : StateDescriptor} {bases : List StateDescriptor} (own : P s) (all : ∀ b ∈ bases, P b) :
    P (s.atop bases) := by
  induction bases generalizing s with
  | nil => exact own
  | cons b bases ih =>
    obtain ⟨near, far⟩ := List.forall_mem_cons.1 all
    exact extending s _ own (ih near far)

theorem takesNearest_atop (s : StateDescriptor) (bases : List StateDescriptor) :
    (s.atop bases).TakesNearest s bases where
  name := name_atop s bases
  initial := initial_atop s bases
  entry := field_atop (·.entry) (fun s b => by simp [extending]) s bases
  exit := field_atop (·.exit) (fun s b => by simp [extending]) s bases
  disposition e := field_atop (·.disposition? e) (fun s b => disposition?_extending s b e) s bases
  once all := atop_kept nodup_extending (all s List.mem_cons_self) fun b mem =>
    all b (List.mem_cons_of_mem _ mem)

end StateDescriptor

/-! ## One state -/

/-- The state is a declared one over the states that it extends. -/
def Resolved (states : List StateDescriptor) (r : StateDescriptor) : Prop :=
  ∃ s ∈ states, ∃ bases, Extends states s bases ∧ r = s.atop bases

variable {actor name : String} {visited : List String} {done done' : List StateDescriptor}
  {r : StateDescriptor}

/-- What is resolved has the name that was asked for, and the states that are done stay so. -/
theorem resolveState_sound (sound : ∀ r ∈ done, Resolved states r)
    (ok : resolveState actor states visited done name = .ok (r, done')) :
    r.name = name ∧ r ∈ done' ∧ (∀ r ∈ done', Resolved states r) ∧ done ⊆ done' := by
  fun_induction resolveState actor states visited done name generalizing r done' with
  | case1 visited name s found =>
    cases ok
    obtain ⟨mem, named⟩ := of_find? found
    exact ⟨named, mem, sound, List.Subset.refl _⟩
  | case2 => cases ok
  | case3 => cases ok
  | case4 visited name _ _ s found alone =>
    cases ok
    obtain ⟨known, named⟩ := of_find? found
    refine ⟨named, List.mem_cons_self, ?_, List.subset_cons_self _ _⟩
    exact List.forall_mem_cons.2 ⟨⟨s, known, [], .root alone, rfl⟩, sound⟩
  | case5 visited name _ _ s found base extends_ _ b done₁ next ih =>
    cases ok
    obtain ⟨known, named⟩ := of_find? found
    obtain ⟨named', mem, sound₁, kept⟩ := ih next
    obtain ⟨t, declared, bases, chain, rfl⟩ := sound₁ b mem
    have links : s.base = some t.name := by rw [extends_, ← named', StateDescriptor.name_atop]
    refine ⟨named, List.mem_cons_self, ?_, fun x old => List.mem_cons_of_mem _ (kept old)⟩
    exact List.forall_mem_cons.2
      ⟨⟨s, known, t :: bases, .link links declared chain, rfl⟩, sound₁⟩
  | case6 => cases ok
  | case7 => cases ok

/-- A state that is neither done nor visited is resolved from the one that it extends. -/
private theorem resolveState_of_fresh (distinct : (states.map (·.name)).Nodup) {s : StateDescriptor}
    (known : s ∈ states) (fresh : s.name ∉ visited)
    (open_ : done.find? (·.name == s.name) = none) :
    resolveState actor states visited done s.name =
      match s.base with
      | none => .ok (s, s :: done)
      | some base =>
        if states.any (·.name == base) then
          match resolveState actor states (s.name :: visited) done base with
          | .ok (b, done) => .ok (s.extending b, s.extending b :: done)
          | .error e => .error e
        else .error (.unknownBase actor s.name base) := by
  obtain ⟨t, found, known', same⟩ := find?_of_named ⟨s, known, rfl⟩
  obtain rfl := eq_of_name distinct known' known same
  conv_lhs => rw [resolveState]
  simp only [open_, List.contains_iff_mem, fresh, not_false_eq_true, dif_neg]
  split
  · next missing => cases missing.symm.trans found
  · next t' found' =>
    obtain rfl := Option.some.inj (found.symm.trans found')
    rfl

/-- A state that has a chain is resolved, if nothing on the chain was visited before. -/
theorem resolveState_complete (distinct : (states.map (·.name)).Nodup) {s : StateDescriptor}
    {bases : List StateDescriptor} (known : s ∈ states) (chain : Extends states s bases)
    (fresh : ∀ t ∈ s :: bases, t.name ∉ visited) :
    ∃ r done', resolveState actor states visited done s.name = .ok (r, done') := by
  induction chain generalizing visited with
  | @root s alone =>
    cases open_ : done.find? (·.name == s.name) with
    | some r => exact ⟨r, done, by rw [resolveState, open_]⟩
    | none =>
      rw [resolveState_of_fresh distinct known (fresh s List.mem_cons_self) open_, alone]
      exact ⟨s, s :: done, rfl⟩
  | @link s b bases base declared rest ih =>
    cases open_ : done.find? (·.name == s.name) with
    | some r => exact ⟨r, done, by rw [resolveState, open_]⟩
    | none =>
      -- The chain does not come back to the state, so the rest of it is not visited yet.
      have apart : ∀ t ∈ b :: bases, t.name ∉ s.name :: visited := by
        intro t mem old
        rcases List.mem_cons.1 old with same | old
        · exact (Extends.link base declared rest).acyclic distinct known mem same
        · exact fresh t (List.mem_cons_of_mem _ mem) old
      have there : states.any (·.name == b.name) = true := by simpa using ⟨b, declared, rfl⟩
      obtain ⟨r, done', next⟩ := ih declared apart
      rw [resolveState_of_fresh distinct known (fresh s List.mem_cons_self) open_, base]
      simp only [there, if_true, next]
      exact ⟨_, _, rfl⟩

/-- Why states are refused: one extends an unknown state, or itself by way of others. -/
inductive Refused (actor : String) (states : List StateDescriptor) : ConfigurationError → Prop where
  | unknown {s : StateDescriptor} {base : String} (declared : s ∈ states)
    (extends_ : s.base = some base) (missing : ∀ t ∈ states, t.name ≠ base) :
    Refused actor states (.unknownBase actor s.name base)
  | cyclic {s : StateDescriptor} (declared : s ∈ states)
    (circle : Relation.TransGen (Refers states) s.name s.name) :
    Refused actor states (.cyclicBase actor s.name)

/-- A refusal is right about the declared states, as what was visited leads to what is resolved. -/
theorem resolveState_refused {e : ConfigurationError} (known : ∃ s ∈ states, s.name = name)
    (path : ∀ v ∈ visited, Relation.TransGen (Refers states) v name)
    (failed : resolveState actor states visited done name = .error e) : Refused actor states e := by
  fun_induction resolveState actor states visited done name with
  | case1 => cases failed
  | case2 visited name _ again =>
    cases failed
    obtain ⟨s, declared, rfl⟩ := known
    exact .cyclic declared (path s.name (List.contains_iff_mem.1 again))
  | case3 visited name _ _ missing =>
    obtain ⟨s, found, -⟩ := find?_of_named known
    cases missing.symm.trans found
  | case4 => cases failed
  | case5 => cases failed
  | case6 visited name _ _ s found base extends_ there e next ih =>
    cases failed
    obtain ⟨declared, named⟩ := of_find? found
    have refers : Refers states name base := ⟨s, declared, named, extends_⟩
    refine ih (by simpa using there) ?_ next
    intro v old
    rcases List.mem_cons.1 old with rfl | old
    · exact .single refers
    · exact (path v old).tail refers
  | case7 visited name _ _ s found base extends_ missing =>
    cases failed
    obtain ⟨declared, rfl⟩ := of_find? found
    exact .unknown declared extends_ (by simpa using missing)

/-! ## All states -/

theorem resolveNames_sound {names : List String} (sound : ∀ r ∈ done, Resolved states r)
    (ok : resolveNames actor states names done = .ok done') :
    (∀ r ∈ done', Resolved states r) ∧ done ⊆ done' ∧
      ∀ name ∈ names, ∃ r ∈ done', r.name = name := by
  induction names generalizing done with
  | nil =>
    cases ok
    exact ⟨sound, List.Subset.refl _, by simp⟩
  | cons name names ih =>
    rw [resolveNames] at ok
    split at ok
    · next r done₁ first =>
      obtain ⟨named, mem, sound₁, kept⟩ := resolveState_sound sound first
      obtain ⟨sound', kept', others⟩ := ih sound₁ ok
      refine ⟨sound', List.Subset.trans kept kept', ?_⟩
      exact List.forall_mem_cons.2 ⟨⟨r, kept' mem, named⟩, others⟩
    · cases ok

theorem resolveNames_complete (distinct : (states.map (·.name)).Nodup) {names : List String}
    (chains : ∀ name ∈ names, ∃ s ∈ states, s.name = name ∧ ∃ bases, Extends states s bases) :
    ∃ done', resolveNames actor states names done = .ok done' := by
  induction names generalizing done with
  | nil => exact ⟨done, rfl⟩
  | cons name names ih =>
    obtain ⟨⟨s, known, rfl, bases, chain⟩, others⟩ := List.forall_mem_cons.1 chains
    obtain ⟨r, done₁, first⟩ :
        ∃ r done₁, resolveState actor states [] done s.name = .ok (r, done₁) :=
      resolveState_complete distinct known chain (by simp)
    obtain ⟨done', rest⟩ : ∃ done', resolveNames actor states names done₁ = .ok done' := ih others
    refine ⟨done', ?_⟩
    rw [resolveNames, first]
    exact rest

theorem resolveNames_refused {e : ConfigurationError} {names : List String}
    (known : ∀ name ∈ names, ∃ s ∈ states, s.name = name)
    (failed : resolveNames actor states names done = .error e) : Refused actor states e := by
  induction names generalizing done with
  | nil => cases failed
  | cons name names ih =>
    obtain ⟨here, others⟩ := List.forall_mem_cons.1 known
    rw [resolveNames] at failed
    split at failed
    · exact ih others failed
    · next first =>
      cases failed
      exact resolveState_refused here (by simp) first

/-- What is resolved is, for each state, a state of its name over the states that it extends. -/
theorem resolveStates_sound {resolved : List StateDescriptor}
    (ok : resolveStates actor states = .ok resolved) :
    ∃ f : StateDescriptor → StateDescriptor, resolved = states.map f ∧
      ∀ s ∈ states, (f s).name = s.name ∧ Resolved states (f s) := by
  rw [resolveStates] at ok
  split at ok
  · next done all =>
    obtain ⟨sound, -, covered⟩ := resolveNames_sound (by simp) all
    cases ok
    refine ⟨_, rfl, fun s mem => ?_⟩
    obtain ⟨r, found, mem', named⟩ :=
      find?_of_named (covered s.name (List.mem_map.2 ⟨s, mem, rfl⟩))
    simp only [found, Option.getD_some]
    exact ⟨named, sound r mem'⟩
  · cases ok

/-- Every state has a chain if all of them are resolved. -/
theorem chain_of_resolveStates (distinct : (states.map (·.name)).Nodup)
    {resolved : List StateDescriptor} (ok : resolveStates actor states = .ok resolved)
    {s : StateDescriptor} (known : s ∈ states) : ∃ bases, Extends states s bases := by
  obtain ⟨f, -, sound⟩ := resolveStates_sound ok
  obtain ⟨named, t, known', bases, chain, same⟩ := sound s known
  rw [same, StateDescriptor.name_atop] at named
  exact ⟨bases, eq_of_name distinct known' known named ▸ chain⟩

/-- States with chains are all resolved, each over its chain. -/
theorem resolveStates_eq_map (actor : String) (distinct : (states.map (·.name)).Nodup)
    {chain : StateDescriptor → List StateDescriptor}
    (chains : ∀ s ∈ states, Extends states s (chain s)) :
    resolveStates actor states = .ok (states.map fun s => s.atop (chain s)) := by
  have named : ∀ name ∈ states.map (·.name),
      ∃ s ∈ states, s.name = name ∧ ∃ bases, Extends states s bases := by
    intro name mem
    obtain ⟨s, known, rfl⟩ := List.mem_map.1 mem
    exact ⟨s, known, rfl, chain s, chains s known⟩
  obtain ⟨done, all⟩ : ∃ done, resolveNames actor states (states.map (·.name)) [] = .ok done :=
    resolveNames_complete distinct named
  obtain ⟨resolved, ok⟩ : ∃ resolved, resolveStates actor states = .ok resolved := by
    rw [resolveStates, all]
    exact ⟨_, rfl⟩
  obtain ⟨f, same, sound⟩ := resolveStates_sound ok
  rw [ok, same]
  refine congrArg Except.ok (List.map_congr_left fun s known => ?_)
  obtain ⟨named, t, known', bases, chain', eq⟩ := sound s known
  rw [eq, StateDescriptor.name_atop] at named
  obtain rfl := eq_of_name distinct known' known named
  rw [eq, chain'.unique distinct (chains t known)]

/-- Resolved states are the declared ones, each over the chain that it extends. -/
theorem exists_chain_of_resolveStates (distinct : (states.map (·.name)).Nodup)
    {resolved : List StateDescriptor} (ok : resolveStates actor states = .ok resolved) :
    ∃ chain : StateDescriptor → List StateDescriptor,
      (∀ s ∈ states, Extends states s (chain s)) ∧
        resolved = states.map fun s => s.atop (chain s) := by
  have chains : ∀ s ∈ states, ∃ bases, Extends states s bases :=
    fun s known => chain_of_resolveStates distinct ok known
  choose! chain chains using chains
  exact ⟨chain, chains, Except.ok.inj (ok.symm.trans (resolveStates_eq_map actor distinct chains))⟩

/-- What extending keeps holds of every resolved state. -/
theorem resolveStates_kept {P : StateDescriptor → Prop} {resolved : List StateDescriptor}
    (extending : ∀ s b, P s → P b → P (s.extending b)) (all : ∀ s ∈ states, P s)
    (ok : resolveStates actor states = .ok resolved) : ∀ r ∈ resolved, P r := by
  obtain ⟨f, rfl, sound⟩ := resolveStates_sound ok
  intro r mem
  obtain ⟨s, known, rfl⟩ := List.mem_map.1 mem
  obtain ⟨-, t, known', bases, chain, same⟩ := sound s known
  rw [same]
  exact StateDescriptor.atop_kept extending (all t known') fun b mem => all b (chain.declared mem)

/-- States that extend none are as they were declared. -/
theorem resolveStates_of_plain (actor : String) (distinct : (states.map (·.name)).Nodup)
    (plain : ∀ s ∈ states, s.base = none) : resolveStates actor states = .ok states := by
  have chains : ∀ s ∈ states, Extends states s [] := fun s known => .root (plain s known)
  rw [resolveStates_eq_map actor distinct chains]
  simp [StateDescriptor.atop]

/-! ## Inheritance along chains -/

/-- States are resolved to the nearest declarations along their chains. -/
structure ResolvesToNearest (actor : String) (states : List StateDescriptor) : Prop where
  succeeds : (∃ resolved, resolveStates actor states = .ok resolved) ↔
    ∀ s ∈ states, ∃ bases, Extends states s bases
  /-- The states stay in order, and what becomes of each of them does not depend on the order. -/
  nearest : ∀ resolved, resolveStates actor states = .ok resolved →
    ∃ f : StateDescriptor → StateDescriptor, resolved = states.map f ∧
      (∀ s ∈ states, ∃ bases, Extends states s bases ∧ (f s).TakesNearest s bases) ∧
      ∀ other, other.Perm states → resolveStates actor other = .ok (other.map f)
  refused : ∀ e, resolveStates actor states = .error e → Refused actor states e
  targets : ∀ other state target,
    resolveStates actor states ≠ .error (.unknownTarget other state target)

/-- Extending resolves to the nearest declaring state: all states are resolved exactly if every
chain ends at a state that extends none, and then each has the entry action, the exit action and the
disposition of each event of the first state along its chain that has one. -/
theorem resolves_to_nearest (actor : String) {states : List StateDescriptor}
    (distinct : (states.map (·.name)).Nodup) : ResolvesToNearest actor states := by
  have refused : ∀ e, resolveStates actor states = .error e → Refused actor states e := by
    intro e failed
    rw [resolveStates] at failed
    split at failed
    · cases failed
    · next first =>
      cases failed
      refine resolveNames_refused (fun name mem => ?_) first
      simpa using mem
  refine ⟨⟨fun ⟨resolved, ok⟩ s known => chain_of_resolveStates distinct ok known, ?_⟩, ?_, refused,
    ?_⟩
  · intro chains
    choose! chain chains using chains
    exact ⟨_, resolveStates_eq_map actor distinct chains⟩
  · intro resolved ok
    obtain ⟨chain, chains, same⟩ := exists_chain_of_resolveStates distinct ok
    refine ⟨fun s => s.atop (chain s), same, ?_, ?_⟩
    · exact fun s known => ⟨chain s, chains s known, s.takesNearest_atop (chain s)⟩
    · intro other perm
      refine resolveStates_eq_map actor ((perm.map _).nodup_iff.2 distinct) fun s known => ?_
      exact (chains s (perm.subset known)).mono perm.symm.subset
  · intro other state target failed
    cases refused _ failed

/-- A lamp that is lit extends one that is dark, which extends a state that is declared between. -/
def dimming : List StateDescriptor :=
  [⟨"Dark", true, some "Wired", none, none, [(⟨"Press"⟩, .goto "Lit" none)]⟩,
    ⟨"Wired", false, none, none, none, [(⟨"Press"⟩, .defer), (⟨"Tick"⟩, .ignore)]⟩,
    ⟨"Lit", false, some "Dark", none, none, [(⟨"Press"⟩, .goto "Dark" none)]⟩]

/-- A lamp's states are resolved to the nearest declarations. -/
theorem resolves_to_nearest_dimming :
    (dimming.map (·.name)).Nodup ∧ ResolvesToNearest "Lamp" dimming ∧
      ∃ resolved, resolveStates "Lamp" dimming = .ok resolved := by
  have distinct : (dimming.map (·.name)).Nodup := by decide
  have resolves := resolves_to_nearest "Lamp" distinct
  refine ⟨distinct, resolves, resolves.succeeds.2 ?_⟩
  have wired : Extends dimming dimming[1] [] := .root rfl
  have dark : Extends dimming dimming[0] [dimming[1]] := .link rfl (by simp [dimming]) wired
  have lit : Extends dimming dimming[2] [dimming[0], dimming[1]] :=
    .link rfl (by simp [dimming]) dark
  intro s mem
  simp only [dimming, List.mem_cons, List.not_mem_nil, or_false] at mem
  rcases mem with rfl | rfl | rfl
  · exact ⟨_, dark⟩
  · exact ⟨_, wired⟩
  · exact ⟨_, lit⟩

end SteeredActors
