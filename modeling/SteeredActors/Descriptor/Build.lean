import SteeredActors.Descriptor.Basic

/-!
# Building descriptors

A declaration lists the states of a type of actors and the sets of states that it inherits. Building
checks it and resolves inheritance in both of its forms: a set adds the states that are not there
yet, and a state that extends another takes over what it does not declare itself. What is built is
well formed: one initial state, one state per name, one disposition per event, and no dangling
target.
-/

set_option autoImplicit false
set_option relaxedAutoImplicit false

namespace SteeredActors

/-- Why a declaration is refused. -/
inductive ConfigurationError where
  | noStates (actor : String)
  | noInitialState (actor : String)
  | multipleInitialStates (actor : String) (states : List String)
  | duplicateState (actor state : String)
  | unknownTarget (actor state target : String)
  | unknownBase (actor state base : String)
  | cyclicBase (actor state : String)
  | conflictingHandlers (actor state event : String)
  | pushInMonitor (monitor state : String)
  | duplicateType (typeTag : String)
deriving DecidableEq, Repr

/-- The text of a refusal. -/
def ConfigurationError.message : ConfigurationError → String
  | .noStates actor => s!"Actor '{actor}' declares no states"
  | .noInitialState actor => s!"Actor '{actor}' must declare an initial state"
  | .multipleInitialStates actor states =>
    s!"Actor '{actor}' can not have more than one initial state: {Text.Quoted.encodeList states}"
  | .duplicateState actor state => s!"Actor '{actor}' declares state '{state}' more than once"
  | .unknownTarget actor state target =>
    s!"State '{state}' of actor '{actor}' targets unknown state '{target}'"
  | .unknownBase actor state base =>
    s!"State '{state}' of actor '{actor}' extends unknown state '{base}'"
  | .cyclicBase actor state =>
    s!"State '{state}' of actor '{actor}' is part of a cyclic extends chain"
  | .conflictingHandlers actor state event =>
    s!"State '{state}' of actor '{actor}' declares more than one handler for event '{event}'"
  | .pushInMonitor monitor state =>
    s!"Monitor '{monitor}' declares a push transition in state '{state}'"
  | .duplicateType typeTag => s!"Actor type '{typeTag}' is registered more than once"

/-- The items that stand behind an equal one, in order; `seen` stands before all. -/
def repeated {α : Type} [BEq α] (seen : List α) : List α → List α
  | [] => []
  | a :: rest =>
    if seen.contains a then a :: repeated seen rest else repeated (a :: seen) rest

/-- The events that a state declares again, in order. -/
def StateDescriptor.conflicts (s : StateDescriptor) : List EventType := repeated [] s.events

/-- The states and what they declare again, in order. -/
def conflictsOf (states : List StateDescriptor) : List (String × EventType) :=
  states.flatMap fun s => s.conflicts.map (s.name, ·)

/-- The states of a set whose names are neither taken nor used before in the set. -/
def adopted (taken : List String) : List StateDescriptor → List StateDescriptor
  | [] => []
  | s :: rest =>
    if taken.contains s.name then adopted taken rest else s :: adopted (s.name :: taken) rest

/-- The states after sets of states were inherited, with what is declared again. A set's conflicts
count for the names that it added. -/
def inherit (states : List StateDescriptor) (conflicts : List (String × EventType)) :
    List (List StateDescriptor) → List StateDescriptor × List (String × EventType)
  | [] => (states, conflicts)
  | set :: rest =>
    let new := adopted (states.map (·.name)) set
    let names := new.map (·.name)
    inherit (states ++ new) (conflicts ++ (conflictsOf set).filter fun c => names.contains c.1) rest

/-! ## Extended states -/

/-- A filter that keeps less keeps fewer. -/
theorem length_filter_lt {α : Type} {p q : α → Bool} {xs : List α}
    (weaker : ∀ x ∈ xs, p x = true → q x = true)
    (lost : ∃ x ∈ xs, q x = true ∧ p x = false) :
    (xs.filter p).length < (xs.filter q).length := by
  induction xs with
  | nil => obtain ⟨x, hx, _⟩ := lost; cases hx
  | cons a rest ih =>
    have le : (rest.filter p).length ≤ (rest.filter q).length := by
      rw [← List.countP_eq_length_filter, ← List.countP_eq_length_filter]
      exact List.countP_mono_left fun x hx => weaker x (List.mem_cons_of_mem _ hx)
    obtain ⟨x, hx, hq, hp⟩ := lost
    rcases List.mem_cons.1 hx with rfl | hx
    · simp only [List.filter_cons, hq, hp, if_true, Bool.false_eq_true, if_false,
        List.length_cons]
      omega
    · have lt := ih (fun y hy => weaker y (List.mem_cons_of_mem _ hy)) ⟨x, hx, hq, hp⟩
      have first := weaker a List.mem_cons_self
      cases ha : p a <;> cases hb : q a <;>
        simp_all only [List.filter_cons, if_true, Bool.false_eq_true, if_false, List.length_cons,
          imp_false, not_true_eq_false] <;> omega

/-- Resolve the state of a name: it takes over what it does not declare itself from the state that it
extends. States that are `done` are not resolved again; the names `visited` on the way there tell a
circle. -/
def resolveState (actor : String) (states : List StateDescriptor) (visited : List String)
    (done : List StateDescriptor) (name : String) :
    Except ConfigurationError (StateDescriptor × List StateDescriptor) :=
  match done.find? (·.name == name) with
  | some s => .ok (s, done)
  | none =>
    if _ : visited.contains name then .error (.cyclicBase actor name)
    else
      match _ : states.find? (·.name == name) with
      | none => .error (.unknownTarget actor name name)
      | some s =>
        match s.base with
        | none => .ok (s, s :: done)
        | some base =>
          if states.any (·.name == base) then
            match resolveState actor states (name :: visited) done base with
            | .ok (b, done) => .ok (s.extending b, s.extending b :: done)
            | .error e => .error e
          else .error (.unknownBase actor name base)
termination_by (states.filter fun t => !visited.contains t.name).length
decreasing_by
  have found := ‹states.find? (·.name == name) = some s›
  have fresh := ‹¬visited.contains name = true›
  have named : s.name = name := by simpa using List.find?_some found
  apply length_filter_lt
  · intro t _ h
    simp_all
  · exact ⟨s, List.mem_of_find?_eq_some found, by simpa [named] using fresh, by simp [named]⟩

/-- Resolve the states of some names, one after the other. -/
def resolveNames (actor : String) (states : List StateDescriptor) :
    List String → List StateDescriptor → Except ConfigurationError (List StateDescriptor)
  | [], done => .ok done
  | name :: names, done =>
    match resolveState actor states [] done name with
    | .ok (_, done) => resolveNames actor states names done
    | .error e => .error e

/-- Resolve what states extend; they stay in order. -/
def resolveStates (actor : String) (states : List StateDescriptor) :
    Except ConfigurationError (List StateDescriptor) :=
  match resolveNames actor states (states.map (·.name)) [] with
  | .ok done => .ok (states.map fun s => (done.find? (·.name == s.name)).getD s)
  | .error e => .error e

/-! ## Checks -/

/-- The first reason to refuse the states before they are resolved. -/
def declarationFault? (actor : String) (kind : ActorKind) (states : List StateDescriptor)
    (conflicts : List (String × EventType)) : Option ConfigurationError :=
  match conflicts with
  | (state, event) :: _ => some (.conflictingHandlers actor state event.name)
  | [] =>
    match kind, states.find? StateDescriptor.pushes with
    | .monitor, some s => some (.pushInMonitor actor s.name)
    | _, _ => if states.isEmpty then some (.noStates actor) else none

/-- The only initial state. -/
def initialState (actor : String) (states : List StateDescriptor) :
    Except ConfigurationError StateDescriptor :=
  match states.filter (·.initial) with
  | [] => .error (.noInitialState actor)
  | [s] => .ok s
  | many => .error (.multipleInitialStates actor (many.map (·.name)))

/-- The first target of a state that is no state. -/
def unknownTarget? (names : List String) (s : StateDescriptor) : Option String :=
  s.targets.find? fun target => !names.contains target

/-- The first reason to refuse resolved states: a target that is no state. -/
def targetFault? (actor : String) (states : List StateDescriptor) : Option ConfigurationError :=
  states.findSome? fun s =>
    (unknownTarget? (states.map (·.name)) s).map (.unknownTarget actor s.name)

/-! ## Declarations -/

/-- What a descriptor is built from. -/
structure Declaration where
  typeTag : String
  kind : ActorKind
  /-- The states declared for this type. -/
  derived : List StateDescriptor
  /-- The sets of states it inherits, in order. -/
  inherited : List (List StateDescriptor)
  observes : List EventType

/-- Check a declaration and resolve its inheritance. -/
def Declaration.build (d : Declaration) : Except ConfigurationError Descriptor := do
  if let name :: _ := repeated [] (d.derived.map (·.name)) then
    throw (.duplicateState d.typeTag name)
  let (states, conflicts) := inherit d.derived (conflictsOf d.derived) d.inherited
  if let some fault := declarationFault? d.typeTag d.kind states conflicts then throw fault
  let states ← resolveStates d.typeTag states
  let initial ← initialState d.typeTag states
  if let some fault := targetFault? d.typeTag states then throw fault
  return ⟨d.typeTag, d.kind, states, initial, d.observes⟩

end SteeredActors
