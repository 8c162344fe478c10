import SteeredActors.ActiveState

/-!
# What a stack does, said by its descriptors

A state is merged once with what lies beneath it when it is entered, and an event is resolved by
looking at one merged state after the other. The same is found by one lookup in the descriptors of
the stack: the highest state that names the event decides, and it hands the decision on to those
below it when it defers. The lookup knows nothing of merging.
-/

set_option autoImplicit false
set_option relaxedAutoImplicit false

namespace SteeredActors

/-- The stack that comes of entering states one after the other; the top first. -/
def mergedStack : List StateDescriptor → List ActiveState
  | [] => []
  | s :: below => ActiveState.ofState s (mergedStack below).head? :: mergedStack below

/-- What a stack of states does with an event. -/
inductive Response where
  /-- The event is dropped, and this stack is left. -/
  | dropped (stack : List StateDescriptor)
  /-- The event is consumed, from this stack. -/
  | consumed (binding : Binding) (stack : List StateDescriptor)
  /-- No state consumes or drops the event. -/
  | unhandled

/-- Look an event up in the states that are left to be asked. Those above them in the stack do not
name it, and stay for whatever does not leave the state that decides. -/
def lookupFrom (e : EventType) (stack : List StateDescriptor) : List StateDescriptor → Response
  | [] => .unhandled
  | s :: below =>
    match s.disposition? e with
    | none => lookupFrom e stack below
    | some .ignore => .dropped stack
    | some (.action a) => .consumed (.action a) stack
    | some (.goto target transition) => .consumed (.goto target transition) (s :: below)
    | some (.push target) => .consumed (.push target) (s :: below)
    | some .defer => lookupFrom e below below

/-- Look an event up in the states of a stack, the top first. -/
def lookup (e : EventType) (stack : List StateDescriptor) : Response := lookupFrom e stack stack

/-- A response with the stack as it is kept. -/
def Response.merged : Response → Resolution
  | .dropped stack => .ignored (mergedStack stack)
  | .consumed binding stack => .bound binding (mergedStack stack)
  | .unhandled => .exhausted

/-- What the highest state that names an event says about it. -/
def deciding? (e : EventType) (stack : List StateDescriptor) : Option Disposition :=
  stack.findSome? (·.disposition? e)

/-- The action of a disposition. -/
def Disposition.action? : Disposition → Option Action
  | .action a => some a
  | _ => none

/-- The event is dropped. -/
def Disposition.isIgnore : Disposition → Bool
  | .ignore => true
  | _ => false

/-! ## One state -/

namespace StateDescriptor

variable {s : StateDescriptor} {e : EventType}

theorem declares_eq_isSome (s : StateDescriptor) (e : EventType) :
    s.declares e = (s.disposition? e).isSome := by
  rw [Bool.eq_iff_iff]
  simp [declares, events, disposition?, List.find?_isSome]

/-- With one disposition per event, the first one is the only one. -/
theorem disposition?_eq_some (distinct : s.events.Nodup) {d : Disposition} :
    s.disposition? e = some d ↔ (e, d) ∈ s.bindings := by
  unfold disposition?
  unfold events at distinct
  generalize s.bindings = bindings at distinct
  induction bindings with
  | nil => simp
  | cons b rest ih =>
    obtain ⟨apart, distinct⟩ := List.nodup_cons.1 distinct
    by_cases same : b.1 = e
    · subst same
      have alone : (b.1, d) ∉ rest := fun mem => apart (List.mem_map.2 ⟨_, mem, rfl⟩)
      simp only [List.find?_cons_of_pos, beq_self_eq_true, Option.map_some, Option.some.injEq,
        List.mem_cons, alone, or_false]
      exact ⟨fun same => same ▸ rfl, fun same => same ▸ rfl⟩
    · rw [List.find?_cons_of_neg (by simpa using same), ih distinct]
      simp [show (e, d) ≠ b from fun whole => same (whole ▸ rfl)]

theorem mem_of_disposition? {d : Disposition} (found : s.disposition? e = some d) :
    (e, d) ∈ s.bindings := by
  obtain ⟨⟨e', d'⟩, there, rfl⟩ := Option.map_eq_some_iff.1 found
  have same := List.find?_some there
  simp only [beq_iff_eq] at same
  exact same ▸ List.mem_of_find?_eq_some there

theorem find?_actions (distinct : s.events.Nodup) :
    (s.actions.find? (·.1 == e)).map (·.2) = (s.disposition? e).bind Disposition.action? := by
  have mem : ∀ e a, (e, a) ∈ s.actions ↔ s.disposition? e = some (.action a) := by
    intro e a
    rw [disposition?_eq_some distinct, actions, List.mem_filterMap]
    constructor
    · rintro ⟨⟨e', d⟩, mem, kept⟩
      cases d <;> simp_all
    · exact fun mem => ⟨_, mem, rfl⟩
  cases found : s.actions.find? (·.1 == e) with
  | some x =>
    obtain rfl : x.1 = e := by simpa using List.find?_some found
    simp [(mem x.1 x.2).1 (List.mem_of_find?_eq_some found), Disposition.action?]
  | none =>
    cases disposed : s.disposition? e with
    | none => rfl
    | some d =>
      cases d with
      | action a =>
        have absent := List.find?_eq_none.1 found (e, a) ((mem e a).2 disposed)
        simp at absent
      | _ => rfl

theorem contains_ignored (distinct : s.events.Nodup) :
    s.ignored.contains e = (s.disposition? e).any Disposition.isIgnore := by
  have mem : e ∈ s.ignored ↔ s.disposition? e = some .ignore := by
    rw [disposition?_eq_some distinct, ignored, List.mem_filterMap]
    constructor
    · rintro ⟨⟨e', d⟩, mem, kept⟩
      cases d <;> simp_all
    · exact fun mem => ⟨_, mem, rfl⟩
  rw [Bool.eq_iff_iff, List.contains_iff_mem, mem]
  cases disposed : s.disposition? e with
  | none => simp
  | some d => cases d <;> simp [Disposition.isIgnore]

end StateDescriptor

/-! ## Merged states -/

variable {e : EventType} {s : StateDescriptor} {below stack : List StateDescriptor}

@[simp] theorem ActiveState.state_ofState (s : StateDescriptor) (lower : Option ActiveState) :
    (ofState s lower).state = s := by
  cases lower <;> rfl

@[simp] theorem map_state_mergedStack (stack : List StateDescriptor) :
    (mergedStack stack).map (·.state) = stack := by
  induction stack with
  | nil => rfl
  | cons s below ih => simp [mergedStack, ih]

theorem deciding?_cons_of_some {d : Disposition} (names : s.disposition? e = some d) :
    deciding? e (s :: below) = some d := by
  simp [deciding?, names]

theorem deciding?_cons_of_none (silent : s.disposition? e = none) :
    deciding? e (s :: below) = deciding? e below := by
  simp [deciding?, silent]

namespace ActiveState

/-- What a state names it does not take over. -/
private theorem find?_inherited (s : StateDescriptor) (below : ActiveState) (e : EventType) :
    (below.actions.filter fun a => !s.declares a.1).find? (·.1 == e) =
      if s.declares e then none else below.actions.find? (·.1 == e) := by
  have same : (fun a : EventType × Action =>
      decide ((!s.declares a.1) = true ∧ (a.1 == e) = true)) =
      fun a => !s.declares e && a.1 == e := by
    funext a
    by_cases h : a.1 = e <;> simp [h]
  rw [List.find?_filter, same]
  cases s.declares e <;> simp

theorem action?_ofState (own : s.events.Nodup) (lower : Option ActiveState) (e : EventType) :
    (ofState s lower).action? e =
      match s.disposition? e with
      | some d => d.action?
      | none => lower.bind (·.action? e) := by
  have mine := StateDescriptor.find?_actions (e := e) own
  cases lower with
  | none =>
    rw [show (ofState s none).action? e = (s.actions.find? (·.1 == e)).map (·.2) from rfl, mine]
    cases s.disposition? e <;> rfl
  | some below =>
    rw [show (ofState s (some below)).action? e = ((s.actions ++
      below.actions.filter fun a => !s.declares a.1).find? (·.1 == e)).map (·.2) from rfl,
      List.find?_append, Option.map_or, mine, find?_inherited, s.declares_eq_isSome]
    cases disposed : s.disposition? e with
    | none => simp [action?]
    | some d => cases d <;> simp [Disposition.action?]

theorem ignores_ofState (own : s.events.Nodup) {lower : Option ActiveState} {e : EventType}
    (apart : ∀ below, lower = some below → below.ignores e = true → below.action? e = none) :
    (ofState s lower).ignores e =
      match s.disposition? e with
      | some d => d.isIgnore
      | none => lower.any (·.ignores e) := by
  have mine := StateDescriptor.contains_ignored (e := e) own
  cases lower with
  | none =>
    rw [show (ofState s none).ignores e = s.ignored.contains e from rfl, mine]
    cases s.disposition? e <;> rfl
  | some below =>
    have effective : ((ofState s (some below)).actions.map (·.1)).contains e =
        ((ofState s (some below)).action? e).isSome := by
      rw [Bool.eq_iff_iff]
      simp [action?, List.find?_isSome]
    have spelled : (ofState s (some below)).ignores e = (s.ignored.contains e ||
        below.ignores e && (!s.declares e && !((ofState s (some below)).action? e).isSome)) := by
      rw [← effective, Bool.eq_iff_iff]
      simp [ignores, ofState]
    rw [spelled, mine, s.declares_eq_isSome, action?_ofState own]
    cases disposed : s.disposition? e with
    | some d => simp
    | none =>
      cases drops : below.ignores e with
      | false => simp [drops]
      | true => simp [drops, apart below rfl drops]

end ActiveState

/-- Merging gives the current state the action and the ignored events that the highest state that
names them has. -/
theorem effective_of_mergedStack (distinct : ∀ s ∈ stack, s.events.Nodup) {top : ActiveState}
    (current : (mergedStack stack).head? = some top) (e : EventType) :
    top.action? e = (deciding? e stack).bind Disposition.action? ∧
      top.ignores e = (deciding? e stack).any Disposition.isIgnore := by
  induction stack generalizing top with
  | nil => cases current
  | cons s below ih =>
    obtain ⟨own, others⟩ := List.forall_mem_cons.1 distinct
    obtain rfl := Option.some.inj current
    have apart : ∀ lower, (mergedStack below).head? = some lower → lower.ignores e = true →
        lower.action? e = none := by
      intro lower beneath drops
      rw [(ih others beneath).2, Option.any_eq_true] at drops
      obtain ⟨d, decides, drops⟩ := drops
      rw [(ih others beneath).1, decides]
      cases d <;> first | rfl | cases drops
    rw [ActiveState.action?_ofState own, ActiveState.ignores_ofState own apart]
    cases names : s.disposition? e with
    | some d => simp [deciding?_cons_of_some names]
    | none =>
      rw [deciding?_cons_of_none names]
      cases beneath : (mergedStack below).head? with
      | some lower => exact ih others beneath
      | none =>
        cases below with
        | nil => exact ⟨rfl, rfl⟩
        | cons s' below => cases beneath

theorem head?_mergedStack (s : StateDescriptor) (below : List StateDescriptor) :
    (mergedStack (s :: below)).head? =
      some (ActiveState.ofState s (mergedStack below).head?) := rfl

/-- What is left of a merged stack after pops is merged. -/
theorem mergedStack_suffix {rest : List ActiveState} (left : rest <:+ mergedStack stack) :
    ∃ states, states <:+ stack ∧ rest = mergedStack states := by
  induction stack with
  | nil => exact ⟨[], List.suffix_rfl, List.suffix_nil.1 left⟩
  | cons s below ih =>
    rcases List.suffix_cons_iff.1 left with rfl | left
    · exact ⟨_, List.suffix_rfl, rfl⟩
    · obtain ⟨states, suffix, merged⟩ := ih left
      exact ⟨states, suffix.trans (List.suffix_cons s below), merged⟩

/-! ## Lookups -/

/-- An event is consumed by a state of the stack, and what stays is the stack from there on. -/
theorem resolveEvent_bound {stack rest : List ActiveState} {binding : Binding}
    (resolved : resolveEvent e stack = .bound binding rest) :
    rest <:+ stack ∧ ∃ top, rest.head? = some top ∧ top.binding? e = some binding := by
  induction stack with
  | nil => cases resolved
  | cons top below ih =>
    unfold resolveEvent at resolved
    split at resolved
    · cases resolved
    · split at resolved
      · next binds =>
        cases resolved
        exact ⟨List.suffix_rfl, top, rfl, binds⟩
      · obtain ⟨suffix, consumes⟩ := ih resolved
        exact ⟨suffix.trans (List.suffix_cons top below), consumes⟩

theorem resolveEvent_ignored {stack rest : List ActiveState}
    (resolved : resolveEvent e stack = .ignored rest) : rest <:+ stack ∧ rest ≠ [] := by
  induction stack with
  | nil => cases resolved
  | cons top below ih =>
    unfold resolveEvent at resolved
    split at resolved
    · cases resolved
      exact ⟨List.suffix_rfl, List.cons_ne_nil _ _⟩
    · split at resolved
      · cases resolved
      · exact (ih resolved).imp_left fun suffix => suffix.trans (List.suffix_cons top below)

namespace ActiveState

variable {top : ActiveState} {target : String}

theorem target_of_goto {transition : Option Action}
    (binds : top.binding? e = some (.goto target transition)) : target ∈ top.state.targets := by
  unfold binding? at binds
  split at binds
  · next found =>
    cases binds
    have mem := StateDescriptor.mem_of_disposition? found
    exact List.mem_append.2 (.inl (List.mem_filterMap.2 ⟨_, mem, rfl⟩))
  · cases binds
  · obtain ⟨a, _, same⟩ := Option.map_eq_some_iff.1 binds
    cases same

theorem pushes_of_push (binds : top.binding? e = some (.push target)) :
    (e, .push target) ∈ top.state.bindings := by
  unfold binding? at binds
  split at binds
  · cases binds
  · next found =>
    cases binds
    exact StateDescriptor.mem_of_disposition? found
  · obtain ⟨a, _, same⟩ := Option.map_eq_some_iff.1 binds
    cases same

end ActiveState

/-! ## Roles of an event -/

/-- What an event can be to an active state. -/
inductive Role where
  | goto
  | push
  | action
  | ignored
  | deferred
deriving DecidableEq, Repr

/-- The role that a disposition gives. -/
def Disposition.role : Disposition → Role
  | .goto _ _ => .goto
  | .push _ => .push
  | .action _ => .action
  | .ignore => .ignored
  | .defer => .deferred

/-- An event has a role in an active state: it is listed among what the state itself leaves for,
pushes on or defers, or among the effective actions or the effective ignored events. -/
def ActiveState.Plays (s : ActiveState) (e : EventType) : Role → Prop
  | .goto => ∃ target transition, (e, .goto target transition) ∈ s.state.bindings
  | .push => ∃ target, (e, .push target) ∈ s.state.bindings
  | .action => ∃ a, (e, a) ∈ s.actions
  | .ignored => e ∈ s.ignored
  | .deferred => (e, .defer) ∈ s.state.bindings

/-- An event that can be consumed has a role other than to be ignored. -/
theorem ActiveState.exists_plays_of_binding? {s : ActiveState} {e : EventType} {binding : Binding}
    (binds : s.binding? e = some binding) : ∃ r, r ≠ .ignored ∧ s.Plays e r := by
  unfold ActiveState.binding? at binds
  split at binds
  · next found => exact ⟨.goto, nofun, _, _, StateDescriptor.mem_of_disposition? found⟩
  · next found => exact ⟨.push, nofun, _, StateDescriptor.mem_of_disposition? found⟩
  · obtain ⟨a, effective, _⟩ := Option.map_eq_some_iff.1 binds
    obtain ⟨⟨e', a'⟩, found, _⟩ := Option.map_eq_some_iff.1 effective
    obtain rfl : e' = e := by simpa using List.find?_some found
    exact ⟨.action, nofun, a', List.mem_of_find?_eq_some found⟩

/-- The role of an event is the one that the highest state gives it that names it. -/
private theorem role_of_plays (distinct : ∀ s ∈ stack, s.events.Nodup) {top : ActiveState}
    (current : (mergedStack stack).head? = some top) {e : EventType} {r : Role}
    (plays : top.Plays e r) : (deciding? e stack).map Disposition.role = some r := by
  cases stack with
  | nil => cases current
  | cons s below =>
    obtain ⟨acts, drops⟩ := effective_of_mergedStack distinct current e
    obtain rfl := Option.some.inj current
    have own := distinct s List.mem_cons_self
    have named : ∀ d, (e, d) ∈ s.bindings → deciding? e (s :: below) = some d := fun d mem =>
      deciding?_cons_of_some ((StateDescriptor.disposition?_eq_some own).2 mem)
    cases r <;> simp only [ActiveState.Plays, ActiveState.state_ofState] at plays
    case goto =>
      obtain ⟨target, transition, mem⟩ := plays
      rw [named _ mem]
      rfl
    case push =>
      obtain ⟨target, mem⟩ := plays
      rw [named _ mem]
      rfl
    case deferred =>
      rw [named _ plays]
      rfl
    case action =>
      obtain ⟨a, mem⟩ := plays
      have found : ((ActiveState.ofState s (mergedStack below).head?).action? e).isSome = true := by
        rw [ActiveState.action?, Option.isSome_map, List.find?_isSome]
        exact ⟨_, mem, by simp⟩
      rw [acts] at found
      cases decides : deciding? e (s :: below) with
      | none => simp [decides] at found
      | some d => cases d <;> simp_all [Disposition.action?, Disposition.role]
    case ignored =>
      have found : (ActiveState.ofState s (mergedStack below).head?).ignores e = true :=
        List.contains_iff_mem.2 plays
      rw [drops] at found
      cases decides : deciding? e (s :: below) with
      | none => simp [decides] at found
      | some d => cases d <;> simp_all [Disposition.isIgnore, Disposition.role]

/-- An event has one role at most in every state of a merged stack. -/
theorem role_unique (distinct : ∀ s ∈ stack, s.events.Nodup) {s : ActiveState}
    (mem : s ∈ mergedStack stack) {e : EventType} {r r' : Role} (plays : s.Plays e r)
    (plays' : s.Plays e r') : r = r' := by
  induction stack with
  | nil => cases mem
  | cons state below ih =>
    rcases List.mem_cons.1 mem with rfl | mem
    · have here := role_of_plays distinct (head?_mergedStack state below) plays
      rw [role_of_plays distinct (head?_mergedStack state below) plays'] at here
      exact (Option.some.inj here).symm
    · exact ih (fun s mem => distinct s (List.mem_cons_of_mem _ mem)) mem

end SteeredActors
