import SteeredActors.Proofs.Descriptor.WellFormed
import SteeredActors.Proofs.Stacks
import SteeredActors.Proofs.World.Evolution

/-!
# What tasks do to interpreters

Interpreters are fit: their descriptors were built, their stacks are merged states of their
descriptors, and what they have raised is allowed. Every task that is founded on fit interpreters
leaves them fit, and the tasks that it leads to are founded in turn. Besides, only a few tasks have to
do with mailboxes.
-/

set_option autoImplicit false
set_option relaxedAutoImplicit false

namespace SteeredActors

variable {σ : Type} [Strategy σ]

/-! ## Fit interpreters -/

/-- What holds of an interpreter at every moment. -/
structure Core.Fit (kind : ActorKind) (core : Core) : Prop where
  kind : core.descriptor.kind = kind
  wellFormed : core.descriptor.WellFormed
  merged : ∃ states, core.stack = mergedStack states ∧ ∀ s ∈ states, s ∈ core.descriptor.states
  raised : ∀ d, core.raised = some d → d.Allowed core.descriptor

namespace Core.Fit

variable {kind : ActorKind} {core core' : Core}

theorem new {d : Descriptor} (wellFormed : d.WellFormed) (same : d.kind = kind) (id : ActorId) :
    (Core.new id d).Fit kind :=
  ⟨same, wellFormed, ⟨[], rfl, by simp⟩, fun _ raised => nomatch raised⟩

/-- One change leaves an interpreter fit. -/
theorem change {moves : Prop} (fit : core.Fit kind) (change : core.Change moves core') :
    core'.Fit kind := by
  obtain ⟨states, merged, known⟩ := fit.merged
  cases change with
  | remembers memory => exact ⟨fit.kind, fit.wellFormed, fit.merged, fit.raised⟩
  | raises _ allowed =>
    exact ⟨fit.kind, fit.wellFormed, fit.merged, fun _ raised => Option.some.inj raised ▸ allowed⟩
  | obeys => exact ⟨fit.kind, fit.wellFormed, fit.merged, fun _ raised => nomatch raised⟩
  | halts =>
    exact ⟨fit.kind, fit.wellFormed, ⟨[], rfl, by simp⟩, fun _ raised => nomatch raised⟩
  | sinks _ rest =>
    rw [merged] at rest
    obtain ⟨states', suffix, merged'⟩ := mergedStack_suffix rest
    exact ⟨fit.kind, fit.wellFormed,
      ⟨states', merged', fun s mem => known s (suffix.subset mem)⟩, fit.raised⟩
  | @enters _ s entered =>
    refine ⟨fit.kind, fit.wellFormed, ⟨s :: states, ?_, ?_⟩, fit.raised⟩
    · simp only [merged]
      rfl
    · refine List.forall_mem_cons.2 ⟨?_, known⟩
      rcases entered with rfl | ⟨name, found⟩
      · exact fit.wellFormed.initial
      · exact List.mem_of_find?_eq_some found

theorem becomes {moves : Prop} (fit : core.Fit kind) (becomes : core.Becomes moves core') :
    core'.Fit kind :=
  becomes.kept (fun _ _ => Core.Fit.change) fit

/-- The stack comes of entering the states whose descriptors are on it. -/
theorem stack_eq (fit : core.Fit kind) : core.stack = mergedStack (core.stack.map (·.state)) := by
  obtain ⟨states, merged, _⟩ := fit.merged
  rw [merged, map_state_mergedStack]

theorem state_mem (fit : core.Fit kind) {s : ActiveState} (mem : s ∈ core.stack) :
    s.state ∈ core.descriptor.states := by
  obtain ⟨states, merged, known⟩ := fit.merged
  refine known _ ?_
  rw [← map_state_mergedStack states, ← merged]
  exact List.mem_map.2 ⟨s, mem, rfl⟩

theorem distinct (fit : core.Fit kind) : ∀ s ∈ core.stack.map (·.state), s.events.Nodup := by
  intro s mem
  obtain ⟨active, there, rfl⟩ := List.mem_map.1 mem
  exact fit.wellFormed.distinct _ (fit.state_mem there)

end Core.Fit

/-- All interpreters are fit, and new ones will be. No number is used up twice. -/
structure World.Fit (w : World σ) : Prop where
  registry : w.registry.Accepted
  cores : ∀ c core, w.core? c = some core → core.Fit c.kind
  made : ∀ i core, w.core? (.actor i) = some core → w.ids.Made core.id

theorem World.Fit.evolve {S : Subject → Prop} {w w₁ : World σ} (fit : w.Fit)
    (evolves : w.Evolves S w₁) : w₁.Fit where
  registry := by
    rw [evolves.registry]
    exact fit.registry
  cores c core found := by
    cases before : w.core? c with
    | some old =>
      obtain ⟨core', found', becomes⟩ := evolves.cores c old before
      obtain rfl := Option.some.inj (found.symm.trans found')
      exact (fit.cores c old before).becomes becomes
    | none =>
      obtain ⟨_, id, typeTag, d, offered, _, becomes⟩ := evolves.fresh c core before found
      obtain ⟨wellFormed, kind⟩ := fit.registry.find? offered
      exact (Core.Fit.new wellFormed kind id).becomes becomes
  made i core found := by
    cases before : w.core? (.actor i) with
    | some old =>
      obtain ⟨core', found', becomes⟩ := evolves.cores (.actor i) old before
      obtain rfl := Option.some.inj (found.symm.trans found')
      rw [becomes.id]
      exact (fit.made i old before).advance evolves.ids
    | none =>
      obtain ⟨_, id, _, _, _, made, becomes⟩ := evolves.fresh (.actor i) core before found
      rw [becomes.id]
      exact made rfl

/-! ## Founded tasks -/

/-- Whoever speaks is there. -/
def Speaker.Founded (w : World σ) : Speaker → Prop
  | .action c _ => (w.core? c).isSome = true
  | .test | .sleeper _ => True

/-- What a task relies on. -/
def Task.Founded (w : World σ) : Task → Prop
  | .install d _ => ∃ typeTag, w.registry.monitor? typeTag = some d
  | .switch c target _ | .enter c target _ =>
    ∃ core, w.core? c = some core ∧ (core.descriptor.state? target).isSome = true
  | .pop c | .dropTop c => c.kind = .machine
  | .perform speaker _ | .resume speaker _ _ _ => speaker.Founded w
  | _ => True

theorem Task.Founded.evolve {S : Subject → Prop} {w w₁ : World σ} {x : Task} (founded : x.Founded w)
    (evolves : w.Evolves S w₁) : x.Founded w₁ := by
  have there : ∀ c, (w.core? c).isSome = true → (w₁.core? c).isSome = true := by
    intro c found
    obtain ⟨core, found⟩ := Option.isSome_iff_exists.1 found
    obtain ⟨core', found', _⟩ := evolves.cores c core found
    simp [found']
  cases x <;> try exact founded
  case install =>
    obtain ⟨typeTag, offered⟩ := founded
    exact ⟨typeTag, by rw [evolves.registry, offered]⟩
  case switch c target event | enter c target event =>
    obtain ⟨core, found, known⟩ := founded
    obtain ⟨core', found', becomes⟩ := evolves.cores c core found
    exact ⟨core', found', by rw [becomes.descriptor, known]⟩
  case perform speaker program | resume speaker outside shared next =>
    cases speaker with
    | action c phase => exact there c founded
    | test | sleeper j => trivial

/-- The actor whose own work a task is. -/
def Task.worker? : Task → Option Nat
  | .firstTurn i | .wake i | .cycle i | .rest i => some i
  | _ => none

/-- The monitor whose stack a task finds empty. -/
def Task.opens? : Task → Option Nat
  | .start (.monitor m) _ | .enter (.monitor m) _ _ => some m
  | _ => none

/-- The interpreter whose stack a task may change. -/
def Task.restacks? (w : World σ) : Task → Option Subject
  | .start c _ | .handle c _ _ | .switch c _ _ | .enter c _ _ | .dropTop c => some c
  | .install _ _ => some (.monitor w.monitors.length)
  | _ => none

/-- The interpreters whose stacks a task may change. -/
abbrev Task.Restacks (w : World σ) (x : Task) (c : Subject) : Prop := x.restacks? w = some c

/-- A founded task that is nobody's own work. It opens only monitors for which `S` holds. -/
@[simp] def Task.Spawned (S : Subject → Prop) (w : World σ) (x : Task) : Prop :=
  x.Founded w ∧ x.worker? = none ∧ ∀ m, x.opens? = some m → S (.monitor m)

/-- The actor whose mailbox a task may have to do with. -/
def Task.trader? : Task → Option Nat
  | .firstTurn i | .wake i | .cycle i | .rest i | .post i _ | .engage i _ => some i
  | .handle (.actor i) _ _ => some i
  | _ => none

/-- A service with such a world and such tasks. -/
def Service.Leads (R : World σ → Prop) (F : Task → Prop) : Service σ → Prop
  | .now _ w => R w
  | .later tasks w => R w ∧ ∀ x ∈ tasks, F x

/-- A move with such a world and such tasks. -/
def Move.Leads (R : World σ → Prop) (F : Task → Prop) : Move σ → Prop
  | .wait => True
  | .go tasks w => R w ∧ ∀ x ∈ tasks, F x
  | .answer _ w => R w

/-- A move of an actor by itself: what it leads to is founded, and at most its last task is the
actor's own work. -/
def Move.Turns (S : Subject → Prop) (w : World σ) (i : Nat) : Move σ → Prop
  | .wait => True
  | .go tasks w' => w.Acts S w' ∧ ∃ xs ys, tasks = xs ++ ys ∧ (∀ x ∈ xs, x.Spawned S w) ∧
      (ys = [] ∨ ys = [.wake i] ∨ ys = [.cycle i] ∨ ys = [.rest i])
  | .answer _ w' => w.Acts S w'

omit [Strategy σ] in
theorem Move.Leads.imp {R R' : World σ → Prop} {F : Task → Prop} (weaker : ∀ w, R w → R' w)
    {m : Move σ} (h : m.Leads R F) : m.Leads R' F := by
  cases m with
  | wait => trivial
  | go tasks w => exact ⟨weaker w h.1, h.2⟩
  | answer a w => exact weaker w h

namespace World

variable {S : Subject → Prop} {w : World σ}

/-! ## Requests -/

omit [Strategy σ] in
private theorem serveTasks_leads {tasks : Except Refusal (List Task)} {R : World σ → Prop}
    {F : Task → Prop} (same : R w) (h : ∀ xs, tasks = .ok xs → ∀ x ∈ xs, F x) :
    (w.serveTasks tasks).Leads R F := by
  cases tasks with
  | ok xs => exact ⟨same, h xs rfl⟩
  | error r => exact same

private theorem works_send (caller : Option Nat) (target : ActorId) (event : Event) :
    (w.serveTasks (w.send caller target event)).Leads (w.Works S) (Task.Spawned S w) := by
  refine serveTasks_leads (.refl w) fun xs sent => ?_
  obtain ⟨i, _, _, _, rfl⟩ := send_eq_ok sent
  simp [Task.Founded, Task.worker?, Task.opens?]

private theorem works_failAssertion (actor : Option ActorId) (message : String) :
    w.Works S (w.failAssertion actor message).2 := .report w _

private theorem works_sendAndExecute (caller : Option Nat) (target : ActorId) (event : Event) :
    (w.sendAndExecute caller target event).Leads (w.Works S) (Task.Spawned S w) := by
  have sent := w.ofRendezvous caller target event
  generalize w.sendAndExecute caller target event = service at sent
  cases sent with
  | refused => exact .refl w
  | fails => exact .report w _
  | brings => exact ⟨.refl w, by simp [Task.Founded, Task.worker?, Task.opens?]⟩

/-- A new identity takes the next number, or it has a name and takes none. -/
private theorem create_eq_ok {ids ids' : Allocator} {typeTag friendly : String} {useName : Bool}
    {id : ActorId} (created : ids.create typeTag friendly useName = (.ok id, ids')) :
    ids.Advances ids' ∧ ids'.Made id ∧
      (ids' = ids ∨
        ids'.counter = ids.counter + 1 ∧ id.isNamed = false ∧ id.value = ids.counter) := by
  cases useName with
  | true =>
    obtain ⟨named, rfl⟩ := Prod.mk.inj created
    unfold Allocator.named at named
    split at named
    · cases named
    · next some =>
      obtain rfl := Except.ok.inj named
      exact ⟨.refl _, ⟨rfl, fun numbered => by simp [ActorId.isNamed, some] at numbered⟩, .inl rfl⟩
  | false =>
    simp only [Allocator.create, Bool.false_eq_true, if_false, Allocator.numbered] at created
    split at created
    · cases (Prod.mk.inj created).1
    · obtain ⟨numbered, rfl⟩ := Prod.mk.inj created
      obtain rfl := Except.ok.inj numbered
      exact ⟨⟨rfl, Nat.le_succ _⟩, ⟨rfl, fun _ => Nat.lt_succ_self _⟩, .inr ⟨rfl, rfl, rfl⟩⟩

omit [Strategy σ] in
/-- A new number is nobody's, so that only a name may be taken. -/
theorem eq_of_taken (made : ∀ i core, w.core? (.actor i) = some core → w.ids.Made core.id)
    {typeTag friendly : String} {useName : Bool} {id : ActorId} {ids : Allocator}
    (created : w.ids.create typeTag friendly useName = (.ok id, ids))
    (taken : (w.actor? id).isSome = true) : ids = w.ids := by
  obtain ⟨_, _, same | ⟨_, unnamed, value⟩⟩ := create_eq_ok created
  · exact same
  obtain ⟨i, there⟩ := Option.isSome_iff_exists.1 taken
  obtain ⟨⟨core, found, agree⟩, _⟩ := actor?_eq_some.1 there
  simp only [ActorId.same, unnamed, Bool.and_eq_true, beq_iff_eq] at agree
  obtain ⟨⟨other, number⟩, _⟩ := agree
  simp only [other, Bool.false_eq_true, if_false, beq_iff_eq] at number
  have used := (made i core found).2 other
  omega

theorem forall_mem_ite {P : Task → Prop} {b : Bool} {xs ys : List Task}
    (h : ∀ x ∈ xs, P x) (k : ∀ x ∈ ys, P x) : ∀ x ∈ if b = true then xs else ys, P x := by
  split
  · exact h
  · exact k

private theorem works_populate {ids : Allocator} (advances : w.ids.Advances ids)
    (next : ids.counter ≤ w.ids.counter + 1) {id : ActorId} (made : ids.Made id) {typeTag : String}
    {d : Descriptor} (offered : w.registry.machine? typeTag = some d) (caller : Option Nat)
    (event : Option Event) (execute : Bool) :
    (World.populate { w with ids } caller id d event execute).Leads (w.Works S)
      (Task.Spawned S w) := by
  unfold populate
  split
  · have opened : w.Works S (w.openRendezvous caller).2 := .openRendezvous w caller
    refine ⟨(opened.trans (.addActor (w.openRendezvous caller).2 advances next made offered event
      (some w.rendezvous.length))).trans (.blockCaller _ _), ?_⟩
    exact forall_mem_ite (by simp [Task.Founded, Task.worker?, Task.opens?])
      (by simp [Task.Founded, Task.worker?, Task.opens?])
  · exact ⟨.addActor w advances next made offered event none,
      by simp [Task.Founded, Task.worker?, Task.opens?]⟩

/-- A descriptor that something is created with is in the registry. -/
private theorem works_create (fit : w.Fit) (caller : Option Nat) (typeTag : String)
    (name : Option String) (event : Option Event) (execute : Bool) :
    (w.create caller typeTag name event execute).Leads (w.Works S) (Task.Spawned S w) := by
  have created := w.ofCreation caller typeTag name event execute
  generalize w.create caller typeTag name event execute = service at created
  cases created with
  | refused => exact .refl w
  | overflows => exact .report w _
  | taken _ numbered taken =>
    obtain rfl := eq_of_taken fit.made numbered taken
    exact .refl w
  | populates _ _ offered numbered =>
    obtain ⟨advances, made, same | ⟨next, _⟩⟩ := create_eq_ok numbered
    · exact works_populate advances (same ▸ Nat.le_succ _) made offered caller event execute
    · exact works_populate advances (Nat.le_of_eq next) made offered caller event execute

private theorem works_serveDemand (speaker : Speaker) (voice : Voice) (d : Demand) :
    (w.serveDemand (w.context? speaker voice) d).Leads (w.Works S) (Task.Spawned S w) := by
  have demanded := w.ofDemand (w.context? speaker voice) d
  generalize w.serveDemand (w.context? speaker voice) d = service at demanded
  cases demanded with
  | nobody => exact .refl w
  | fails => exact .report w _
  | @kept c phase core asked allowed _ free =>
    obtain ⟨-, -, found⟩ := context?_eq_some asked
    refine Works.modifyCore w c fun core' found' => ?_
    obtain rfl := Option.some.inj (found.symm.trans found')
    exact .of_change (.raises free allowed)

/-- A request touches no mailbox, and what it leads to is founded. -/
theorem works_serve (fit : w.Fit) (caller : Option Nat) (speaker : Speaker) (voice : Voice)
    (request : Request) :
    (w.serve caller speaker voice request).Leads (w.Works S) (Task.Spawned S w) := by
  cases request <;> simp only [serve]
  case journal => exact .note w _ _
  case send =>
    split
    · exact .refl w
    · exact works_send _ _ _
  case sendAndExecute =>
    split
    · exact .refl w
    · exact works_sendAndExecute _ _ _
  case create =>
    split
    · exact .refl w
    · exact works_create fit _ _ _ _ _
  case raise | goto | push | pop => exact works_serveDemand _ _ _
  case startTimer =>
    split
    · exact .refl w
    · exact .refl w
    · exact works_create fit _ _ _ _ _
  case stopTimer =>
    split
    · exact .refl w
    · exact works_send _ _ _
  case assert =>
    unfold assert
    split
    · exact .refl w
    · split
      · exact .refl w
      · exact works_failAssertion _ _
  case randomBool =>
    unfold randomBool
    simp only
    split <;> exact .of_controller w (.nextBool _)
  case randomInt =>
    unfold randomInt
    simp only
    split <;> exact .of_controller w (.nextInt _ _)
  case monitor =>
    split
    · exact .refl w
    · exact .refl w
    · exact ⟨.refl w, by simp [Task.Founded, Task.worker?, Task.opens?]⟩
  case registerMonitor =>
    refine serveTasks_leads (.refl w) fun xs begun => ?_
    obtain ⟨d, id, _, offered, rfl⟩ := registerMonitor_eq_ok begun
    simpa [Task.Founded, Task.worker?, Task.opens?] using ⟨_, offered⟩
  case waitForQuiescence =>
    split
    · exact .refl w
    · exact ⟨.refl w, by simp [Task.Founded, Task.worker?, Task.opens?]⟩
  case access =>
    split
    · exact ⟨.refl w, by simp [Task.Founded, Task.worker?, Task.opens?]⟩
    · exact .refl w
  case point | awaitHalted | monitors | monitorState =>
    exact ⟨.refl w, by simp [Task.Founded, Task.worker?, Task.opens?]⟩
  case shutdown | terminate => exact .of_controller w (.terminate _ _)
  case reportBug => exact .report w _
  case newObject => exact .of_parts rfl rfl (.refl _) rfl rfl rfl rfl rfl
  case startSleeper => exact .startSleeper w _
  case stopSleeper => exact .stopSleeper w _
  all_goals exact .refl w

/-! ## Tasks -/

omit [Strategy σ] in
private theorem spawned_invocation (c : Subject) (event : Option Event) (phase : Phase)
    (action : Option Action) : ∀ x ∈ invocation c event phase action, x.Spawned S w := by
  cases action <;> simp [invocation, Task.Founded, Task.worker?, Task.opens?]

omit [Strategy σ] in
private theorem spawned_leaving (c : Subject) (core : Core) (event : Option Event) :
    ∀ x ∈ leaving c core event, x.Spawned S w := by
  unfold leaving
  split
  · exact spawned_invocation _ _ _ _
  · simp

omit [Strategy σ] in
private theorem spawned_settlement (c : Subject) (r : Option Nat) (handled : Bool) :
    ∀ x ∈ settlement c r handled, x.Spawned S w := by
  unfold settlement
  split <;> simp [Task.Founded, Task.worker?, Task.opens?]

omit [Strategy σ] in
/-- Only actors push. -/
private theorem spawned_enter {c : Subject} {target : String} {event : Option Event}
    (machine : c.kind = .machine) (founded : (Task.enter c target event).Founded w) :
    (Task.enter c target event).Spawned S w := by
  cases c with
  | actor i => exact ⟨founded, rfl, by rintro _ ⟨⟩⟩
  | monitor m => cases machine

/-- What a state of a fit interpreter leads to is there. -/
private theorem known_of_resolveEvent {kind : ActorKind} {core : Core} (fit : core.Fit kind)
    {e : EventType} {binding : Binding} {stack : List ActiveState}
    (resolved : resolveEvent e core.stack = .bound binding stack) :
    match binding with
    | .goto target _ => (core.descriptor.state? target).isSome = true
    | .push target => kind = .machine ∧ (core.descriptor.state? target).isSome = true
    | .action _ => True := by
  obtain ⟨suffix, top, current, binds⟩ := resolveEvent_bound resolved
  have mem := fit.state_mem (suffix.subset (List.mem_of_mem_head? current))
  cases binding with
  | goto target transition =>
    exact fit.wellFormed.targets _ mem target (ActiveState.target_of_goto binds)
  | push target =>
    have pushes := ActiveState.pushes_of_push binds
    refine ⟨?_, fit.wellFormed.targets _ mem target (List.mem_append.2 (.inr ?_))⟩
    · cases kind with
      | machine => rfl
      | monitor =>
        have none := fit.wellFormed.flat fit.kind _ mem
        simp only [StateDescriptor.pushes, List.any_eq_false] at none
        exact absurd rfl (none _ pushes)
    · exact List.mem_filterMap.2 ⟨_, pushes, rfl⟩
  | action a => trivial

omit [Strategy σ] in
private theorem withCore_leads {c : Subject} {f : Core → Move σ} {R : World σ → Prop}
    {F : Task → Prop} (same : R w) (h : ∀ core, w.core? c = some core → (f core).Leads R F) :
    (w.withCore c f).Leads R F := by
  unfold withCore
  split
  · next core found => exact h core found
  · exact ⟨same, by simp⟩

omit [Strategy σ] in
private theorem withActor_leads {i : Nat} {f : Actor → Move σ} {R : World σ → Prop}
    {F : Task → Prop} (same : R w) (h : ∀ a, w.actors[i]? = some a → (f a).Leads R F) :
    (w.withActor i f).Leads R F := by
  unfold withActor
  split
  · next a found => exact h a found
  · exact ⟨same, by simp⟩

omit [Strategy σ] in
private theorem withMonitor_leads {m : Nat} {f : Monitor → Move σ} {R : World σ → Prop}
    {F : Task → Prop} (same : R w) (h : ∀ a, w.monitors[m]? = some a → (f a).Leads R F) :
    (w.withMonitor m f).Leads R F := by
  unfold withMonitor
  split
  · next a found => exact h a found
  · exact ⟨same, by simp⟩

private theorem works_pushState {c : Subject} (move : S c) {core : Core}
    (found : w.core? c = some core)
    {s : StateDescriptor}
    (known : s = core.descriptor.initial ∨ ∃ name, core.descriptor.state? name = some s)
    (event : Option Event) : (w.pushState c core s event).Leads (w.Works S) (Task.Spawned S w) := by
  refine ⟨Works.modifyCore w c fun core' found' => ?_, spawned_invocation _ _ _ _⟩
  obtain rfl := Option.some.inj (found.symm.trans found')
  exact .of_change (.enters move known)

private theorem works_unwindAssertion (core : Core) (message : String) :
    (w.unwindAssertion core message).Leads (w.Works S) (Task.Spawned S w) := works_failAssertion _ _

omit [Strategy σ] in
/-- What consumes an event is founded. -/
theorem spawned_consumption {c : Subject} {core : Core} (fit : core.Fit c.kind)
    (found : w.core? c = some core) {event : Event} {binding : Binding} {stack : List ActiveState}
    (resolved : resolveEvent event.type core.stack = .bound binding stack) :
    ∀ x ∈ consumption c { core with stack } event binding, x.Spawned S w := by
  have known := known_of_resolveEvent fit resolved
  intro x mem
  cases binding with
  | goto target transition =>
    simp only [consumption, List.append_assoc, List.mem_append, List.mem_singleton] at mem
    rcases mem with mem | mem | rfl
    · exact spawned_leaving _ _ _ x mem
    · exact spawned_invocation _ _ _ _ x mem
    · exact ⟨⟨core, found, known⟩, rfl, by rintro _ ⟨⟩⟩
  | push target =>
    obtain rfl := List.mem_singleton.1 mem
    exact spawned_enter known.1 ⟨core, found, known.2⟩
  | action a =>
    obtain rfl := List.mem_singleton.1 mem
    exact ⟨trivial, rfl, by rintro _ ⟨⟩⟩

omit [Strategy σ] in
/-- What was raised is founded, for it was allowed. -/
private theorem spawned_obedience {c : Subject} {core : Core} (fit : core.Fit c.kind)
    (found : w.core? c = some core) {d : Demand} (raised : core.raised = some d) :
    ∀ x ∈ obedience c core d, x.Spawned S w := by
  have allowed := fit.raised d raised
  intro x mem
  cases d with
  | event event =>
    obtain rfl := List.mem_singleton.1 mem
    exact ⟨trivial, rfl, by rintro _ ⟨⟩⟩
  | goto target =>
    rcases List.mem_append.1 mem with mem | mem
    · exact spawned_leaving _ _ _ x mem
    · obtain rfl := List.mem_singleton.1 mem
      exact ⟨⟨core, found, allowed⟩, rfl, by rintro _ ⟨⟩⟩
  | push target =>
    obtain rfl := List.mem_singleton.1 mem
    exact spawned_enter (fit.kind.symm.trans allowed.1) ⟨core, found, allowed.2⟩
  | pop =>
    obtain rfl := List.mem_singleton.1 mem
    exact ⟨fit.kind.symm.trans allowed, rfl, by rintro _ ⟨⟩⟩

theorem works_obeyed (c : Subject) :
    w.Works S (w.modifyCore c fun core => { core with raised := none }) :=
  .modifyCore w c fun _ _ => .of_change .obeys

private theorem works_finishAction (c : Subject) (memory : Memory) (ending : Ending) :
    (w.finishAction c memory ending).Leads (w.Works S) (Task.Spawned S w) := by
  have remembered : w.Works S (w.modifyCore c fun core => { core with memory }) :=
    .modifyCore w c fun core _ => .of_change (.remembers memory)
  have reported : ∀ (w₁ : World σ) text, w.Works S w₁ → Move.Leads (w.Works S) (Task.Spawned S w)
      (if w₁.isOver then w₁.unwind .canceled
        else w₁.withCore c fun core => (w₁.report (faultReport core text)).unwind .canceled) := by
    intro w₁ text works
    split
    · exact works
    · exact withCore_leads works fun core _ => works.trans (.report _ _)
  unfold finishAction
  cases ending with
  | ok => exact ⟨remembered, by simp⟩
  | failed failure =>
    simp only
    split
    · exact remembered
    · exact reported _ _ remembered
  | panicked message => exact reported _ _ remembered

private theorem works_finishTest (memory : Memory) (ending : Ending) :
    (w.finishTest memory ending).Leads (w.Works S) (Task.Spawned S w) := by
  have ended : w.Works S { w with test := { w.test with memory, ending := some ending } } :=
    .of_parts rfl rfl (.refl _) rfl rfl rfl rfl rfl
  have reported : ∀ (w₁ : World σ) text, w.Works S w₁ →
      w.Works S (if w₁.isOver || !w₁.explores then w₁ else w₁.report (testFaultReport text)) := by
    intro w₁ text works
    split
    · exact works
    · exact works.trans (.report _ _)
  refine ⟨?_, by simp [Task.Founded, Task.worker?, Task.opens?]⟩
  cases ending with
  | ok => exact ended
  | failed failure =>
    simp only
    split
    · exact ended
    · exact reported _ _ ended
  | panicked message => exact reported _ _ ended

private theorem works_modifySleeper (j : Nat) {f : Sleeper → Sleeper}
    (thread : ∀ s, (f s).thread = s.thread) : w.Works S (w.modifySleeper j f) := by
  refine .of_parts rfl rfl (.refl _) rfl rfl rfl rfl (List.ext_getElem? fun k => ?_)
  simp only [modifySleeper, List.getElem?_map, List.getElem?_modify]
  cases w.sleepers[k]? with
  | none => simp
  | some s => by_cases e : j = k <;> simp [e, thread]

private theorem works_perform (fit : w.Fit) (t : ThreadId) {speaker : Speaker} (program : Program)
    (founded : speaker.Founded w) :
    (w.perform t speaker program).Leads (w.Works S) (Task.Spawned S w) := by
  cases program with
  | finish memory ending =>
    cases speaker with
    | action c phase => exact works_finishAction _ _ _
    | test => exact works_finishTest _ _
    | sleeper j =>
      simp only [perform, finishFiring]
      split
      · split
        · exact ⟨works_modifySleeper j fun _ => rfl,
            by simp [Task.Founded, Task.worker?, Task.opens?]⟩
        · exact ⟨.refl w, by simp⟩
      · exact ⟨.refl w, by simp⟩
  | ask voice request next =>
    simp only [perform]
    split
    · exact ⟨.refl w, by simp⟩
    · next thread found =>
      have served := w.works_serve (S := S) fit (if thread.outside || voice == .outsider then none
        else w.operation? t) speaker voice request
      split
      · next answered =>
        rw [answered] at served
        exact ⟨served, List.forall_mem_singleton.2 ⟨founded, rfl, by rintro _ ⟨⟩⟩⟩
      · next tasks w₁ answered =>
        rw [answered] at served
        exact ⟨served.1.setThread found _, List.forall_mem_append.2 ⟨served.2,
          List.forall_mem_singleton.2 ⟨founded, rfl, by rintro _ ⟨⟩⟩⟩⟩

private theorem handle_leads {R : World σ → Prop} (weaker : ∀ w₁, w.Works S w₁ → R w₁) (fit : w.Fit)
    {c : Subject} (move : S c) (halts : R ((w.setStack c []).halt c)) (event : Event)
    (r : Option Nat) :
    (w.handle c event r).Leads R (Task.Spawned S w) := by
  refine withCore_leads (weaker w (.refl w)) fun core found => ?_
  cases resolved : resolveEvent event.type core.stack with
  | ignored stack =>
    exact ⟨weaker _ (.sink w move found (resolveEvent_ignored resolved).1),
      spawned_settlement _ _ _⟩
  | bound binding stack =>
    refine ⟨weaker _ (.sink w move found (resolveEvent_bound resolved).1),
      List.forall_mem_append.2 ⟨?_, spawned_settlement _ _ _⟩⟩
    exact spawned_consumption (fit.cores _ _ found) found resolved
  | exhausted =>
    simp only
    split
    · exact ⟨halts, spawned_settlement _ _ _⟩
    · exact weaker _ ((Works.sink w move found List.nil_suffix).trans (.report _ _))

/-- The states of an interpreter, if there is one, are popped. -/
private theorem works_emptied {c : Subject} (move : S c) : w.Works S (w.setStack c []) :=
  .modifyCore w c fun _ _ => .of_change (.sinks move List.nil_suffix)

/-- A task that has nothing to do with mailboxes leaves them alone, and what it leads to is
founded. -/
theorem works_exec (fit : w.Fit) (t : ThreadId) {x : Task} (founded : x.Founded w)
    (apart : x.trader? = none) (covers : ∀ c, x.Restacks w c → S c) :
    (w.exec t x).Leads (w.Works S) (Task.Spawned S w) := by
  cases x <;> simp only [exec]
  case firstTurn | wake | cycle | rest | post | engage => cases apart
  case retire =>
    split
    · exact ⟨.of_controller w (.complete _ _ _), by simp⟩
    · exact ⟨.refl w, by simp⟩
  case start =>
    exact withCore_leads (.refl w) fun core found =>
      works_pushState (covers _ rfl) found (.inl rfl) _
  case handle c event r =>
    cases c with
    | actor i => cases apart
    | monitor m =>
      have move := covers _ rfl
      exact handle_leads (fun _ => id) fit move ((works_emptied move).trans (.halt_monitor _ move))
        event r
  case settle i r handled =>
    refine withActor_leads (.refl w) fun a found => ⟨?_, by simp⟩
    split
    · exact .reply w _ _
    · exact .modifyActor w i (fun a _ => .refl a.core) (fun _ => rfl) fun _ => rfl
  case invoke =>
    exact withCore_leads (.refl w) fun core found =>
      ⟨.refl w, by simp [Task.Founded, Task.worker?, Task.opens?, Speaker.Founded, found]⟩
  case switch c target event =>
    refine withCore_leads (.refl w) fun core found => ?_
    split
    · exact ⟨.refl w, by simp⟩
    · refine ⟨.sink w (covers _ rfl) found (List.tail_suffix _),
        List.forall_mem_singleton.2 ⟨founded, rfl, ?_⟩⟩
      intro m opens
      cases c with
      | actor i => cases opens
      | monitor k =>
        cases opens
        exact covers _ rfl
  case enter c target event =>
    refine withCore_leads (.refl w) fun core found => ?_
    split
    · next s there => exact works_pushState (covers _ rfl) found (.inr ⟨target, there⟩) _
    · exact works_unwindAssertion _ _
  case pop c =>
    refine withCore_leads (.refl w) fun core found => ?_
    split
    · exact works_unwindAssertion _ _
    · exact ⟨.refl w, List.forall_mem_append.2
        ⟨spawned_leaving _ _ _, List.forall_mem_singleton.2 ⟨founded, rfl, by rintro _ ⟨⟩⟩⟩⟩
  case dropTop c =>
    exact withCore_leads (.refl w) fun core found =>
      ⟨.sink w (covers _ rfl) found (List.tail_suffix _), by simp⟩
  case forward event =>
    split
    · trivial
    · exact ⟨.refl w, by simp [Task.Founded, Task.worker?, Task.opens?]⟩
  case notify =>
    split
    · trivial
    · split
      · exact ⟨.refl w, by simp [Task.Founded, Task.worker?, Task.opens?]⟩
      · exact .refl w
  case deliver m event =>
    refine withMonitor_leads (.refl w) fun monitor found => ?_
    have busied : w.Works S (w.modifyMonitor m fun monitor => { monitor with busy := true }) :=
      .modifyMonitor w m fun a _ => .refl a.core
    split
    · trivial
    · split
      · exact ⟨.refl w, by simp⟩
      · simp only
        split
        · split
          · exact ⟨.refl w, by simp⟩
          · exact ⟨busied, by simp [Task.Founded, Task.worker?, Task.opens?]⟩
        · exact ⟨busied, by simp [Task.Founded, Task.worker?, Task.opens?]⟩
  case drain m =>
    refine withMonitor_leads (.refl w) fun monitor found => ?_
    split
    · exact ⟨.refl w, by simp⟩
    · have there : w.core? (.monitor m) = some monitor.core := by simp [core?, found]
      unfold obey
      split
      · exact ⟨.refl w, by simp⟩
      · next d raised =>
        refine ⟨works_obeyed _,
          List.forall_mem_append.2 ⟨?_, by simp [Task.Founded, Task.worker?, Task.opens?]⟩⟩
        exact spawned_obedience (fit.cores _ _ there) there raised
  case defaults m =>
    refine withMonitor_leads (.refl w) fun monitor found => ?_
    split
    · split
      · exact ⟨.refl w, by simp [Task.Founded, Task.worker?, Task.opens?]⟩
      · exact ⟨.refl w, by simp⟩
    · exact ⟨.refl w, by simp⟩
  case release | enlist => exact ⟨.modifyMonitor w _ fun a _ => .refl a.core, by simp⟩
  case install d id =>
    obtain ⟨typeTag, offered⟩ := founded
    have new : S (.monitor w.monitors.length) := covers _ rfl
    unfold install
    split
    · trivial
    · split
      · exact .refl w
      · exact ⟨.addMonitor w id offered _ _ _ new,
          by simp [Task.Founded, Task.worker?, Task.opens?, new]⟩
  case readMonitor =>
    unfold readMonitor
    split
    · trivial
    · split
      · exact .refl w
      · refine withMonitor_leads (.refl w) fun monitor _ => ?_
        split
        · trivial
        · exact .refl w
  case await =>
    unfold awaitReply
    split
    · exact ⟨.refl w, by simp⟩
    · split
      · exact .refl w
      · trivial
  case point =>
    split
    · exact .refl w
    · split
      · exact ⟨.refl w, by simp⟩
      · split
        · exact .refl w
        · exact ⟨.refl w, by simp [Task.Founded, Task.worker?, Task.opens?]⟩
  case pass =>
    split
    · exact ⟨.of_controller w (.schedule _ _ _), by simp⟩
    · exact ⟨.refl w, by simp⟩
  case turn =>
    split
    · unfold follow
      split
      · exact ⟨.refl w, by simp⟩
      · trivial
      · exact .refl w
    · exact ⟨.refl w, by simp⟩
  case touch =>
    split
    · exact .of_parts rfl rfl (.refl _) rfl rfl rfl rfl rfl
    · exact .refl w
  case awaitHalted =>
    split
    · exact .refl w
    · split
      · exact ⟨.refl w, by simp⟩
      · trivial
  case awaitQuiescence =>
    unfold follow
    split
    · exact ⟨.refl w, by simp⟩
    · trivial
    · exact .refl w
  case sleep j =>
    unfold sleep
    split
    · exact ⟨.refl w, by simp⟩
    · split
      · exact ⟨.refl w, by simp⟩
      · split
        · trivial
        · exact ⟨.refl w, by simp [Task.Founded, Task.worker?, Task.opens?, Speaker.Founded]⟩
  case perform => exact works_perform fit t _ founded
  case resume =>
    split
    · next thread found =>
      exact ⟨Works.setThread (.refl w) found _,
        List.forall_mem_singleton.2 ⟨founded, rfl, by rintro _ ⟨⟩⟩⟩
    · exact ⟨.refl w, by simp⟩
  case listMonitors =>
    split
    · trivial
    · exact .refl w
  case collect | answer => exact .refl w

/-! ## Tasks that have to do with mailboxes -/

theorem acts_enqueue (w : World σ) (i : Nat) (envelope : Envelope) :
    w.Acts S (w.enqueue i envelope) := by
  unfold enqueue
  split
  · exact (Works.refl w).toActs
  · next a found =>
    cases a.mailbox.enqueue envelope with
    | mk arrival mailbox =>
      have delivered : w.Acts S (w.modifyActor i fun a => { a with mailbox }) :=
        .modifyActor w i (fun a _ => .refl a.core) fun _ => rfl
      cases arrival with
      | dropped => exact delivered.trans (Works.discard _ _).toActs
      | queued => exact delivered
      | woke => exact delivered.trans (Works.of_controller _ (.setStatus _ _ _ _)).toActs

theorem acts_abandon (w : World σ) (i : Nat) : w.Acts S (w.abandon i) := by
  unfold abandon
  split
  · exact (Works.refl w).toActs
  · refine .trans ?_ (((Works.discard _ _).trans (.replyAll _ _ _)).trans (.replyAll _ _ _)).toActs
    exact .modifyActor w i (fun a _ => .refl a.core) fun _ => rfl

theorem acts_halt (w : World σ) {c : Subject} (move : S c) : w.Acts S (w.halt c) := by
  cases c with
  | monitor m => exact (Works.halt_monitor w move).toActs
  | actor i =>
    unfold halt
    split
    · exact (Works.refl w).toActs
    · split
      · exact (Works.refl w).toActs
      · have halted := Works.modifyCore (S := S) w (.actor i) fun core _ =>
          .of_change (.halts move)
        exact (halted.toActs.trans (acts_abandon _ i)).trans (Works.observe _ _).toActs

/-- An actor that comes to rest has answered whoever waited for that. -/
theorem works_rested (i : Nat) (a : Actor) : w.Works S
    ((a.pending.foldl (fun w (r, handled) => w.reply r handled) w).modifyActor i fun a =>
      { a with pending := [] }) :=
  (Works.replyEach w a.pending).trans
    (.modifyActor _ i (fun a _ => .refl a.core) (fun _ => rfl) fun _ => rfl)

private theorem turns_withActor {i : Nat} {f : Actor → Move σ}
    (h : ∀ a, w.actors[i]? = some a → (f a).Turns S w i) : (w.withActor i f).Turns S w i := by
  unfold withActor
  split
  · next a found => exact h a found
  · exact ⟨(Works.refl w).toActs, [], [], rfl, by simp, .inl rfl⟩

/-- An actor that gets its turn runs; one that gets it no more is abandoned. -/
private theorem turns_passage (i : Nat) (p : Passage) :
    Move.Turns S w i (match p with
      | .passed => .go [.wake i] w
      | .waits => .wait
      | .canceled => .go [] (w.abandon i)) := by
  cases p with
  | passed => exact ⟨(Works.refl w).toActs, [], [.wake i], rfl, by simp, .inr (.inl rfl)⟩
  | waits => trivial
  | canceled => exact ⟨acts_abandon w i, [], [], rfl, by simp, .inl rfl⟩

private theorem turns_wakeActor (i : Nat) : (w.wakeActor i).Turns S w i := by
  refine turns_withActor fun a found => ?_
  split
  · exact ⟨(Works.refl w).toActs, [.retire .halt], [], rfl,
      by simp [Task.Founded, Task.worker?, Task.opens?], .inl rfl⟩
  · simp only
    split
    · refine ⟨?_, [.start (.actor i) a.creationEvent], [.cycle i], rfl,
        by simp [Task.Founded, Task.worker?, Task.opens?], .inr (.inr (.inl rfl))⟩
      refine Acts.trans ?_ (.modifyActor _ i (fun a _ => .refl a.core) fun _ => rfl)
      exact .modifyActor w i (fun a _ => .refl a.core) fun _ => rfl
    · exact ⟨.modifyActor w i (fun a _ => .refl a.core) fun _ => rfl, [], [.cycle i], rfl, by simp,
        .inr (.inr (.inl rfl))⟩

private theorem turns_comeToRest {w₁ : World σ} (acts : w.Acts S w₁) (i : Nat) (a : Actor) :
    (w₁.comeToRest i a).Turns S w i :=
  ⟨acts.trans (works_rested i a).toActs, [.pass .yield], [.rest i], rfl,
    by simp [Task.Founded, Task.worker?, Task.opens?], .inr (.inr (.inr rfl))⟩

private theorem turns_selectEvent (i : Nat) (a : Actor) : (w.selectEvent i a).Turns S w i := by
  unfold selectEvent
  split
  · exact turns_comeToRest (Works.refl w).toActs i a
  · next top _ _ =>
    cases a.mailbox.dequeue (top.verdict w.policy) top.hasDefault with
    | mk selected rest =>
      obtain ⟨discarded, mailbox⟩ := rest
      have emptied : w.Acts S (w.modifyActor i fun a => { a with mailbox }) :=
        .modifyActor w i (fun a _ => .refl a.core) fun _ => rfl
      have dropped : ∀ w₁ : World σ, w₁.Acts S (w₁.discard discarded) :=
        fun w₁ => (Works.discard w₁ discarded).toActs
      cases selected with
      | event envelope =>
        exact ⟨emptied.trans (dropped _), [.handle (.actor i) envelope.event envelope.rendezvous],
          [.cycle i], rfl, by simp [Task.Founded, Task.worker?, Task.opens?],
          .inr (.inr (.inl rfl))⟩
      | default =>
        exact ⟨emptied.trans (dropped _),
          [.point .defaultEvent, .handle (.actor i) (.ofType .default) none], [.cycle i], rfl,
          by simp [Task.Founded, Task.worker?, Task.opens?], .inr (.inr (.inl rfl))⟩
      | idle =>
        refine turns_comeToRest ?_ i a
        exact (emptied.trans (Works.of_controller _ (.setStatus _ _ _ _)).toActs).trans (dropped _)

private theorem turns_cycleActor (fit : w.Fit) (i : Nat) : (w.cycleActor i).Turns S w i := by
  unfold cycleActor
  split
  · exact (Works.refl w).toActs
  · refine turns_withActor fun a found => ?_
    split
    · exact ⟨(Works.refl w).toActs, [.retire .halt], [], rfl,
        by simp [Task.Founded, Task.worker?, Task.opens?], .inl rfl⟩
    · unfold obey
      split
      · exact turns_selectEvent i a
      · next d raised =>
        have there : w.core? (.actor i) = some a.core := by simp [core?, found]
        exact ⟨(works_obeyed _).toActs, _, [.cycle i], rfl,
          spawned_obedience (fit.cores _ _ there) there raised, .inr (.inr (.inl rfl))⟩

/-- The work of an actor by itself leads to founded tasks and to such work at the end. -/
theorem turns_exec (fit : w.Fit) (t : ThreadId) {x : Task} {i : Nat}
    (own : x.worker? = some i) : (w.exec t x).Turns S w i := by
  cases x <;> simp only [exec]
  case firstTurn | rest =>
    obtain rfl := Option.some.inj own
    exact turns_withActor fun a _ => turns_passage _ _
  case wake =>
    obtain rfl := Option.some.inj own
    exact turns_wakeActor _
  case cycle =>
    obtain rfl := Option.some.inj own
    exact turns_cycleActor fit _
  all_goals cases own

/-- Everything else leads to founded tasks that are nobody's own work. -/
theorem acts_exec (fit : w.Fit) (t : ThreadId) {x : Task} (founded : x.Founded w)
    (other : x.worker? = none) (covers : ∀ c, x.Restacks w c → S c) :
    (w.exec t x).Leads (w.Acts S) (Task.Spawned S w) := by
  cases x
  case firstTurn | wake | cycle | rest => cases other
  case post j event => exact ⟨acts_enqueue w _ _, by simp⟩
  case engage j event =>
    have opened := (Works.openRendezvous (S := S) w (w.caller? t)).trans
      (.blockCaller _ (w.caller? t))
    exact ⟨opened.toActs.trans (acts_enqueue _ _ _), forall_mem_ite
      (by simp [Task.Founded, Task.worker?, Task.opens?])
      (by simp [Task.Founded, Task.worker?, Task.opens?])⟩
  case handle c event r =>
    have move := covers _ rfl
    exact handle_leads (fun _ works => works.toActs) fit move
      ((works_emptied move).toActs.trans (acts_halt _ move)) event r
  all_goals exact (works_exec fit t founded rfl covers).imp fun _ works => works.toActs

end World

end SteeredActors
