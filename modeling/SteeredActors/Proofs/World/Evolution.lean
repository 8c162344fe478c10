import Mathlib.Logic.Relation
import SteeredActors.Proofs.Controller.Steering
import SteeredActors.Proofs.World.Replies

/-!
# What becomes of interpreters

Whatever a thread does, in explored runs and in production, before and after the end: an interpreter
keeps its identity and its descriptor and goes through a few elementary changes only, a new one
starts with a descriptor of the registry, and threads that do not move keep their tasks. All but a
few tasks leave every mailbox alone.
-/

set_option autoImplicit false
set_option relaxedAutoImplicit false

namespace SteeredActors

variable {σ : Type}

/-! ## Changes of one interpreter -/

/-- One change of an interpreter. Its stack is another one only if `moves` holds. -/
inductive Core.Change (moves : Prop) (core : Core) : Core → Prop where
  | remembers (memory : Memory) : Core.Change moves core { core with memory }
  | raises {d : Demand} (free : core.raised = none) (allowed : d.Allowed core.descriptor) :
      Core.Change moves core { core with raised := some d }
  | obeys : Core.Change moves core { core with raised := none }
  | halts (move : moves) :
      Core.Change moves core { core with halted := true, stack := [], raised := none }
  /-- States are popped. -/
  | sinks (move : moves) {stack : List ActiveState} (rest : stack <:+ core.stack) :
      Core.Change moves core { core with stack }
  /-- A state of the descriptor is put on top. -/
  | enters (move : moves) {s : StateDescriptor}
      (known : s = core.descriptor.initial ∨ ∃ name, core.descriptor.state? name = some s) :
      Core.Change moves core
        { core with stack := ActiveState.ofState s core.stack.head? :: core.stack }

/-- Any number of changes. -/
def Core.Becomes (moves : Prop) : Core → Core → Prop := Relation.ReflTransGen (Core.Change moves)

namespace Core.Becomes

variable {moves : Prop} {core core₁ core₂ : Core}

theorem refl (core : Core) : core.Becomes moves core := Relation.ReflTransGen.refl

theorem trans (h : core.Becomes moves core₁) (k : core₁.Becomes moves core₂) :
    core.Becomes moves core₂ :=
  Relation.ReflTransGen.trans h k

theorem of_change (h : core.Change moves core₁) : core.Becomes moves core₁ :=
  Relation.ReflTransGen.single h

/-- What every change keeps is kept. -/
theorem kept {P : Core → Prop} (change : ∀ c c', P c → c.Change moves c' → P c')
    (h : core.Becomes moves core₁) (start : P core) : P core₁ := by
  induction h with
  | refl => exact start
  | tail _ step ih => exact change _ _ ih step

theorem descriptor (h : core.Becomes moves core₁) : core₁.descriptor = core.descriptor := by
  refine h.kept (P := fun c => c.descriptor = core.descriptor) ?_ rfl
  intro c c' same change
  cases change <;> exact same

theorem id (h : core.Becomes moves core₁) : core₁.id = core.id := by
  refine h.kept (P := fun c => c.id = core.id) ?_ rfl
  intro c c' same change
  cases change <;> exact same

/-- Halted is halted. -/
theorem halted (h : core.Becomes moves core₁) (ceased : core.halted = true) :
    core₁.halted = true := by
  refine h.kept (P := fun c => c.halted = true) ?_ ceased
  intro c c' same change
  cases change <;> first | exact same | rfl

theorem mono {moves' : Prop} (h : core.Becomes moves core₁) (imp : moves → moves') :
    core.Becomes moves' core₁ := by
  refine Relation.ReflTransGen.mono (fun c c' change => ?_) core core₁ h
  cases change with
  | remembers memory => exact .remembers memory
  | raises free allowed => exact .raises free allowed
  | obeys => exact .obeys
  | halts move => exact .halts (imp move)
  | sinks move rest => exact .sinks (imp move) rest
  | enters move known => exact .enters (imp move) known

/-- An interpreter that does not move keeps its stack, and it halts no more and no less. -/
theorem still (h : core.Becomes moves core₁) (rests : ¬moves) :
    core₁.stack = core.stack ∧ core₁.halted = core.halted := by
  refine h.kept (P := fun c => c.stack = core.stack ∧ c.halted = core.halted) ?_ ⟨rfl, rfl⟩
  intro c c' same change
  cases change with
  | remembers | raises | obeys => exact same
  | halts move | sinks move | enters move => exact absurd move rests

end Core.Becomes

/-! ## Changes of a world -/

/-- Actors are machines. -/
def Subject.kind : Subject → ActorKind
  | .actor _ => .machine
  | .monitor _ => .monitor

/-- A thread that has not begun. -/
def Thread.Fresh (thread : Thread) : ThreadId → Prop
  | .driver => False
  | .actor i => thread.tasks = [.firstTurn i]
  | .sleeper j => thread.tasks = [.sleep j]

/-- The mailbox of the actor at a position; before the actor is there, an empty one. -/
def World.mailbox (w : World σ) (i : Nat) : Mailbox := (w.actors[i]?.map (·.mailbox)).getD {}

theorem World.mailbox_setThread (w : World σ) (t : ThreadId) (thread : Thread) (i : Nat) :
    (w.setThread t thread).mailbox i = w.mailbox i := by
  cases t with
  | driver | sleeper j => rfl
  | actor j =>
    simp only [World.mailbox, World.setThread, World.modifyActor, List.getElem?_modify]
    cases w.actors[i]? with
    | none => simp
    | some a =>
      simp only [Option.map_some]
      split <;> rfl

theorem World.core?_modifyCore {w : World σ} {c : Subject} {core : Core}
    (found : w.core? c = some core) (f : Core → Core) :
    (w.modifyCore c f).core? c = some (f core) := by
  cases c with
  | actor i =>
    obtain ⟨a, there, rfl⟩ := Option.map_eq_some_iff.1 found
    simp [World.core?, World.modifyCore, World.modifyActor, there]
  | monitor m =>
    obtain ⟨a, there, rfl⟩ := Option.map_eq_some_iff.1 found
    simp [World.core?, World.modifyCore, World.modifyMonitor, there]

theorem World.core?_setStack {w : World σ} {c : Subject} {core : Core}
    (found : w.core? c = some core) (stack : List ActiveState) :
    (w.setStack c stack).core? c = some { core with stack } :=
  World.core?_modifyCore found _

/-- The identity is of the generation of an allocator, and its number is used up. -/
def Allocator.Made (ids : Allocator) (id : ActorId) : Prop :=
  id.generation = ids.generation ∧ (id.isNamed = false → id.value < ids.counter)

/-- One allocator comes from another. -/
structure Allocator.Advances (ids ids' : Allocator) : Prop where
  generation : ids'.generation = ids.generation
  counter : ids.counter ≤ ids'.counter

theorem Allocator.Advances.refl (ids : Allocator) : ids.Advances ids := ⟨rfl, Nat.le_refl _⟩

theorem Allocator.Advances.trans {ids₀ ids₁ ids₂ : Allocator} (h : ids₀.Advances ids₁)
    (k : ids₁.Advances ids₂) : ids₀.Advances ids₂ :=
  ⟨k.generation.trans h.generation, Nat.le_trans h.counter k.counter⟩

theorem Allocator.Made.advance {ids ids' : Allocator} {id : ActorId} (made : ids.Made id)
    (advances : ids.Advances ids') : ids'.Made id :=
  ⟨made.1.trans advances.generation.symm,
    fun numbered => Nat.lt_of_lt_of_le (made.2 numbered) advances.counter⟩

variable [Strategy σ]

/-- One world comes from another by changes of its interpreters. Only those for which `S` holds get
other stacks, and only such monitors are new. A number is used up for a new actor only. -/
structure World.Evolves (S : Subject → Prop) (w w' : World σ) : Prop where
  registry : w'.registry = w.registry
  policy : w'.policy = w.policy
  controller : w.controller.Steers w'.controller
  ids : w.ids.Advances w'.ids
  numbers : w'.ids.counter + w.actors.length ≤ w.ids.counter + w'.actors.length
  cores : ∀ c core, w.core? c = some core →
    ∃ core', w'.core? c = some core' ∧ core.Becomes (S c) core'
  fresh : ∀ c core', w.core? c = none → w'.core? c = some core' → (c.kind = .monitor → S c) ∧
    ∃ id typeTag d, w.registry.find? c.kind typeTag = some d ∧
      (c.kind = .machine → w'.ids.Made id) ∧ (Core.new id d).Becomes (S c) core'

/-- Besides, nothing is done to the tasks of threads. -/
structure World.Acts (S : Subject → Prop) (w w' : World σ) : Prop extends World.Evolves S w w' where
  kept : ∀ u thread, w.thread? u = some thread →
    ∃ thread', w'.thread? u = some thread' ∧ thread'.tasks = thread.tasks
  begun : ∀ u thread', w.thread? u = none → w'.thread? u = some thread' → thread'.Fresh u

/-- Besides, no mailbox changes. -/
structure World.Works (S : Subject → Prop) (w w' : World σ) : Prop extends World.Acts S w w' where
  mailbox : ∀ i, w'.mailbox i = w.mailbox i

namespace World.Evolves

variable {S : Subject → Prop} {w w₁ w₂ : World σ}

theorem of_same (registry : w₁.registry = w.registry) (policy : w₁.policy = w.policy)
    (controller : w.controller.Steers w₁.controller) (ids : w₁.ids = w.ids)
    (actors : w₁.actors.length = w.actors.length)
    (cores : ∀ c, w₁.core? c = w.core? c) : w.Evolves S w₁ where
  registry := registry
  policy := policy
  controller := controller
  ids := ids ▸ .refl _
  numbers := Nat.le_of_eq (by rw [ids, actors])
  cores c core found := ⟨core, by rw [cores, found], .refl core⟩
  fresh c core' none found := by
    rw [cores, none] at found
    cases found

theorem refl (w : World σ) : w.Evolves S w := of_same rfl rfl (.refl _) rfl rfl fun _ => rfl

theorem trans (h : w.Evolves S w₁) (k : w₁.Evolves S w₂) : w.Evolves S w₂ where
  registry := k.registry.trans h.registry
  policy := k.policy.trans h.policy
  controller := h.controller.trans k.controller
  ids := h.ids.trans k.ids
  numbers := by
    have first := h.numbers
    have second := k.numbers
    omega
  cores c core found := by
    obtain ⟨core₁, found₁, becomes₁⟩ := h.cores c core found
    obtain ⟨core₂, found₂, becomes₂⟩ := k.cores c core₁ found₁
    exact ⟨core₂, found₂, becomes₁.trans becomes₂⟩
  fresh c core₂ none found₂ := by
    cases found₁ : w₁.core? c with
    | none =>
      obtain ⟨new, id, typeTag, d, offered, made, becomes⟩ := k.fresh c core₂ found₁ found₂
      exact ⟨new, id, typeTag, d, by rw [← h.registry, offered], made, becomes⟩
    | some core₁ =>
      obtain ⟨new, id, typeTag, d, offered, made, becomes₁⟩ := h.fresh c core₁ none found₁
      obtain ⟨core₂', found₂', becomes₂⟩ := k.cores c core₁ found₁
      obtain rfl := Option.some.inj (found₂.symm.trans found₂')
      exact ⟨new, id, typeTag, d, offered, fun machine => (made machine).advance k.ids,
        becomes₁.trans becomes₂⟩

/-- An actor changes. -/
theorem modifyActor (w : World σ) (i : Nat) {f : Actor → Actor}
    (becomes : ∀ a, w.actors[i]? = some a → a.core.Becomes (S (.actor i)) (f a).core) :
    w.Evolves S (w.modifyActor i f) where
  registry := rfl
  policy := rfl
  controller := .refl _
  ids := .refl _
  numbers := by simp [World.modifyActor]
  cores c core found := by
    cases c with
    | monitor m => exact ⟨core, found, .refl core⟩
    | actor j =>
      obtain ⟨a, there, rfl⟩ := Option.map_eq_some_iff.1 found
      by_cases e : i = j
      · subst e
        exact ⟨(f a).core, by simp [World.core?, World.modifyActor, there], becomes a there⟩
      · exact ⟨a.core, by simp [World.core?, World.modifyActor, e, there], .refl _⟩
  fresh c core' none found := by
    cases c with
    | monitor m => cases none.symm.trans found
    | actor j =>
      have absent : w.actors[j]? = Option.none := by simpa [World.core?] using none
      simp [World.core?, World.modifyActor, List.getElem?_modify, absent] at found

/-- A monitor changes. -/
theorem modifyMonitor (w : World σ) (m : Nat) {f : Monitor → Monitor}
    (becomes : ∀ a, w.monitors[m]? = some a → a.core.Becomes (S (.monitor m)) (f a).core) :
    w.Evolves S (w.modifyMonitor m f) where
  registry := rfl
  policy := rfl
  controller := .refl _
  ids := .refl _
  numbers := Nat.le_refl _
  cores c core found := by
    cases c with
    | actor i => exact ⟨core, found, .refl core⟩
    | monitor k =>
      obtain ⟨a, there, rfl⟩ := Option.map_eq_some_iff.1 found
      by_cases e : m = k
      · subst e
        exact ⟨(f a).core, by simp [World.core?, World.modifyMonitor, there], becomes a there⟩
      · exact ⟨a.core, by simp [World.core?, World.modifyMonitor, e, there], .refl _⟩
  fresh c core' none found := by
    cases c with
    | actor i => cases none.symm.trans found
    | monitor k =>
      have absent : w.monitors[k]? = Option.none := by simpa [World.core?] using none
      simp [World.core?, World.modifyMonitor, List.getElem?_modify, absent] at found

/-- A thread gets other tasks. -/
theorem setThread (w : World σ) (t : ThreadId) (thread : Thread) :
    w.Evolves S (w.setThread t thread) := by
  cases t with
  | driver | sleeper j => exact of_same rfl rfl (.refl _) rfl rfl fun c => by cases c <;> rfl
  | actor i => exact modifyActor w i fun a _ => .refl a.core

end World.Evolves

namespace World.Acts

variable {S : Subject → Prop} {w w₁ w₂ : World σ}

theorem of_same (evolves : w.Evolves S w₁) (threads : ∀ u, w₁.thread? u = w.thread? u) :
    w.Acts S w₁ where
  toEvolves := evolves
  kept u thread found := ⟨thread, by rw [threads, found], rfl⟩
  begun u thread' none found := by
    rw [threads, none] at found
    cases found

theorem mono {S' : Subject → Prop} (h : w.Acts S w₁) (imp : ∀ c, S c → S' c) : w.Acts S' w₁ where
  registry := h.registry
  policy := h.policy
  controller := h.controller
  ids := h.ids
  numbers := h.numbers
  cores c core found := by
    obtain ⟨core', found', becomes⟩ := h.cores c core found
    exact ⟨core', found', becomes.mono (imp c)⟩
  fresh c core' none found := by
    obtain ⟨new, id, typeTag, d, offered, made, becomes⟩ := h.fresh c core' none found
    exact ⟨fun kind => imp c (new kind), id, typeTag, d, offered, made, becomes.mono (imp c)⟩
  kept := h.kept
  begun := h.begun

theorem trans (h : w.Acts S w₁) (k : w₁.Acts S w₂) : w.Acts S w₂ where
  toEvolves := h.toEvolves.trans k.toEvolves
  kept u thread found := by
    obtain ⟨thread₁, found₁, same₁⟩ := h.kept u thread found
    obtain ⟨thread₂, found₂, same₂⟩ := k.kept u thread₁ found₁
    exact ⟨thread₂, found₂, same₂.trans same₁⟩
  begun u thread₂ none found₂ := by
    cases found₁ : w₁.thread? u with
    | none => exact k.begun u thread₂ found₁ found₂
    | some thread₁ =>
      have fresh := h.begun u thread₁ none found₁
      obtain ⟨thread₂', found₂', same⟩ := k.kept u thread₁ found₁
      obtain rfl := Option.some.inj (found₂.symm.trans found₂')
      cases u <;> simp_all [Thread.Fresh]

/-- A thread goes on with the same tasks. -/
theorem setThread (h : w.Acts S w₁) {t : ThreadId} {thread : Thread}
    (found : w.thread? t = some thread) (outside : Bool) :
    w.Acts S (w₁.setThread t { thread with outside }) where
  toEvolves := h.toEvolves.trans (.setThread w₁ t _)
  kept u thread' found' := by
    obtain ⟨thread₁, found₁, same⟩ := h.kept u thread' found'
    by_cases e : u = t
    · subst e
      obtain rfl := Option.some.inj (found.symm.trans found')
      exact ⟨_, w₁.thread?_setThread found₁ _, rfl⟩
    · exact ⟨thread₁, by rw [w₁.thread?_setThread_ne e, found₁], same⟩
  begun u thread' none found' := by
    have other : u ≠ t := fun e => by
      rw [e, found] at none
      cases none
    rw [w₁.thread?_setThread_ne other] at found'
    exact h.begun u thread' none found'

/-- An actor changes, but not what its thread has to do. -/
theorem modifyActor (w : World σ) (i : Nat) {f : Actor → Actor}
    (becomes : ∀ a, w.actors[i]? = some a → a.core.Becomes (S (.actor i)) (f a).core)
    (thread : ∀ a, (f a).thread = a.thread) : w.Acts S (w.modifyActor i f) :=
  of_same (.modifyActor w i becomes) fun u => w.thread?_modifyActor u i thread

end World.Acts

namespace World.Works

variable {S : Subject → Prop} {w w₁ w₂ : World σ}

/-- The same actors, monitors and threads. -/
theorem of_parts (registry : w₁.registry = w.registry) (policy : w₁.policy = w.policy)
    (controller : w.controller.Steers w₁.controller) (ids : w₁.ids = w.ids)
    (actors : w₁.actors = w.actors) (monitors : w₁.monitors = w.monitors)
    (test : w₁.test.thread = w.test.thread)
    (sleepers : w₁.sleepers.map (·.thread) = w.sleepers.map (·.thread)) : w.Works S w₁ where
  toActs := by
    refine .of_same (.of_same registry policy controller ids (by rw [actors]) fun c => ?_)
      fun u => ?_
    · cases c <;> simp [World.core?, actors, monitors]
    · cases u with
      | driver => simp [World.thread?, test]
      | actor i => simp [World.thread?, actors]
      | sleeper j => simpa [World.thread?] using congrArg (·[j]?) sleepers
  mailbox i := by simp [World.mailbox, actors]

theorem refl (w : World σ) : w.Works S w := of_parts rfl rfl (.refl _) rfl rfl rfl rfl rfl

theorem trans (h : w.Works S w₁) (k : w₁.Works S w₂) : w.Works S w₂ :=
  ⟨h.toActs.trans k.toActs, fun i => (k.mailbox i).trans (h.mailbox i)⟩

theorem of_controller (w : World σ) {c : Controller σ} (steers : w.controller.Steers c) :
    w.Works S { w with controller := c } := of_parts rfl rfl steers rfl rfl rfl rfl rfl

theorem report (w : World σ) (report : BugReport) : w.Works S (w.report report) :=
  of_controller w (.terminate _ _)

theorem note (w : World σ) (who text : String) : w.Works S (w.note who text) := by
  unfold World.note
  split
  · exact refl w
  · exact of_parts rfl rfl (.refl _) rfl rfl rfl rfl rfl

theorem observe (w : World σ) (event : LifecycleEvent) : w.Works S (w.observe event) := by
  unfold World.observe
  split
  · exact refl w
  · exact of_parts rfl rfl (.refl _) rfl rfl rfl rfl rfl

theorem reply (w : World σ) (r : Nat) (handled : Bool) : w.Works S (w.reply r handled) := by
  unfold World.reply
  split
  · next waiter _ =>
    cases waiter with
    | none => exact of_parts rfl rfl (.refl _) rfl rfl rfl rfl rfl
    | some op => exact of_parts rfl rfl (.setStatus _ _ _ _) rfl rfl rfl rfl rfl
  · exact refl w

theorem replyAll (w : World σ) (rs : List Nat) (handled : Bool) :
    w.Works S (w.replyAll rs handled) := by
  unfold World.replyAll
  induction rs generalizing w with
  | nil => exact refl w
  | cons r rs ih => exact (reply w r handled).trans (ih _)

theorem replyEach (w : World σ) (pending : List (Nat × Bool)) :
    w.Works S (pending.foldl (fun w (r, handled) => w.reply r handled) w) := by
  induction pending generalizing w with
  | nil => exact refl w
  | cons p pending ih => exact (reply w p.1 p.2).trans (ih _)

theorem discard (w : World σ) (envelopes : List Envelope) : w.Works S (w.discard envelopes) :=
  replyAll w _ false

theorem blockCaller (w : World σ) (caller : Option Nat) : w.Works S (w.blockCaller caller) := by
  unfold World.blockCaller
  split
  · split
    · exact of_controller w (.setStatus _ _ _ _)
    · exact refl w
  · exact refl w

theorem openRendezvous (w : World σ) (caller : Option Nat) :
    w.Works S (w.openRendezvous caller).2 :=
  of_parts rfl rfl (.refl _) rfl rfl rfl rfl rfl

/-- An actor changes, but neither its mailbox nor what its thread has to do. -/
theorem modifyActor (w : World σ) (i : Nat) {f : Actor → Actor}
    (becomes : ∀ a, w.actors[i]? = some a → a.core.Becomes (S (.actor i)) (f a).core)
    (thread : ∀ a, (f a).thread = a.thread) (mailbox : ∀ a, (f a).mailbox = a.mailbox) :
    w.Works S (w.modifyActor i f) where
  toActs := .modifyActor w i becomes thread
  mailbox j := by
    simp only [World.mailbox, World.modifyActor, List.getElem?_modify]
    by_cases e : i = j
    · subst e
      cases w.actors[i]? <;> simp [mailbox]
    · simp [e]

/-- A monitor changes. -/
theorem modifyMonitor (w : World σ) (m : Nat) {f : Monitor → Monitor}
    (becomes : ∀ a, w.monitors[m]? = some a → a.core.Becomes (S (.monitor m)) (f a).core) :
    w.Works S (w.modifyMonitor m f) where
  toActs := .of_same (.modifyMonitor w m becomes) fun u => by cases u <;> rfl
  mailbox _ := rfl

/-- An interpreter changes. -/
theorem modifyCore (w : World σ) (c : Subject) {f : Core → Core}
    (becomes : ∀ core, w.core? c = some core → core.Becomes (S c) (f core)) :
    w.Works S (w.modifyCore c f) := by
  cases c with
  | actor i =>
    exact modifyActor w i (fun a found => becomes a.core (by simp [World.core?, found]))
      (fun _ => rfl) fun _ => rfl
  | monitor m =>
    exact modifyMonitor w m fun a found => becomes a.core (by simp [World.core?, found])

/-- States are popped. -/
theorem sink (w : World σ) {c : Subject} (move : S c) {core : Core} (found : w.core? c = some core)
    {stack : List ActiveState} (rest : stack <:+ core.stack) : w.Works S (w.setStack c stack) := by
  refine modifyCore w c fun core' found' => ?_
  obtain rfl := Option.some.inj (found.symm.trans found')
  exact .of_change (.sinks move rest)

/-- A thread goes on with the same tasks. -/
theorem setThread (h : w.Works S w₁) {t : ThreadId} {thread : Thread}
    (found : w.thread? t = some thread) (outside : Bool) :
    w.Works S (w₁.setThread t { thread with outside }) :=
  ⟨h.toActs.setThread found outside, fun i => (mailbox_setThread w₁ t _ i).trans (h.mailbox i)⟩

/-- A monitor halts. -/
theorem halt_monitor (w : World σ) {m : Nat} (move : S (.monitor m)) :
    w.Works S (w.halt (.monitor m)) := by
  unfold World.halt
  split
  · exact refl w
  · split
    · exact refl w
    · exact (modifyCore w (.monitor m) fun core _ => .of_change (.halts move)).trans (observe _ _)

/-- A new actor has a new identity, a descriptor of the registry and an empty mailbox. -/
theorem addActor (w : World σ) {ids : Allocator} (advances : w.ids.Advances ids)
    (next : ids.counter ≤ w.ids.counter + 1) {id : ActorId} (made : ids.Made id) {typeTag : String}
    {d : Descriptor} (offered : w.registry.machine? typeTag = some d) (event : Option Event)
    (rendezvous : Option Nat) :
    w.Works S (World.addActor { w with ids } id d event rendezvous) := by
  unfold World.addActor
  refine Works.trans ?_ (observe _ _)
  refine ⟨⟨⟨rfl, rfl, .register _ _, advances, ?_, ?_, ?_⟩, ?_, ?_⟩, ?_⟩
  · simp only [List.length_append, List.length_singleton]
    omega
  · intro c core found
    cases c with
    | monitor m => exact ⟨core, found, .refl core⟩
    | actor j =>
      obtain ⟨a, there, rfl⟩ := Option.map_eq_some_iff.1 found
      refine ⟨a.core, ?_, .refl _⟩
      simp [World.core?, List.getElem?_append_left (List.getElem?_eq_some_iff.1 there).1, there]
  · intro c core' none found
    cases c with
    | monitor m => cases none.symm.trans found
    | actor j =>
      have absent : w.actors[j]? = Option.none := by simpa [World.core?] using none
      obtain ⟨a, there, rfl⟩ := Option.map_eq_some_iff.1 found
      rw [List.getElem?_append_right (List.getElem?_eq_none_iff.1 absent)] at there
      obtain rfl := List.mem_singleton.1 (List.mem_of_getElem? there)
      exact ⟨by rintro ⟨⟩, id, typeTag, d, offered, fun _ => made, .refl _⟩
  · intro u thread found
    cases u with
    | driver | sleeper j => exact ⟨thread, found, rfl⟩
    | actor j =>
      obtain ⟨a, there, rfl⟩ := Option.map_eq_some_iff.1 found
      refine ⟨a.thread, ?_, rfl⟩
      simp [World.thread?, List.getElem?_append_left (List.getElem?_eq_some_iff.1 there).1, there]
  · intro u thread' none found
    cases u with
    | driver => cases none
    | sleeper j => cases none.symm.trans found
    | actor j =>
      have absent : w.actors[j]? = Option.none := by simpa [World.thread?] using none
      obtain ⟨a, there, rfl⟩ := Option.map_eq_some_iff.1 found
      have past := List.getElem?_eq_none_iff.1 absent
      rw [List.getElem?_append_right past] at there
      obtain ⟨last, same⟩ := List.getElem?_eq_some_iff.1 there
      obtain rfl : j = w.actors.length := by
        simp only [List.length_singleton] at last
        omega
      obtain rfl := List.mem_singleton.1 (List.mem_of_getElem? there)
      rfl
  · intro j
    simp only [World.mailbox, List.getElem?_append]
    split
    · rfl
    · next beyond =>
      rw [List.getElem?_eq_none_iff.2 (Nat.le_of_not_lt beyond)]
      cases there : ([_] : List Actor)[j - w.actors.length]? with
      | none => rfl
      | some a =>
        obtain rfl := List.mem_singleton.1 (List.mem_of_getElem? there)
        rfl

/-- A new monitor has a descriptor of the registry. -/
theorem addMonitor (w : World σ) (id : ActorId) {typeTag : String} {d : Descriptor}
    (offered : w.registry.monitor? typeTag = some d) (subscriptions : List EventType)
    (stage : Stage) (busy : Bool) (new : S (.monitor w.monitors.length)) :
    w.Works S { w with monitors := w.monitors ++ [⟨.new id d, subscriptions, stage, busy⟩] } := by
  refine ⟨.of_same ⟨rfl, rfl, .refl _, .refl _, Nat.le_refl _, ?_, ?_⟩ fun u => by cases u <;> rfl,
    fun _ => rfl⟩
  · intro c core found
    cases c with
    | actor i => exact ⟨core, found, .refl core⟩
    | monitor m =>
      obtain ⟨a, there, rfl⟩ := Option.map_eq_some_iff.1 found
      refine ⟨a.core, ?_, .refl _⟩
      simp [World.core?, List.getElem?_append_left (List.getElem?_eq_some_iff.1 there).1, there]
  · intro c core' none found
    cases c with
    | actor i => cases none.symm.trans found
    | monitor m =>
      have absent : w.monitors[m]? = Option.none := by simpa [World.core?] using none
      obtain ⟨a, there, rfl⟩ := Option.map_eq_some_iff.1 found
      have past := List.getElem?_eq_none_iff.1 absent
      rw [List.getElem?_append_right past] at there
      obtain ⟨last, same⟩ := List.getElem?_eq_some_iff.1 there
      obtain rfl : m = w.monitors.length := by
        simp only [List.length_singleton] at last
        omega
      obtain rfl := List.mem_singleton.1 (List.mem_of_getElem? there)
      exact ⟨fun _ => new, id, typeTag, d, offered, by rintro ⟨⟩, .refl _⟩

/-- Sleepers are stopped, and new ones have not begun. -/
theorem stopSleeper (w : World σ) (core : Option Core) : w.Works S (w.stopSleeper core) := by
  cases core with
  | none => exact refl w
  | some c =>
    refine of_parts rfl rfl (.refl _) rfl rfl rfl rfl ?_
    simp only [World.stopSleeper, List.map_map]
    refine List.map_congr_left fun s _ => ?_
    simp only [Function.comp_apply]
    split <;> rfl

theorem startSleeper (w : World σ) (info : TimerInfo) : w.Works S (w.startSleeper info) := by
  refine ⟨⟨.of_same rfl rfl (.refl _) rfl rfl fun c => by cases c <;> rfl, ?_, ?_⟩, fun _ => rfl⟩
  · intro u thread found
    cases u with
    | driver | actor i => exact ⟨thread, found, rfl⟩
    | sleeper j =>
      obtain ⟨s, there, rfl⟩ := Option.map_eq_some_iff.1 found
      refine ⟨s.thread, ?_, rfl⟩
      simp [World.thread?, World.startSleeper,
        List.getElem?_append_left (List.getElem?_eq_some_iff.1 there).1, there]
  · intro u thread' none found
    cases u with
    | driver => cases none
    | actor i => cases none.symm.trans found
    | sleeper j =>
      have absent : w.sleepers[j]? = Option.none := by simpa [World.thread?] using none
      obtain ⟨s, there, rfl⟩ := Option.map_eq_some_iff.1 found
      have past := List.getElem?_eq_none_iff.1 absent
      rw [World.startSleeper, List.getElem?_append_right past] at there
      obtain ⟨last, same⟩ := List.getElem?_eq_some_iff.1 there
      obtain rfl : j = w.sleepers.length := by
        simp only [List.length_singleton] at last
        omega
      obtain rfl := List.mem_singleton.1 (List.mem_of_getElem? there)
      rfl

end World.Works

end SteeredActors
