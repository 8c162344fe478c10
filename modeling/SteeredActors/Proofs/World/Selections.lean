import SteeredActors.Proofs.Selection
import SteeredActors.Proofs.World.Reached

/-!
# Selections of actors

An actor that has nothing raised selects its next event by what its current state says of events.
It drops on the way what is ignored, passes over what is deferred, and takes the earliest event that
the policy admits. With nothing to take it turns to the reserved event if its state handles that
one; otherwise its operation is disabled and it comes to rest.
-/

set_option autoImplicit false
set_option relaxedAutoImplicit false

namespace SteeredActors

variable {σ : Type}

/-! ## What a state says of an event -/

theorem StateDescriptor.defers_iff {s : StateDescriptor} (distinct : s.events.Nodup)
    {e : EventType} : s.defers e = true ↔ (e, .defer) ∈ s.bindings := by
  rw [← disposition?_eq_some distinct, defers]
  split <;> simp_all

namespace ActiveState

variable {s : ActiveState} {e : EventType}

/-- The state consumes the event: it leaves for another state, pushes one, or has an effective
action. -/
def Binds (s : ActiveState) (e : EventType) : Prop :=
  s.Plays e .goto ∨ s.Plays e .push ∨ s.Plays e .action

/-- The events that selection may take while this is the current state. -/
def Admits (s : ActiveState) (policy : DequeuePolicy) (e : EventType) : Prop :=
  ¬s.Plays e .ignored ∧ ¬s.Plays e .deferred ∧ (policy = .firstUnhandled → ¬s.Binds e)

theorem ignores_iff : s.ignores e = true ↔ s.Plays e .ignored := List.contains_iff_mem

theorem action?_isSome_iff : (s.action? e).isSome = true ↔ s.Plays e .action := by
  simp [action?, Plays, List.find?_isSome]

theorem canHandle_iff (distinct : s.state.events.Nodup) : s.canHandle e = true ↔ s.Binds e := by
  have named {d : Disposition} : (e, d) ∈ s.state.bindings ↔ s.state.disposition? e = some d :=
    (StateDescriptor.disposition?_eq_some distinct).symm
  rw [canHandle, binding?, Binds, ← action?_isSome_iff]
  simp only [Plays, named]
  split <;> simp_all

theorem verdict_eq_discard_iff (policy : DequeuePolicy) :
    s.verdict policy e = .discard ↔ s.Plays e .ignored := by
  rw [← ignores_iff]
  unfold verdict
  cases s.ignores e <;> cases s.defers e <;> cases policy <;> cases s.canHandle e <;> simp

theorem verdict_eq_take_iff (distinct : s.state.events.Nodup) (policy : DequeuePolicy) :
    s.verdict policy e = .take ↔ s.Admits policy e := by
  have deferred : s.defers e = true ↔ s.Plays e .deferred := StateDescriptor.defers_iff distinct
  rw [Admits, ← ignores_iff, ← deferred, ← canHandle_iff distinct]
  unfold verdict
  cases s.ignores e <;> cases s.defers e <;> cases policy <;> cases s.canHandle e <;> simp

end ActiveState

/-! ## What an actor does -/

namespace ActiveState

/-- The envelopes of a queue that are dropped. -/
def dropped (s : ActiveState) (queue : List Envelope) : List Envelope :=
  queue.filter (·.event.type ∈ s.ignored)

/-- The envelopes of a queue that stay in it. -/
def kept (s : ActiveState) (queue : List Envelope) : List Envelope :=
  queue.filter (·.event.type ∉ s.ignored)

end ActiveState

namespace World

/-- The world with another mailbox of an actor. -/
def setMailbox (w : World σ) (i : Nat) (mailbox : Mailbox) : World σ :=
  w.modifyActor i fun a => { a with mailbox }

/-- How an actor goes on that has nothing raised: with the earliest event that is admitted, with the
reserved event, or at rest. -/
inductive Selecting (w : World σ) (i : Nat) (a : Actor) (top : ActiveState) : Move σ → Prop where
  | event {front back : List Envelope} {envelope : Envelope}
    (queue : a.mailbox.queue = front ++ envelope :: back)
    (before : ∀ e ∈ front, ¬top.Admits w.policy e.event.type)
    (admitted : top.Admits w.policy envelope.event.type) :
    Selecting w i a top
      (.go [.handle (.actor i) envelope.event envelope.rendezvous, .cycle i]
        ((w.setMailbox i ⟨a.mailbox.status, top.kept front ++ back⟩).discard (top.dropped front)))
  | default (nothing : ∀ e ∈ a.mailbox.queue, ¬top.Admits w.policy e.event.type)
    (handles : top.Binds .default) :
    Selecting w i a top
      (.go [.point .defaultEvent, .handle (.actor i) (.ofType .default) none, .cycle i]
        ((w.setMailbox i ⟨a.mailbox.status, top.kept a.mailbox.queue⟩).discard
          (top.dropped a.mailbox.queue)))
  /-- The operation of the actor is disabled before anyone learns of what was dropped. -/
  | rest (nothing : ∀ e ∈ a.mailbox.queue, ¬top.Admits w.policy e.event.type)
    (lacks : ¬top.Binds .default) :
    Selecting w i a top
      (comeToRest
        ({ w.setMailbox i ⟨.idle, top.kept a.mailbox.queue⟩ with
            controller := w.controller.disable a.operation }.discard (top.dropped a.mailbox.queue))
        i a)

theorem selecting_selectEvent {w : World σ} {i : Nat} {a : Actor} {top : ActiveState}
    {below : List ActiveState} (stack : a.core.stack = top :: below)
    (distinct : top.state.events.Nodup) : w.Selecting i a top (w.selectEvent i a) := by
  have takes (e : EventType) : top.verdict w.policy e = .take ↔ top.Admits w.policy e :=
    ActiveState.verdict_eq_take_iff distinct w.policy
  have drops (queue : List Envelope) :
      queue.filter (top.verdict w.policy ·.event.type = .discard) = top.dropped queue := by
    simp [ActiveState.verdict_eq_discard_iff, ActiveState.Plays, ActiveState.dropped]
  have keeps (queue : List Envelope) :
      queue.filter (top.verdict w.policy ·.event.type ≠ .discard) = top.kept queue := by
    simp [ActiveState.verdict_eq_discard_iff, ActiveState.Plays, ActiveState.kept]
  have selects := Mailbox.selects_dequeue (top.verdict w.policy) top.hasDefault a.mailbox
  simp only [selectEvent, stack]
  generalize a.mailbox.dequeue (top.verdict w.policy) top.hasDefault = found at selects
  cases selects with
  | event queue before taken =>
    simp only [drops, keeps]
    exact .event queue (fun e mem => mt (takes _).2 (before e mem)) ((takes _).1 taken)
  | default nothing handles =>
    simp only [drops, keeps]
    exact .default (fun e mem => mt (takes _).2 (nothing e mem))
      ((ActiveState.canHandle_iff distinct).1 handles)
  | idle nothing lacks =>
    simp only [drops, keeps]
    refine .rest (fun e mem => mt (takes _).2 (nothing e mem)) fun binds => ?_
    have handles : top.hasDefault = true := (ActiveState.canHandle_iff distinct).2 binds
    simp [handles] at lacks

variable [Strategy σ]

/-- Selection reads a queue up to its first envelope to take, and in every world that can be reached
an actor selects in this way the earliest event that its current state admits. -/
theorem selects_first_admitted {registry : Registry} (accepted : registry.Accepted) :
    (∀ verdict hasDefault (m : Mailbox),
      m.Selects verdict hasDefault (m.dequeue verdict hasDefault)) ∧
    ∀ {w : World σ}, World.Reached registry w →
      ∀ {i : Nat} {a : Actor} {top : ActiveState} {below : List ActiveState},
        w.actors[i]? = some a → w.isOver = false → a.core.halted = false → a.core.raised = none →
          a.core.stack = top :: below → ∀ t, w.Selecting i a top (w.exec t (.cycle i)) := by
  refine ⟨Mailbox.selects_dequeue, ?_⟩
  intro w reached i a top below there running alive free stack t
  have fit := (reached.orderly accepted).fit.cores (.actor i) a.core (by simp [core?, there])
  have distinct : top.state.events.Nodup :=
    fit.distinct _ (List.mem_map.2 ⟨top, by simp [stack], rfl⟩)
  have selects : w.exec t (.cycle i) = w.selectEvent i a := by
    simp [exec, cycleActor, running, withActor, there, alive, obey, free]
  rw [selects]
  exact selecting_selectEvent stack distinct

end World

/-! ## A machine that picks -/

private def picked : Action := fun o => .finish o.memory .ok

private def picks : StateDescriptor :=
  ⟨"Init", true, none, none, none,
    [(⟨"Later"⟩, .defer), (⟨"Never"⟩, .ignore), (⟨"Now"⟩, .action picked)]⟩

/-- A machine that defers one event, ignores another and has an action for a third. -/
private def picker : Declaration :=
  { typeTag := "Picker", kind := .machine, inherited := [], observes := [], derived := [picks] }

private def pickerDescriptor : Descriptor := ⟨"Picker", .machine, [picks], picks, []⟩

/-- The test sends the machine events of four types, under a policy. -/
def picking (policy : DequeuePolicy) : Experiment where
  settings := { Settings.exploration with runtime := { dequeuePolicy := policy } }
  registry := ⟨Timer.descriptors ++ [pickerDescriptor]⟩
  test :=
    .ask .own (.create "Picker" none none false) fun
      | .ok (.actor id) =>
        .ask .own (.send id (.ofType ⟨"Later"⟩)) fun _ =>
          .ask .own (.send id (.ofType ⟨"Never"⟩)) fun _ =>
            .ask .own (.send id (.ofType ⟨"Now"⟩)) fun _ =>
              .ask .own (.send id (.ofType ⟨"Else"⟩)) fun _ => .finish {} .ok
      | _ => .finish {} .ok

/-- The machine has its turn when the test is done. -/
private def turnsOfPicking : ScriptedStrategy :=
  .ofAnswers [.ok 0, .ok 0, .ok 0, .ok 0, .ok 0, .ok 1]

private theorem accepted_picking (policy : DequeuePolicy) : (picking policy).registry.Accepted := by
  have built : picker.build = .ok pickerDescriptor :=
    Declaration.build_of_plain (by decide) rfl rfl rfl rfl rfl
  exact ⟨[pickerDescriptor], by simpa using ⟨picker, built⟩, rfl⟩

/-- The world when the machine comes to its first selection. -/
private def collected (policy : DequeuePolicy) : World ScriptedStrategy :=
  (picking policy).iterate 38 ⟨0, 0⟩ turnsOfPicking

/-- Of the same four events one policy takes the one with an action, and the other the one that
nothing is said of. -/
theorem selects_first_admitted_picking :
    (∃ a top w', (collected .firstNonDeferred).actors[0]? = some a ∧
      a.mailbox.queue.map (·.event.type.name) = ["Later", "Never", "Now", "Else"] ∧
      a.core.stack = [top] ∧
      (collected .firstNonDeferred).Selecting 0 a top
        (.go [.handle (.actor 0) (.ofType ⟨"Now"⟩) none, .cycle 0] w')) ∧
    ∃ a top w', (collected .firstUnhandled).actors[0]? = some a ∧
      a.mailbox.queue.map (·.event.type.name) = ["Later", "Never", "Now", "Else"] ∧
      a.core.stack = [top] ∧
      (collected .firstUnhandled).Selecting 0 a top
        (.go [.handle (.actor 0) (.ofType ⟨"Else"⟩) none, .cycle 0] w') :=
  ⟨⟨_, _, _, rfl, rfl, rfl,
      (World.selects_first_admitted (accepted_picking _)).2
        ((picking .firstNonDeferred).reached 38 ⟨0, 0⟩ turnsOfPicking) rfl rfl rfl rfl rfl
        (.actor 0)⟩,
    _, _, _, rfl, rfl, rfl,
    (World.selects_first_admitted (accepted_picking _)).2
      ((picking .firstUnhandled).reached 38 ⟨0, 0⟩ turnsOfPicking) rfl rfl rfl rfl rfl (.actor 0)⟩

end SteeredActors
