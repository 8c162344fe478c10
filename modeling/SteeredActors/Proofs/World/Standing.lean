import SteeredActors.Proofs.World.Transition

/-!
# How actors stand

Mailbox, operation and interpreter of an actor belong together at every moment of an explored run:
which tasks its thread has says which status its mailbox and its operation may have.
-/

set_option autoImplicit false
set_option relaxedAutoImplicit false

namespace SteeredActors

variable {σ : Type}

/-- Nothing is left to do for an actor: nothing is raised, its state does not handle the reserved
event, and it skips all that is queued. -/
structure Actor.Resting (policy : DequeuePolicy) (a : Actor) : Prop where
  raised : a.core.raised = none
  current : ∃ top, a.core.stack.head? = some top ∧ top.hasDefault = false ∧
    ∀ envelope ∈ a.mailbox.queue, top.verdict policy envelope.event.type = .skip

/-- An actor waits for work, or it has been woken. -/
def Actor.Parked (policy : DequeuePolicy) (s : OperationStatus) (a : Actor) : Prop :=
  a.mailbox.status = .idle ∧ s = .disabled ∧ a.Resting policy ∨
    a.mailbox.status = .running ∧ s = .enabled ∧ a.core.stack ≠ []

/-- How an actor stands, by what its thread has to do. `holds` tells that it holds the turn, and `s`
is the status of its operation. -/
inductive ActorStage (policy : DequeuePolicy) (i : Nat) (holds : Prop) (s : OperationStatus)
    (a : Actor) : Prop where
  | fresh (thread : a.thread = ⟨[.firstTurn i], false⟩)
      (status : a.mailbox.status = .uninitialized) (enabled : s = .enabled)
      (running : a.core.halted = false)
  | called (turn : holds) (thread : a.thread = ⟨[.wake i], false⟩)
      (status : a.mailbox.status = .uninitialized ∨
        a.mailbox.status = .running ∧ a.core.stack ≠ [])
      (enabled : s = .enabled) (running : a.core.halted = false)
  | working {tasks : List Task} {outside : Bool} (thread : a.thread = ⟨tasks, outside⟩)
      (works : Working (some i) outside tasks) (grounded : Grounded tasks a.core.stack.length)
      (status : a.mailbox.status = .running) (active : s = .enabled ∨ s = .blocked)
      (running : a.core.halted = false)
  | halting (turn : holds) (thread : a.thread = ⟨[.cycle i], false⟩ ∨
        ∃ r handled, a.thread = ⟨[.settle i r handled, .cycle i], false⟩)
      (status : a.mailbox.status = .halted) (enabled : s = .enabled)
      (halted : a.core.halted = true)
  | pausing (turn : holds) (thread : a.thread = ⟨[.pass .yield, .rest i], false⟩)
      (parked : a.Parked policy s) (running : a.core.halted = false)
  | resting (thread : a.thread = ⟨[.rest i], false⟩) (parked : a.Parked policy s)
      (running : a.core.halted = false)
  | retiring (turn : holds) (kind : PointKind) (thread : a.thread = ⟨[.retire kind], false⟩)
      (status : a.mailbox.status = .halted) (enabled : s = .enabled)
  | gone (thread : a.thread = ⟨[], false⟩) (status : a.mailbox.status = .halted)
      (completed : s = .completed)

/-- How the test stands. -/
inductive TestStage (holds : Prop) (s : OperationStatus) (thread : Thread) : Prop where
  | working (works : Working none thread.outside thread.tasks)
      (active : s = .enabled ∨ s = .blocked)
  | retiring (turn : holds) (tasks : thread = ⟨[.retire .yield], false⟩) (enabled : s = .enabled)
  | gone (tasks : thread = ⟨[], false⟩) (completed : s = .completed)

/-- A status may change by a reply. -/
def Relieved (s s' : OperationStatus) : Prop := s' = s ∨ s = .blocked ∧ s' = .enabled

namespace ActorStage

variable {policy : DequeuePolicy} {i : Nat} {holds : Prop} {s s' : OperationStatus} {a : Actor}

theorem relieve (h : ActorStage policy i holds s a) (reply : Relieved s s') :
    ActorStage policy i holds s' a := by
  rcases reply with rfl | ⟨rfl, rfl⟩
  · exact h
  · cases h with
    | working thread works grounded status active running =>
      exact .working thread works grounded status (.inl rfl) running
    | fresh _ _ enabled | called _ _ _ enabled | halting _ _ _ enabled | retiring _ _ _ _ enabled =>
      cases enabled
    | gone _ _ completed => cases completed
    | pausing _ _ parked | resting _ parked =>
      rcases parked with ⟨_, e, _⟩ | ⟨_, e, _⟩ <;> cases e

/-- Who does not hold the turn may stand as before when somebody gets it. -/
theorem unheld {holds' : Prop} (h : ActorStage policy i holds s a) (others : ¬holds) :
    ActorStage policy i holds' s a := by
  cases h with
  | fresh thread status enabled running => exact .fresh thread status enabled running
  | working thread works grounded status active running =>
    exact .working thread works grounded status active running
  | resting thread parked running => exact .resting thread parked running
  | gone thread status completed => exact .gone thread status completed
  | called turn | halting turn | pausing turn | retiring turn => exact absurd turn others

theorem posture (h : ActorStage policy i holds s a) : Posture (some i) a.thread := by
  cases h with
  | fresh thread => exact thread ▸ .fresh rfl
  | called _ thread => exact thread ▸ .called rfl
  | working thread works => exact thread ▸ .working works
  | halting _ thread =>
    rcases thread with thread | ⟨r, handled, thread⟩
    · exact thread ▸ .working (.cycle rfl)
    · exact thread ▸ .working (.settle rfl r handled)
  | pausing _ thread => exact thread ▸ .idles rfl
  | resting thread => exact thread ▸ .rests rfl
  | retiring _ kind thread => exact thread ▸ .retires kind
  | gone thread => exact thread ▸ .done

end ActorStage

namespace TestStage

variable {holds : Prop} {s s' : OperationStatus} {thread : Thread}

theorem relieve (h : TestStage holds s thread) (reply : Relieved s s') :
    TestStage holds s' thread := by
  rcases reply with rfl | ⟨rfl, rfl⟩
  · exact h
  · cases h with
    | working works active => exact .working works (.inl rfl)
    | retiring _ _ enabled => cases enabled
    | gone _ completed => cases completed

theorem unheld {holds' : Prop} (h : TestStage holds s thread) (others : ¬holds) :
    TestStage holds' s thread := by
  cases h with
  | working works active => exact .working works active
  | retiring turn => exact absurd turn others
  | gone tasks completed => exact .gone tasks completed

theorem posture (h : TestStage holds s thread) : Posture none thread := by
  cases h with
  | working works => exact .working works
  | retiring _ tasks => exact tasks ▸ .retires .yield
  | gone tasks => exact tasks ▸ .done

end TestStage

/-- What a mailbox and the rendezvous an actor has to answer for have to do with its status. -/
structure Actor.Tidy (a : Actor) : Prop where
  queue : a.mailbox.status = .halted → a.mailbox.queue = []
  pending : a.mailbox.status ≠ .running → a.pending = []
  creation : a.mailbox.status ≠ .uninitialized → a.creationRendezvous = none
  halted : a.core.halted = true → a.mailbox.status = .halted

/-- An actor stands as its thread says. -/
structure Stands (w : World σ) (i : Nat) (a : Actor) : Prop where
  operation : a.operation = i + 1
  stage : ∃ s, w.controller.status? (i + 1) = some s ∧
    ActorStage w.policy i (w.controller.scheduled = i + 1) s a
  tidy : a.Tidy

/-- In a world while decisions are explored, operations are numbered, the test first, and everybody
stands as the own thread says. -/
structure Sound (w : World σ) : Prop where
  explores : w.explores = true
  ids : w.controller.operations.map (·.id) = List.range (w.actors.length + 1)
  nextId : w.controller.nextId = w.actors.length + 1
  driver : ∃ s, w.controller.status? 0 = some s ∧
    TestStage (w.controller.scheduled = 0) s w.test.thread
  actors : ∀ i a, w.actors[i]? = some a → Stands w i a

/-- The holder of the turn has work, or passes the turn on. -/
structure Poised (w : World σ) : Prop where
  enabled : w.controller.status? w.controller.scheduled = some .enabled ∨
    ∃ kind rest, w.thread? (World.threadOf w.controller.scheduled) =
      some ⟨.pass kind :: rest, false⟩

end SteeredActors
