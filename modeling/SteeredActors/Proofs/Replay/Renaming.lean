import Mathlib.Logic.Equiv.Defs
import SteeredActors.World.Step

/-!
# Renaming generations

The identities of two iterations of one test differ in their generation only. A permutation of
generations renames every identity that occurs in values, events, programs and descriptors. What
programs and descriptors compute is renamed with them when their arguments are: a program that the
renaming leaves as it is does not look at generations.
-/

set_option autoImplicit false
set_option relaxedAutoImplicit false

namespace SteeredActors

variable (π : Equiv.Perm Nat)

/-! ## Identities and values -/

/-- The identity with the same key in the renamed generation. -/
def ActorId.rename (a : ActorId) : ActorId := { a with generation := π a.generation }

mutual

/-- Rename the identities in a value. -/
def Value.rename : Value → Value
  | .actor id => .actor (id.rename π)
  | .list items => .list (Value.renameAll items)
  | .null => .null
  | .bool b => .bool b
  | .int n => .int n
  | .text s => .text s
  | .shared object => .shared object

/-- Rename the identities in values. -/
def Value.renameAll : List Value → List Value
  | [] => []
  | v :: vs => Value.rename v :: Value.renameAll vs

end

def TimerInfo.rename (i : TimerInfo) : TimerInfo :=
  { i with timer := i.timer.rename π, owner := i.owner.rename π }

def Payload.rename : Payload → Payload
  | .value v => .value (v.rename π)
  | .timerSetup owner period periodic => .timerSetup (owner.rename π) period periodic
  | .timerElapsed info => .timerElapsed (info.rename π)

def Event.rename (e : Event) : Event := { e with payload := e.payload.map (Payload.rename π) }

def Memory.rename (m : Memory) : Memory where
  bindings := m.bindings.map fun (x, v) => (x, v.rename π)
  timer := m.timer.map (TimerInfo.rename π)

/-! ## Answers and requests -/

def Refusal.rename : Refusal → Refusal
  | .unknownActor id => .unknownActor (id.rename π)
  | r => r

def Failure.rename : Failure → Failure
  | .runtime r => .runtime (r.rename π)
  | .access r => .access (r.rename π)
  | f => f

def Answer.rename : Answer → Answer
  | .ok v => .ok (v.rename π)
  | .error f => .error (f.rename π)

def BugReport.rename (b : BugReport) : BugReport :=
  { b with actor := b.actor.map (ActorId.rename π) }

def Outcome.rename : Outcome → Outcome
  | .bugFound report => .bugFound (report.rename π)
  | o => o

def Ending.rename : Ending → Ending
  | .failed f => .failed (f.rename π)
  | e => e

def SharedObject.rename : SharedObject → SharedObject
  | .counter n => .counter n
  | .dictionary entries => .dictionary (entries.map fun (k, v) => (k, v.rename π))
  | .register v => .register (v.rename π)

def DictionaryOperation.rename : DictionaryOperation → DictionaryOperation
  | .tryAdd k v => .tryAdd k (v.rename π)
  | .tryUpdate k v expected => .tryUpdate k (v.rename π) (expected.rename π)
  | .set k v => .set k (v.rename π)
  | op => op

def RegisterOperation.rename : RegisterOperation → RegisterOperation
  | .get => .get
  | .set v => .set (v.rename π)
  | .update v => .update (v.rename π)

def SharedOperation.rename : SharedOperation → SharedOperation
  | .counter op => .counter op
  | .dictionary op => .dictionary (op.rename π)
  | .register op => .register (op.rename π)

def Request.rename : Request → Request
  | .render v => .render (v.rename π)
  | .add a b => .add (a.rename π) (b.rename π)
  | .send target event => .send (target.rename π) (event.rename π)
  | .sendAndExecute target event => .sendAndExecute (target.rename π) (event.rename π)
  | .create typeTag name event execute =>
    .create typeTag name (event.map (Event.rename π)) execute
  | .raise event => .raise (event.rename π)
  | .stopTimer timer => .stopTimer (timer.rename π)
  | .monitor typeTag event => .monitor typeTag (event.rename π)
  | .terminate outcome => .terminate (outcome.rename π)
  | .awaitHalted id => .awaitHalted (id.rename π)
  | .newObject object => .newObject (object.rename π)
  | .access object method arguments => .access object method (arguments.map (Value.rename π))
  | .status id => .status (id.rename π)
  | .startSleeper info => .startSleeper (info.rename π)
  | r => r

/-! ## Programs -/

/-- What a program asks and how it ends is renamed; its answers are renamed back. -/
def Program.rename : Program → Program
  | .finish memory ending => .finish (memory.rename π) (ending.rename π)
  | .ask voice request next =>
    .ask voice (request.rename π) fun a => (next (Answer.rename π.symm a)).rename

def Occasion.rename (o : Occasion) : Occasion :=
  { o with
    self := o.self.rename π
    event := o.event.map (Event.rename π)
    memory := o.memory.rename π }

def Action.rename (a : Action) : Action := fun o => (a (o.rename π.symm)).rename π

/-! ## Descriptors -/

def Disposition.rename : Disposition → Disposition
  | .goto target transition => .goto target (transition.map (Action.rename π))
  | .push target => .push target
  | .action a => .action (Action.rename π a)
  | .ignore => .ignore
  | .defer => .defer

def StateDescriptor.rename (s : StateDescriptor) : StateDescriptor :=
  { s with
    entry := s.entry.map (Action.rename π)
    exit := s.exit.map (Action.rename π)
    bindings := s.bindings.map fun (e, d) => (e, d.rename π) }

def Descriptor.rename (d : Descriptor) : Descriptor :=
  { d with
    states := d.states.map (StateDescriptor.rename π)
    initial := d.initial.rename π }

def Registry.rename (r : Registry) : Registry := ⟨r.descriptors.map (Descriptor.rename π)⟩

/-! ## Interpreters and threads -/

def ActiveState.rename (s : ActiveState) : ActiveState where
  state := s.state.rename π
  actions := s.actions.map fun (e, a) => (e, Action.rename π a)
  ignored := s.ignored

def Binding.rename : Binding → Binding
  | .goto target transition => .goto target (transition.map (Action.rename π))
  | .push target => .push target
  | .action a => .action (Action.rename π a)

def Resolution.rename : Resolution → Resolution
  | .ignored stack => .ignored (stack.map (ActiveState.rename π))
  | .bound binding stack => .bound (binding.rename π) (stack.map (ActiveState.rename π))
  | .exhausted => .exhausted

def Demand.rename : Demand → Demand
  | .event e => .event (e.rename π)
  | d => d

def Core.rename (c : Core) : Core where
  id := c.id.rename π
  descriptor := c.descriptor.rename π
  stack := c.stack.map (ActiveState.rename π)
  raised := c.raised.map (Demand.rename π)
  memory := c.memory.rename π
  halted := c.halted

def Task.rename : Task → Task
  | .start c event => .start c (event.map (Event.rename π))
  | .handle c event r => .handle c (event.rename π) r
  | .invoke c a event phase => .invoke c (Action.rename π a) (event.map (Event.rename π)) phase
  | .switch c target event => .switch c target (event.map (Event.rename π))
  | .enter c target event => .enter c target (event.map (Event.rename π))
  | .forward event => .forward (event.rename π)
  | .notify typeTag event => .notify typeTag (event.rename π)
  | .deliver m event => .deliver m (event.rename π)
  | .install d id => .install (d.rename π) (id.rename π)
  | .post i event => .post i (event.rename π)
  | .engage i event => .engage i (event.rename π)
  | .touch object operation => .touch object (operation.rename π)
  | .answer v => .answer (v.rename π)
  | .awaitHalted id => .awaitHalted (id.rename π)
  | .perform speaker program => .perform speaker (program.rename π)
  | .resume speaker outside shared next =>
    .resume speaker outside shared fun a => (next (Answer.rename π.symm a)).rename π
  | x => x

def Thread.rename (t : Thread) : Thread := { t with tasks := t.tasks.map (Task.rename π) }

def Envelope.rename (e : Envelope) : Envelope := { e with event := e.event.rename π }

def Mailbox.rename (m : Mailbox) : Mailbox := { m with queue := m.queue.map (Envelope.rename π) }

def Selected.rename : Selected → Selected
  | .event envelope => .event (envelope.rename π)
  | s => s

/-! ## Parts of a world -/

def Actor.rename (a : Actor) : Actor :=
  { a with
    core := a.core.rename π
    mailbox := a.mailbox.rename π
    creationEvent := a.creationEvent.map (Event.rename π)
    thread := a.thread.rename π }

def Monitor.rename (m : Monitor) : Monitor := { m with core := m.core.rename π }

def Sleeper.rename (s : Sleeper) : Sleeper :=
  { s with info := s.info.rename π, thread := s.thread.rename π }

def Test.rename (t : Test) : Test where
  memory := t.memory.rename π
  ending := t.ending.map (Ending.rename π)
  thread := t.thread.rename π

def LifecycleEvent.rename : LifecycleEvent → LifecycleEvent
  | .created id => .created (id.rename π)
  | .destroyed id => .destroyed (id.rename π)

def Allocator.rename (ids : Allocator) : Allocator := { ids with generation := π ids.generation }

/-! ## Renaming back -/

@[simp] theorem ActorId.rename_rename (a : ActorId) : (a.rename π).rename π.symm = a := by
  simp [ActorId.rename]

mutual

theorem Value.rename_rename : (v : Value) → (v.rename π).rename π.symm = v
  | .actor id => by simp [Value.rename]
  | .list items => by simp only [Value.rename, Value.renameAll_renameAll items]
  | .null | .bool _ | .int _ | .text _ | .shared _ => rfl

theorem Value.renameAll_renameAll :
    (vs : List Value) → Value.renameAll π.symm (Value.renameAll π vs) = vs
  | [] => rfl
  | v :: vs => by simp only [Value.renameAll, Value.rename_rename v, Value.renameAll_renameAll vs]

end

attribute [simp] Value.rename_rename

theorem Value.renameAll_eq_map (vs : List Value) :
    Value.renameAll π vs = vs.map (Value.rename π) := by
  induction vs with
  | nil => rfl
  | cons v vs ih => rw [Value.renameAll, ih, List.map_cons]

@[simp] theorem TimerInfo.rename_rename (i : TimerInfo) : (i.rename π).rename π.symm = i := by
  simp [TimerInfo.rename]

@[simp] theorem Payload.rename_rename (p : Payload) : (p.rename π).rename π.symm = p := by
  cases p <;> simp [Payload.rename]

@[simp] theorem Event.rename_rename (e : Event) : (e.rename π).rename π.symm = e := by
  obtain ⟨type, payload⟩ := e
  cases payload <;> simp [Event.rename]

@[simp] theorem Memory.rename_rename (m : Memory) : (m.rename π).rename π.symm = m := by
  obtain ⟨bindings, timer⟩ := m
  cases timer <;> simp [Memory.rename, Function.comp_def]

@[simp] theorem Refusal.rename_rename (r : Refusal) : (r.rename π).rename π.symm = r := by
  cases r <;> simp [Refusal.rename]

@[simp] theorem Failure.rename_rename (f : Failure) : (f.rename π).rename π.symm = f := by
  cases f <;> simp [Failure.rename]

@[simp] theorem Answer.rename_rename (a : Answer) :
    Answer.rename π.symm (Answer.rename π a) = a := by
  cases a <;> simp [Answer.rename]

@[simp] theorem Answer.rename_symm (a : Answer) :
    Answer.rename π (Answer.rename π.symm a) = a := rename_rename π.symm a

@[simp] theorem Occasion.rename_rename (o : Occasion) : (o.rename π).rename π.symm = o := by
  obtain ⟨self, state, event, memory⟩ := o
  cases event <;> simp [Occasion.rename]

end SteeredActors
