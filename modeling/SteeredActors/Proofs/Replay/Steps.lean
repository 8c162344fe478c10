import SteeredActors.Proofs.Replay.Requests
import SteeredActors.Proofs.World.Reached

/-!
# Steps of a replayed world

Every step of a replayed world is the replay of a step of the first one, as long as the first one
follows the trace and shows no identity.
-/

set_option autoImplicit false
set_option relaxedAutoImplicit false

namespace SteeredActors

variable {σ : Type} (π : Equiv.Perm Nat) (T : Trace)

/-- Doing the task shows no identity. -/
def Task.Discreet (objects : List SharedObject) : Task → Prop
  | .perform _ (.ask _ request _) => request.Discreet objects
  | .touch object operation => ∀ o ∈ objects[object]?, operation.Discreet o
  | _ => True

/-- A controller from which one comes that is along a trace is itself along it. -/
theorem Controller.Along.before [Strategy σ] {T : Trace} {c d : Controller σ} (steers : c.Steers d)
    (along : d.Along T) : c.Along T where
  trace := (List.reverse_prefix.2 steers.recorded).trans along.trace
  steady reason diverged := by
    have ended := (steers.final (by simp [Controller.isOver, diverged])).1
    exact along.steady reason (ended.trans diverged)

namespace World

variable (w : World σ)

theorem unwindAssertion_replayed (core : Core) (message : String) :
    (w.replayed π T).unwindAssertion (core.rename π) message =
      (w.unwindAssertion core message).replayed π T := by
  have failed := failAssertion_replayed π T w (some core.id) message
  exact congrArg (fun x => x.2.unwind x.1) failed

theorem withCore_replayed (c : Subject) {f : Core → Move σ} {f' : Core → Move ReplayStrategy}
    (same : ∀ core, f' (core.rename π) = (f core).replayed π T) :
    (w.replayed π T).withCore c f' = (w.withCore c f).replayed π T := by
  unfold withCore
  rw [core?_replayed]
  cases w.core? c with
  | none => rfl
  | some core => exact same core

theorem withActor_replayed (i : Nat) {f : Actor → Move σ} {f' : Actor → Move ReplayStrategy}
    (same : ∀ a, f' (a.rename π) = (f a).replayed π T) :
    (w.replayed π T).withActor i f' = (w.withActor i f).replayed π T := by
  unfold withActor
  rw [actors_replayed]
  cases w.actors[i]? with
  | none => rfl
  | some a => exact same a

theorem withMonitor_replayed (m : Nat) {f : Monitor → Move σ}
    {f' : Monitor → Move ReplayStrategy} (same : ∀ a, f' (a.rename π) = (f a).replayed π T) :
    (w.replayed π T).withMonitor m f' = (w.withMonitor m f).replayed π T := by
  unfold withMonitor
  rw [monitors_replayed]
  cases w.monitors[m]? with
  | none => rfl
  | some a => exact same a

theorem setStack_replayed (c : Subject) (stack : List ActiveState) :
    (w.replayed π T).setStack c (stack.map (ActiveState.rename π)) =
      (w.setStack c stack).replayed π T :=
  modifyCore_replayed π T w c fun _ => rfl

theorem setStack_tail_replayed (c : Subject) (core : Core) :
    (w.replayed π T).setStack c (core.rename π).stack.tail =
      (w.setStack c core.stack.tail).replayed π T := by
  rw [← setStack_replayed, List.map_tail]
  rfl

/-! ## Interpretation -/

theorem invocation_rename (c : Subject) (event : Option Event) (phase : Phase)
    (action : Option Action) :
    invocation c (event.map (Event.rename π)) phase (action.map (Action.rename π)) =
      (invocation c event phase action).map (Task.rename π) := by
  cases action <;> rfl

theorem leaving_rename (c : Subject) (core : Core) (event : Option Event) :
    leaving c (core.rename π) (event.map (Event.rename π)) =
      (leaving c core event).map (Task.rename π) := by
  unfold leaving
  rw [show (core.rename π).stack = core.stack.map (ActiveState.rename π) from rfl]
  cases core.stack with
  | nil => rfl
  | cons top rest => exact invocation_rename π c event .exit top.state.exit

theorem pushState_replayed (c : Subject) (core : Core) (s : StateDescriptor)
    (event : Option Event) :
    (w.replayed π T).pushState c (core.rename π) (s.rename π) (event.map (Event.rename π)) =
      (w.pushState c core s event).replayed π T := by
  unfold pushState
  have stack :
      ActiveState.ofState (s.rename π) (core.rename π).stack.head? :: (core.rename π).stack =
      (ActiveState.ofState s core.stack.head? :: core.stack).map (ActiveState.rename π) := by
    rw [List.map_cons, ← ActiveState.ofState_rename, ← List.head?_map]
    rfl
  rw [stack, setStack_replayed, show (s.rename π).entry = s.entry.map (Action.rename π) from rfl,
    invocation_rename]
  rfl

theorem enter_replayed (c : Subject) (target : String) (event : Option Event) :
    (w.replayed π T).enter c target (event.map (Event.rename π)) =
      (w.enter c target event).replayed π T := by
  refine withCore_replayed π T w c fun core => ?_
  rw [show (core.rename π).descriptor = core.descriptor.rename π from rfl, Descriptor.state?_rename]
  cases core.descriptor.state? target with
  | none => exact unwindAssertion_replayed π T w core _
  | some s => exact pushState_replayed π T w c core s event

theorem consumption_rename (c : Subject) (core : Core) (event : Event) (binding : Binding) :
    consumption c (core.rename π) (event.rename π) (binding.rename π) =
      (consumption c core event binding).map (Task.rename π) := by
  cases binding with
  | goto target transition =>
    have left := leaving_rename π c core (some event)
    have ran := invocation_rename π c (some event) .exit transition
    simp only [Option.map_some] at left ran
    simp only [consumption, Binding.rename, left, ran, List.map_append]
    rfl
  | push | action => rfl

theorem settlement_rename (c : Subject) (rendezvous : Option Nat) (handled : Bool) :
    (settlement c rendezvous handled).map (Task.rename π) = settlement c rendezvous handled := by
  cases c <;> cases rendezvous <;> rfl

theorem handle_replayed (c : Subject) (event : Event) (rendezvous : Option Nat) :
    (w.replayed π T).handle c (event.rename π) rendezvous =
      (w.handle c event rendezvous).replayed π T := by
  refine withCore_replayed π T w c fun core => ?_
  rw [Event.type_rename, show (core.rename π).stack = core.stack.map (ActiveState.rename π) from rfl,
    resolveEvent_rename]
  cases resolveEvent event.type core.stack with
  | ignored stack =>
    simp only [Resolution.rename, setStack_replayed, Move.replayed, settlement_rename]
  | bound binding stack =>
    have consumed := consumption_rename π c { core with stack } event binding
    simp only [Resolution.rename, setStack_replayed, Move.replayed, List.map_append,
      settlement_rename, ← consumed]
    rfl
  | exhausted =>
    have emptied := setStack_replayed π T w c []
    rw [List.map_nil] at emptied
    simp only [Resolution.rename, emptied]
    split
    · simp only [halt_replayed, Move.replayed, settlement_rename]
    · exact congrArg (·.unwind .canceled)
        (report_replayed π T (w.setStack c []) (unhandledReport core event.type))

theorem obedience_rename (c : Subject) (core : Core) (d : Demand) :
    obedience c (core.rename π) (d.rename π) = (obedience c core d).map (Task.rename π) := by
  cases d with
  | goto target =>
    have left := leaving_rename π c core none
    rw [Option.map_none] at left
    simp only [obedience, Demand.rename, left, List.map_append]
    rfl
  | event | push | pop => rfl

theorem obey_replayed (c : Subject) (core : Core) {again again' : Task}
    (task : again' = again.rename π) {otherwise : Move σ} {otherwise' : Move ReplayStrategy}
    (same : otherwise' = otherwise.replayed π T) :
    (w.replayed π T).obey c (core.rename π) again' otherwise' =
      (w.obey c core again otherwise).replayed π T := by
  unfold obey
  rw [show (core.rename π).raised = core.raised.map (Demand.rename π) from rfl]
  cases core.raised with
  | none => exact same
  | some d =>
    simp only [Option.map_some, obedience_rename, task]
    rw [modifyCore_replayed π T w c (f := fun core => { core with raised := none }) fun _ => rfl]
    simp only [Move.replayed, List.map_append]
    rfl

theorem popState_replayed (c : Subject) :
    (w.replayed π T).popState c = (w.popState c).replayed π T := by
  refine withCore_replayed π T w c fun core => ?_
  rw [show (core.rename π).stack.length = core.stack.length from List.length_map _]
  split
  · exact unwindAssertion_replayed π T w core _
  · have left := leaving_rename π c core none
    rw [Option.map_none] at left
    simp only [left, Move.replayed, List.map_append]
    rfl

@[simp] theorem stateName_rename (core : Core) : (core.rename π).stateName = core.stateName := by
  unfold Core.stateName
  rw [show (core.rename π).stack = core.stack.map (ActiveState.rename π) from rfl]
  cases core.stack <;> rfl

theorem invoke_replayed (c : Subject) (action : Action) (event : Option Event) (phase : Phase) :
    (w.replayed π T).invoke c (Action.rename π action) (event.map (Event.rename π)) phase =
      (w.invoke c action event phase).replayed π T := by
  refine withCore_replayed π T w c fun core => ?_
  have ran := Action.rename_apply π action ⟨core.id, core.stateName, event, core.memory⟩
  rw [stateName_rename]
  exact congrArg (fun program => Move.go [.perform (.action c phase) program] (w.replayed π T)) ran

/-! ## The worker of an actor -/

theorem wakeActor_replayed (i : Nat) :
    (w.replayed π T).wakeActor i = (w.wakeActor i).replayed π T := by
  refine withActor_replayed π T w i fun a => ?_
  rw [show (a.rename π).core.halted = a.core.halted from rfl]
  split
  · rfl
  · simp only [show (a.rename π).mailbox = a.mailbox.rename π from rfl, Mailbox.start_rename]
    rw [modifyActor_replayed π T w i (f := fun b => { b with mailbox := a.mailbox.start.2 })
      fun _ => rfl]
    split
    · rw [modifyActor_replayed π T _ i (f := fun a => { a with
        pending := a.pending ++ a.creationRendezvous.toList.map (·, true)
        creationRendezvous := none
        creationEvent := none }) fun _ => rfl]
      rfl
    · rfl

theorem comeToRest_replayed (i : Nat) (a : Actor) :
    (w.replayed π T).comeToRest i (a.rename π) = (w.comeToRest i a).replayed π T := by
  unfold comeToRest
  dsimp only
  rw [show (a.rename π).pending = a.pending from rfl, replyEach_replayed,
    modifyActor_replayed π T _ i (f := fun a => { a with pending := [] }) fun _ => rfl]
  rfl

theorem selectEvent_replayed (i : Nat) (a : Actor) :
    (w.replayed π T).selectEvent i (a.rename π) = (w.selectEvent i a).replayed π T := by
  unfold selectEvent
  rw [show (a.rename π).core.stack = a.core.stack.map (ActiveState.rename π) from rfl]
  cases a.core.stack with
  | nil => exact comeToRest_replayed π T w i a
  | cons top rest =>
    simp only [List.map_cons, ActiveState.verdict_rename, ActiveState.hasDefault_rename,
      show (a.rename π).mailbox = a.mailbox.rename π from rfl, Mailbox.dequeue_rename,
      show (w.replayed π T).policy = w.policy from rfl]
    cases a.mailbox.dequeue (top.verdict w.policy) top.hasDefault with
    | mk selected rest =>
      obtain ⟨discarded, mailbox⟩ := rest
      have taken :
          (w.replayed π T).modifyActor i (fun b => { b with mailbox := mailbox.rename π }) =
          (w.modifyActor i fun b => { b with mailbox }).replayed π T :=
        modifyActor_replayed π T w i fun _ => rfl
      cases selected with
      | event envelope =>
        simp only [Selected.rename, taken, discard_replayed]
        rfl
      | default =>
        simp only [Selected.rename, taken, discard_replayed]
        rfl
      | idle =>
        simp only [Selected.rename, taken]
        rw [← comeToRest_replayed, ← discard_replayed]
        rfl

theorem cycleActor_replayed (i : Nat) :
    (w.replayed π T).cycleActor i = (w.cycleActor i).replayed π T := by
  unfold cycleActor
  rw [isOver_replayed]
  split
  · rfl
  · refine withActor_replayed π T w i fun a => ?_
    rw [show (a.rename π).core.halted = a.core.halted from rfl]
    split
    · rfl
    · exact obey_replayed π T w (.actor i) a.core (rfl : .cycle i = Task.rename π (.cycle i))
        (selectEvent_replayed π T w i a)

/-! ## Monitors -/

theorem deliver_replayed (m : Nat) (event : Event) :
    (w.replayed π T).deliver m (event.rename π) = (w.deliver m event).replayed π T := by
  refine withMonitor_replayed π T w m fun monitor => ?_
  rw [show (monitor.rename π).busy = monitor.busy from rfl,
    show (monitor.rename π).core.halted = monitor.core.halted from rfl,
    show (monitor.rename π).core.stack = monitor.core.stack.map (ActiveState.rename π) from rfl,
    modifyMonitor_replayed π T w m (f := fun monitor => { monitor with busy := true }) fun _ => rfl]
  split
  · rfl
  · split
    · rfl
    · cases monitor.core.stack with
      | nil => rfl
      | cons top rest =>
        simp only [List.map_cons, ActiveState.ignores_rename, ActiveState.defers_rename,
          Event.type_rename]
        split <;> rfl

theorem drainMonitor_replayed (m : Nat) :
    (w.replayed π T).drainMonitor m = (w.drainMonitor m).replayed π T := by
  refine withMonitor_replayed π T w m fun monitor => ?_
  rw [show (monitor.rename π).core.halted = monitor.core.halted from rfl]
  split
  · rfl
  · exact obey_replayed π T w (.monitor m) monitor.core (rfl : .drain m = Task.rename π (.drain m))
      (rfl : .go [] (w.replayed π T) = Move.replayed π T (.go [] w))

theorem defaultsOfMonitor_replayed (m : Nat) :
    (w.replayed π T).defaultsOfMonitor m = (w.defaultsOfMonitor m).replayed π T := by
  refine withMonitor_replayed π T w m fun monitor => ?_
  rw [show (monitor.rename π).core.stack = monitor.core.stack.map (ActiveState.rename π) from rfl,
    show (monitor.rename π).core.halted = monitor.core.halted from rfl]
  cases monitor.core.stack with
  | nil => rfl
  | cons top rest =>
    simp only [List.map_cons, ActiveState.hasDefault_rename]
    split <;> rfl

theorem install_replayed (descriptor : Descriptor) (id : ActorId) :
    (w.replayed π T).install (descriptor.rename π) (id.rename π) =
      (w.install descriptor id).replayed π T := by
  unfold install
  rw [monitorsLocked_replayed, show (descriptor.rename π).typeTag = descriptor.typeTag from rfl,
    monitor?_replayed, Descriptor.subscriptions_rename]
  split
  · rfl
  · cases w.monitor? descriptor.typeTag with
    | some m => rfl
    | none =>
      simp only [replayed, Move.replayed, List.map_append, List.map_cons, List.map_nil,
        List.length_map]
      rfl

theorem readMonitor_replayed (typeTag : String) :
    (w.replayed π T).readMonitor typeTag = (w.readMonitor typeTag).replayed π T := by
  unfold readMonitor
  rw [monitorsLocked_replayed, monitor?_replayed]
  split
  · rfl
  · cases w.monitor? typeTag with
    | none => rfl
    | some m =>
      refine withMonitor_replayed π T w m fun monitor => ?_
      rw [show (monitor.rename π).busy = monitor.busy from rfl,
        show (monitor.rename π).core.stack = monitor.core.stack.map (ActiveState.rename π) from rfl]
      split
      · rfl
      · cases monitor.core.stack <;> rfl

/-! ## Sending, waiting and deciding -/

theorem engage_replayed (caller : Option Nat) (i : Nat) (event : Event) :
    (w.replayed π T).engage caller i (event.rename π) = (w.engage caller i event).replayed π T := by
  unfold engage
  rw [openRendezvous_replayed]
  dsimp only
  rw [blockCaller_replayed, show (⟨event.rename π, some (w.openRendezvous caller).1⟩ : Envelope) =
    Envelope.rename π ⟨event, some (w.openRendezvous caller).1⟩ from rfl, enqueue_replayed,
    explores_replayed]
  cases explores : (((w.openRendezvous caller).2.blockCaller caller).enqueue i
    ⟨event, some (w.openRendezvous caller).1⟩).explores <;> rfl

theorem awaitReply_replayed (r : Nat) :
    (w.replayed π T).awaitReply r = (w.awaitReply r).replayed π T := by
  unfold awaitReply
  rw [isOver_replayed, show (w.replayed π T).rendezvous = w.rendezvous from rfl]
  cases w.rendezvous[r]?.bind (·.reply) with
  | some _ => rfl
  | none =>
    simp only
    split <;> rfl

theorem follow_replayed (p : Passage) :
    (w.replayed π T).follow p [] = (w.follow p []).replayed π T := by
  cases p <;> rfl

theorem statusOf?_replayed (id : ActorId) :
    (w.replayed π T).statusOf? (id.rename π) = w.statusOf? id := by
  unfold statusOf?
  rw [actor?_replayed]
  cases w.actor? id with
  | none => rfl
  | some i =>
    simp only [Option.bind_some, actors_replayed, Option.map_map]
    rfl

/-! ## Programs -/

theorem finishAction_replayed (c : Subject) (memory : Memory) (ending : Ending) :
    (w.replayed π T).finishAction c (memory.rename π) (ending.rename π) =
      (w.finishAction c memory ending).replayed π T := by
  unfold finishAction
  dsimp only
  rw [modifyCore_replayed π T w c (f := fun core => { core with memory }) fun _ => rfl]
  generalize w.modifyCore c (fun core => { core with memory }) = w
  have reported : ∀ text : String,
      (if (w.replayed π T).isOver then (w.replayed π T).unwind .canceled
        else (w.replayed π T).withCore c fun core =>
          ((w.replayed π T).report (faultReport core text)).unwind .canceled) =
      (if w.isOver then w.unwind .canceled
        else w.withCore c fun core => (w.report (faultReport core text)).unwind .canceled).replayed
          π T := by
    intro text
    rw [isOver_replayed]
    split
    · rfl
    · refine withCore_replayed π T w c fun core => ?_
      have told : faultReport (core.rename π) text = (faultReport core text).rename π := by
        simp only [faultReport, stateName_rename]
        rfl
      rw [told, report_replayed]
      rfl
  cases ending with
  | ok => rfl
  | failed failure =>
    simp only [Ending.rename, Failure.isTermination_rename, Failure.message_rename, reported]
    split <;> rfl
  | panicked message => exact reported _

theorem finishTest_replayed (memory : Memory) (ending : Ending) :
    (w.replayed π T).finishTest (memory.rename π) (ending.rename π) =
      (w.finishTest memory ending).replayed π T := by
  unfold finishTest
  dsimp only
  generalize kept : ({ w with test := { w.test with memory, ending := some ending } } : World σ) = w₁
  rw [show ({ w.replayed π T with test := { (w.replayed π T).test with
      memory := memory.rename π, ending := some (ending.rename π) } } : World ReplayStrategy) =
    w₁.replayed π T from by rw [← kept]; rfl]
  have reported : ∀ text : String,
      (if (w₁.replayed π T).isOver || !(w₁.replayed π T).explores then w₁.replayed π T
        else (w₁.replayed π T).report (testFaultReport text)) =
      (if w₁.isOver || !w₁.explores then w₁ else w₁.report (testFaultReport text)).replayed
        π T := by
    intro text
    rw [isOver_replayed, explores_replayed]
    split
    · rfl
    · exact report_replayed π T w₁ (testFaultReport text)
  cases ending with
  | ok => rfl
  | failed failure =>
    simp only [Ending.rename, Failure.isTermination_rename, Failure.chain_rename, reported]
    split <;> rfl
  | panicked message => exact congrArg (Move.go [.retire .yield]) (reported _)

theorem finishFiring_replayed (j : Nat) (ending : Ending) :
    (w.replayed π T).finishFiring j (ending.rename π) = (w.finishFiring j ending).replayed π T := by
  unfold finishFiring
  rw [sleepers_replayed]
  cases w.sleepers[j]? with
  | none => rfl
  | some s =>
    cases ending with
    | failed | panicked => rfl
    | ok =>
      simp only [Option.map_some, Ending.rename, Sleeper.rename, TimerInfo.rename]
      rw [modifySleeper_replayed π T w j (f := fun b => { b with due := w.clock + b.info.period })
        fun _ => rfl]
      split <;> rfl

theorem sleep_replayed (j : Nat) : (w.replayed π T).sleep j = (w.sleep j).replayed π T := by
  unfold sleep
  rw [sleepers_replayed, isOver_replayed]
  cases w.sleepers[j]? with
  | none => rfl
  | some s =>
    simp only [Option.map_some, show (s.rename π).info = s.info.rename π from rfl,
      show (s.rename π).stopped = s.stopped from rfl, show (s.rename π).due = s.due from rfl,
      ← Timer.fire_rename, show (w.replayed π T).clock = w.clock from rfl]
    split
    · rfl
    · split <;> rfl

variable [Strategy σ]

variable {π T w}

theorem perform_replayed (native : w.Native) (bounded : w.InRange) {t : ThreadId}
    {speaker : Speaker} {program : Program}
    (room : ∀ voice request next, program = .ask voice request next → w.ids.counter < maxWord)
    (discreet : Task.Discreet w.objects (.perform speaker program))
    (along : (w.perform t speaker program).All fun w => w.controller.Along T) :
    (w.replayed π T).perform t speaker (program.rename π) =
      (w.perform t speaker program).replayed π T := by
  cases program with
  | finish memory ending =>
    cases speaker with
    | action c phase => exact finishAction_replayed π T w c memory ending
    | test => exact finishTest_replayed π T w memory ending
    | sleeper j => exact finishFiring_replayed π T w j ending
  | ask voice request next =>
    simp only [Program.rename, perform, thread?_replayed] at along ⊢
    cases found : w.thread? t with
    | none => rfl
    | some thread =>
      have known : (if (thread.rename π).outside || voice == .outsider then none
          else (w.replayed π T).operation? t) =
          if thread.outside || voice == .outsider then none else w.operation? t := by
        rw [operation?_replayed]
        rfl
      simp only [found, Option.map_some, known] at along ⊢
      generalize (if thread.outside || voice == .outsider then none else w.operation? t) = caller
        at along ⊢
      have goesOn : (w.serve caller speaker voice request).All fun w => w.controller.Along T := by
        cases served : w.serve caller speaker voice request with
        | now a w₁ => simpa [served] using along
        | later tasks w₁ => simpa [served] using along
      rw [serve_replayed native bounded (room voice request next rfl) caller speaker voice discreet
        goesOn]
      cases w.serve caller speaker voice request with
      | now a w₁ => simp only [Service.replayed, Move.replayed, Answer.rename_rename]; rfl
      | later tasks w₁ =>
        have turned := setThread_replayed π T w₁ t
          { thread with outside := thread.outside || voice == .outsider }
        simp only [Service.replayed, Move.replayed, List.map_append, ← turned]
        cases request <;> rfl

/-- A task is done in a replayed world as before. -/
theorem exec_replayed (native : w.Native) (bounded : w.InRange) {t : ThreadId} {x : Task}
    (room : ∀ speaker voice request next, x = .perform speaker (.ask voice request next) →
      w.ids.counter < maxWord)
    (discreet : x.Discreet w.objects) (along : (w.exec t x).All fun w => w.controller.Along T) :
    (w.replayed π T).exec t (x.rename π) = (w.exec t x).replayed π T := by
  cases x <;> simp only [Task.rename, exec] at along ⊢
  case firstTurn i =>
    refine withActor_replayed π T w i fun a => ?_
    rw [show (w.replayed π T).controller.waitForTurn (a.rename π).operation =
      w.controller.waitForTurn a.operation from Controller.waitForTurn_replayed π T _ _]
    cases w.controller.waitForTurn a.operation with
    | passed | waits => rfl
    | canceled => exact congrArg (Move.go []) (abandon_replayed π T w i)
  case wake i => exact wakeActor_replayed π T w i
  case cycle i => exact cycleActor_replayed π T w i
  case rest i =>
    refine withActor_replayed π T w i fun a => ?_
    rw [show (w.replayed π T).controller.passage (a.rename π).operation =
      w.controller.passage a.operation from Controller.passage_replayed π T _ _]
    cases w.controller.passage a.operation with
    | passed | waits => rfl
    | canceled => exact congrArg (Move.go []) (abandon_replayed π T w i)
  case retire kind =>
    rw [operation?_replayed]
    cases asks : w.operation? t with
    | none => rfl
    | some op =>
      rw [asks] at along
      exact congrArg (fun controller => Move.go [] { w.replayed π T with controller })
        (Controller.complete_replayed op kind along)
  case start c event =>
    exact withCore_replayed π T w c fun core =>
      pushState_replayed π T w c core core.descriptor.initial event
  case handle c event rendezvous => exact handle_replayed π T w c event rendezvous
  case settle i r handled =>
    refine withActor_replayed π T w i fun a => ?_
    rw [show (a.rename π).core.halted = a.core.halted from rfl]
    rw [reply_replayed, modifyActor_replayed π T w i
      (f := fun a => { a with pending := a.pending ++ [(r, handled)] }) fun _ => rfl]
    split <;> rfl
  case invoke c action event phase => exact invoke_replayed π T w c action event phase
  case switch c target event =>
    refine withCore_replayed π T w c fun core => ?_
    rw [show (core.rename π).halted = core.halted from rfl, setStack_tail_replayed]
    split <;> rfl
  case enter c target event => exact enter_replayed π T w c target event
  case pop c => exact popState_replayed π T w c
  case dropTop c =>
    refine withCore_replayed π T w c fun core => ?_
    rw [setStack_tail_replayed]
    rfl
  case forward event =>
    rw [monitorsLocked_replayed, Event.type_rename, observers_replayed]
    split
    · rfl
    · simp only [Move.replayed, List.map_map]
      rfl
  case notify typeTag event =>
    rw [monitorsLocked_replayed, monitor?_replayed]
    split
    · rfl
    · cases w.monitor? typeTag <;> rfl
  case deliver m event => exact deliver_replayed π T w m event
  case drain m => exact drainMonitor_replayed π T w m
  case defaults m => exact defaultsOfMonitor_replayed π T w m
  case release m =>
    exact congrArg (Move.go []) (modifyMonitor_replayed π T w m fun _ => rfl)
  case install descriptor id => exact install_replayed π T w descriptor id
  case enlist m =>
    exact congrArg (Move.go []) (modifyMonitor_replayed π T w m fun _ => rfl)
  case listMonitors =>
    rw [monitorsLocked_replayed]
    split
    · rfl
    · simp only [Move.replayed, Answer.rename, Value.rename, Value.renameAll_eq_map, List.map_map,
        replayed, List.filter_map]
      rfl
  case readMonitor typeTag => exact readMonitor_replayed π T w typeTag
  case post i event => exact congrArg (Move.go []) (enqueue_replayed π T w i ⟨event, none⟩)
  case engage i event => rw [caller?_replayed]; exact engage_replayed π T w _ i event
  case collect r => rfl
  case await r => exact awaitReply_replayed π T w r
  case point kind =>
    rw [isOver_replayed, explores_replayed, caller?_replayed, ensureKnown_replayed]
    split
    · rfl
    · split
      · rfl
      · cases known : w.ensureKnown (w.caller? t) with
        | error r => exact (congrArg (w.replayed π T).unwind (rename_of_ensureKnown π w known)).symm
        | ok u => rfl
  case pass kind =>
    rw [caller?_replayed]
    cases asks : w.caller? t with
    | none => rfl
    | some op =>
      rw [asks] at along
      exact congrArg (fun x => Move.go [] { w.replayed π T with controller := x.2 })
        (Controller.schedule_replayed op kind along)
  case turn =>
    rw [caller?_replayed]
    cases w.caller? t with
    | none => rfl
    | some op =>
      simp only [show (w.replayed π T).controller.passage op = w.controller.passage op from
        Controller.passage_replayed π T _ _]
      exact follow_replayed π T w _
  case touch object operation =>
    rw [objects_replayed]
    cases there : w.objects[object]? with
    | none => rfl
    | some o =>
      have applied := SharedOperation.apply_rename π w.objects (discreet o there)
      simp only [Option.map_some, applied, Move.replayed, replayed, List.map_set]
  case answer v => rfl
  case awaitHalted id =>
    rw [isOver_replayed, statusOf?_replayed]
    split
    · rfl
    · split <;> rfl
  case awaitQuiescence =>
    rw [show (w.replayed π T).controller.quiescence = w.controller.quiescence from
      Controller.quiescence_replayed π T _]
    exact follow_replayed π T w _
  case sleep j => exact sleep_replayed π T w j
  case perform speaker program =>
    exact perform_replayed native bounded
      (fun voice request next same => room speaker voice request next (same ▸ rfl)) discreet along
  case resume speaker outside shared next =>
    rw [thread?_replayed]
    cases w.thread? t with
    | none => rfl
    | some thread =>
      exact congrArg (Move.go [.perform speaker ((next (.ok .null)).rename π)])
        (setThread_replayed π T w t { thread with outside })

/-! ## Threads -/

omit [Strategy σ] in
theorem deliverAnswer_replayed (w : World σ) (t : ThreadId) (a : Answer) (tasks : List Task) :
    (w.replayed π T).deliverAnswer t (Answer.rename π a) (tasks.map (Task.rename π)) =
      (w.deliverAnswer t a tasks).replayed π T := by
  induction tasks generalizing w with
  | nil =>
    cases t with
    | driver => exact setThread_replayed π T w .driver ⟨[], false⟩
    | sleeper j => exact setThread_replayed π T w (.sleeper j) ⟨[], false⟩
    | actor i =>
      simp only [List.map_nil, deliverAnswer, abandon_replayed]
      exact setThread_replayed π T (w.abandon i) (.actor i) ⟨[.retire .yield], false⟩
  | cons x rest ih =>
    cases x <;> simp only [List.map_cons, Task.rename, deliverAnswer] <;> try exact ih w
    case resume speaker outside shared next =>
      have adapted : adaptAnswer shared (Answer.rename π a) =
          Answer.rename π (adaptAnswer shared a) := by
        unfold adaptAnswer
        rcases a with (r | r | r | r) | v <;> cases shared <;> rfl
      rw [adapted, Answer.rename_rename]
      exact setThread_replayed π T w t
        ⟨.perform speaker (next (adaptAnswer shared a)) :: rest, outside⟩
    case release m =>
      rw [← ih, modifyMonitor_replayed π T w m (f := fun a => { a with busy := false })
        fun _ => rfl]
    case enlist m =>
      rw [← ih, modifyMonitor_replayed π T w m (f := fun a => { a with stage := .dropped })
        fun _ => rfl]

/-- A thread takes the same step in a replayed world, as long as the step follows the trace. -/
theorem stepThread?_replayed {w' : World σ} {t : ThreadId} (native : w.Native) (bounded : w.InRange)
    {x : Task} {rest : List Task} {outside : Bool} (found : w.thread? t = some ⟨x :: rest, outside⟩)
    (room : ∀ speaker voice request next, x = .perform speaker (.ask voice request next) →
      w.ids.counter < maxWord)
    (discreet : x.Discreet w.objects) (moved : w.stepThread? t = some w')
    (along : w'.controller.Along T) :
    (w.replayed π T).stepThread? t = some (w'.replayed π T) := by
  obtain ⟨y, rest', outside', found', steps⟩ := World.of_stepThread? moved
  obtain ⟨⟨rfl, rfl⟩, rfl⟩ : (x = y ∧ rest = rest') ∧ outside = outside' := by
    simpa [found] using found'
  have there : (w.replayed π T).thread? t =
      some ⟨x.rename π :: rest.map (Task.rename π), outside⟩ := by
    rw [thread?_replayed, found]
    rfl
  have executed : (w.exec t x).All (fun w => w.controller.Along T) →
      (w.replayed π T).exec t (x.rename π) = (w.exec t x).replayed π T :=
    exec_replayed native bounded room discreet
  rw [World.stepThread?_cons there]
  rcases steps with ⟨xs, w₁, old, does, kept, rfl⟩ | ⟨a, w₁, does, rfl⟩
  · rw [controller_setThread] at along
    rw [does] at executed
    simp only [executed along, Move.replayed, thread?_replayed, kept, Option.map_some]
    rw [← setThread_replayed]
    simp only [Thread.rename, List.map_append]
  · obtain ⟨w₂, tasks, _, acts, _, same⟩ :=
      (w₁.unwinds_deliverAnswer (S := fun _ => True) t a rest).threads w x
    have before : w₁.controller.Along T := by
      rw [same, controller_setThread] at along
      exact .before acts.controller along
    rw [does] at executed
    simp only [executed before, Move.replayed, deliverAnswer_replayed]

end World

end SteeredActors
