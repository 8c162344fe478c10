import SteeredActors.World.Request

/-!
# Steps

One task of one thread is done at a time. A task is replaced by others, or it brings an answer to the
program that waits for one, or it has to wait and nothing happens. A bad answer abandons the tasks
before that program; if there is none, the actor is abandoned. While decisions are explored only the
holder of the turn moves.
-/

set_option autoImplicit false
set_option relaxedAutoImplicit false

namespace SteeredActors

/-- What doing a task comes to. -/
inductive Move (σ : Type) where
  /-- The task has to wait. -/
  | wait
  /-- These tasks stand for it now. -/
  | go (tasks : List Task) (w : World σ)
  /-- The program that waits is answered. -/
  | answer (a : Answer) (w : World σ)

namespace World

variable {σ : Type}

/-- Unwind because of a refusal. -/
def unwind (w : World σ) (r : Refusal) : Move σ := .answer (.error (.runtime r)) w

/-- Unwind because an assertion about an interpreter failed. -/
def unwindAssertion (w : World σ) (c : Core) (message : String) : Move σ :=
  let (r, w) := w.failAssertion (some c.id) message
  w.unwind r

/-- Do something with an interpreter. -/
def withCore (w : World σ) (c : Subject) (f : Core → Move σ) : Move σ :=
  match w.core? c with
  | some core => f core
  | none => .go [] w

/-- Do something with an actor. -/
def withActor (w : World σ) (i : Nat) (f : Actor → Move σ) : Move σ :=
  match w.actors[i]? with
  | some a => f a
  | none => .go [] w

/-- Do something with a monitor. -/
def withMonitor (w : World σ) (m : Nat) (f : Monitor → Move σ) : Move σ :=
  match w.monitors[m]? with
  | some a => f a
  | none => .go [] w

/-- The stack of an interpreter is replaced. -/
def setStack (w : World σ) (c : Subject) (stack : List ActiveState) : World σ :=
  w.modifyCore c fun core => { core with stack }

/-! ## Interpretation -/

/-- The task of running an action, if there is one. -/
def invocation (c : Subject) (event : Option Event) (phase : Phase) : Option Action → List Task
  | some a => [.invoke c a event phase]
  | none => []

/-- The task of running the exit action of the current state. -/
def leaving (c : Subject) (core : Core) (event : Option Event) : List Task :=
  match core.stack with
  | top :: _ => invocation c event .exit top.state.exit
  | [] => []

/-- Put a state on the stack and run its entry action. -/
def pushState (w : World σ) (c : Subject) (core : Core) (s : StateDescriptor)
    (event : Option Event) : Move σ :=
  .go (invocation c event .entry s.entry)
    (w.setStack c (ActiveState.ofState s core.stack.head? :: core.stack))

/-- Put a state on the stack, which has to exist. -/
def enter (w : World σ) (c : Subject) (target : String) (event : Option Event) : Move σ :=
  w.withCore c fun core =>
    match core.descriptor.state? target with
    | some s => w.pushState c core s event
    | none => w.unwindAssertion core s!"{core.label} has no state '{target}'."

/-- The tasks that consume an event. -/
def consumption (c : Subject) (core : Core) (event : Event) : Binding → List Task
  | .goto target transition =>
    leaving c core (some event) ++ invocation c (some event) .exit transition
      ++ [.switch c target (some event)]
  | .push target => [.enter c target (some event)]
  | .action a => [.invoke c a (some event) .action]

/-- The task of settling a rendezvous once its event has been handled. -/
def settlement (c : Subject) (rendezvous : Option Nat) (handled : Bool) : List Task :=
  match c, rendezvous with
  | .actor i, some r => [.settle i r handled]
  | _, _ => []

/-- Let the stack handle an event. With no state left, the reserved event halts, and any other one
is a bug. -/
def handle (w : World σ) (c : Subject) (event : Event) (rendezvous : Option Nat) : Move σ :=
  w.withCore c fun core =>
    match resolveEvent event.type core.stack with
    | .ignored stack => .go (settlement c rendezvous false) (w.setStack c stack)
    | .bound binding stack =>
      .go (consumption c { core with stack } event binding ++ settlement c rendezvous true)
        (w.setStack c stack)
    | .exhausted =>
      let w := w.setStack c []
      if event.type = .halt then .go (settlement c rendezvous false) (w.halt c)
      else (w.report (unhandledReport core event.type)).unwind .canceled

/-- The tasks that do what an action asked for. -/
def obedience (c : Subject) (core : Core) : Demand → List Task
  | .event event => [.handle c event none]
  | .goto target => leaving c core none ++ [.switch c target none]
  | .push target => [.enter c target none]
  | .pop => [.pop c]

/-- Do what is raised and then the given task; without a demand, something else. -/
def obey (w : World σ) (c : Subject) (core : Core) (again : Task) (otherwise : Move σ) : Move σ :=
  match core.raised with
  | none => otherwise
  | some d =>
    .go (obedience c core d ++ [again]) (w.modifyCore c fun core => { core with raised := none })

/-- Leave the current state for the one below. -/
def popState (w : World σ) (c : Subject) : Move σ :=
  w.withCore c fun core =>
    if core.stack.length ≤ 1 then
      w.unwindAssertion core s!"{core.label} popped with no matching push."
    else .go (leaving c core none ++ [.dropTop c]) w

/-- Start the program of an action. -/
def invoke (w : World σ) (c : Subject) (action : Action) (event : Option Event) (phase : Phase) :
    Move σ :=
  w.withCore c fun core =>
    .go [.perform (.action c phase) (action ⟨core.id, core.stateName, event, core.memory⟩)] w

/-! ## The worker of an actor -/

/-- An actor starts to run. The first time it enters its initial state. -/
def wakeActor (w : World σ) (i : Nat) : Move σ :=
  w.withActor i fun a =>
    if a.core.halted then .go [.retire .halt] w
    else
      let (before, mailbox) := a.mailbox.start
      let w := w.modifyActor i fun a => { a with mailbox }
      if before = .uninitialized then
        let w := w.modifyActor i fun a =>
          { a with
            pending := a.pending ++ a.creationRendezvous.toList.map (·, true)
            creationRendezvous := none
            creationEvent := none }
        .go [.start (.actor i) a.creationEvent, .cycle i] w
      else .go [.cycle i] w

/-- An actor has nothing to do: those who waited for it to come to rest get their replies. -/
def comeToRest (w : World σ) (i : Nat) (a : Actor) : Move σ :=
  let w := a.pending.foldl (fun w (r, handled) => w.reply r handled) w
  .go [.pass .yield, .rest i] (w.modifyActor i fun a => { a with pending := [] })

/-- Select the next event of an actor. -/
def selectEvent (w : World σ) (i : Nat) (a : Actor) : Move σ :=
  match a.core.stack with
  | [] => w.comeToRest i a
  | top :: _ =>
    let (selected, discarded, mailbox) := a.mailbox.dequeue (top.verdict w.policy) top.hasDefault
    let w := w.modifyActor i fun a => { a with mailbox }
    match selected with
    | .event envelope =>
      .go [.handle (.actor i) envelope.event envelope.rendezvous, .cycle i] (w.discard discarded)
    | .default =>
      .go [.point .defaultEvent, .handle (.actor i) (.ofType .default) none, .cycle i]
        (w.discard discarded)
    | .idle =>
      let w := { w with controller := w.controller.disable a.operation }
      (w.discard discarded).comeToRest i a

/-- One cycle of an actor: first what it has raised, then the next event. -/
def cycleActor (w : World σ) (i : Nat) : Move σ :=
  if w.isOver then w.unwind .canceled
  else
    w.withActor i fun a =>
      if a.core.halted then .go [.retire .halt] w
      else w.obey (.actor i) a.core (.cycle i) (w.selectEvent i a)

/-! ## Monitors -/

/-- Hand an event to a monitor, unless it drops or defers it. -/
def deliver (w : World σ) (m : Nat) (event : Event) : Move σ :=
  w.withMonitor m fun monitor =>
    if monitor.busy then .wait
    else if monitor.core.halted then .go [] w
    else
      let skipped := match monitor.core.stack with
        | top :: _ => top.ignores event.type || top.defers event.type
        | [] => false
      if skipped then .go [] w
      else
        .go [.handle (.monitor m) event none, .drain m, .defaults m, .release m]
          (w.modifyMonitor m fun monitor => { monitor with busy := true })

/-- Do what a monitor has raised. -/
def drainMonitor (w : World σ) (m : Nat) : Move σ :=
  w.withMonitor m fun monitor =>
    if monitor.core.halted then .go [] w
    else w.obey (.monitor m) monitor.core (.drain m) (.go [] w)

/-- Let a monitor handle the reserved event for as long as its state does. -/
def defaultsOfMonitor (w : World σ) (m : Nat) : Move σ :=
  w.withMonitor m fun monitor =>
    match monitor.core.stack with
    | top :: _ =>
      if !monitor.core.halted && top.hasDefault then
        .go [.handle (.monitor m) (.ofType .default) none, .drain m, .defaults m] w
      else .go [] w
    | [] => .go [] w

/-- Add a monitor to the list and start it. A type is registered once. -/
def install (w : World σ) (descriptor : Descriptor) (id : ActorId) : Move σ :=
  if w.monitorsLocked then .wait
  else
    match w.monitor? descriptor.typeTag with
    | some _ =>
      w.unwind (.invalidOperation s!"Monitor '{descriptor.typeTag}' is already registered")
    | none =>
      let m := w.monitors.length
      let monitor : Monitor := ⟨.new id descriptor, descriptor.subscriptions, .starting, false⟩
      .go [.start (.monitor m) none, .drain m, .defaults m, .enlist m]
        { w with monitors := w.monitors ++ [monitor] }

/-- The current state of the registered monitor of a type. -/
def readMonitor (w : World σ) (typeTag : String) : Move σ :=
  if w.monitorsLocked then .wait
  else
    match w.monitor? typeTag with
    | none => .answer (.ok .null) w
    | some m =>
      w.withMonitor m fun monitor =>
        if monitor.busy then .wait
        else
          .answer (.ok ((monitor.core.stack.head?.map fun s => Value.text s.name).getD .null)) w

/-! ## Sending, waiting and deciding -/

/-- Post an event and begin to wait for its rendezvous. -/
def engage (w : World σ) (caller : Option Nat) (i : Nat) (event : Event) : Move σ :=
  let (r, w) := w.openRendezvous caller
  let w := (w.blockCaller caller).enqueue i ⟨event, some r⟩
  .go (if w.explores then [.pass .rendezvous, .turn, .collect r] else [.await r, .collect r]) w

/-- Whether a rendezvous was handled; without a reply it counts as not handled. -/
def collected (w : World σ) (r : Nat) : Bool := (w.rendezvous[r]?.bind (·.reply)).getD false

/-- Wait for the reply of a rendezvous or the end of the run. -/
def awaitReply (w : World σ) (r : Nat) : Move σ :=
  match w.rendezvous[r]?.bind (·.reply) with
  | some _ => .go [] w
  | none => if w.isOver then w.unwind .canceled else .wait

/-- Go on if a call that may have to wait passes. -/
def follow (w : World σ) (p : Passage) (tasks : List Task) : Move σ :=
  match p with
  | .passed => .go tasks w
  | .waits => .wait
  | .canceled => w.unwind .canceled

/-- The status of the actor with an identity. -/
def statusOf? (w : World σ) (id : ActorId) : Option ActorStatus :=
  (w.actor? id).bind fun i => w.actors[i]?.map (·.mailbox.status)

/-! ## Programs -/

/-- The end of an action. A failure or panic is reported, unless the run has ended or the failure
is the runtime's own signal. -/
def finishAction (w : World σ) (c : Subject) (memory : Memory) (ending : Ending) : Move σ :=
  let w := w.modifyCore c fun core => { core with memory }
  let reported (text : String) : Move σ :=
    if w.isOver then w.unwind .canceled
    else w.withCore c fun core => (w.report (faultReport core text)).unwind .canceled
  match ending with
  | .ok => .go [] w
  | .failed failure =>
    if failure.isTermination then w.unwind .canceled else reported failure.message
  | .panicked message => reported (Ending.panicText message)

/-- The end of the test. While decisions are explored a failure or panic is reported like that of an
action. -/
def finishTest (w : World σ) (memory : Memory) (ending : Ending) : Move σ :=
  let w := { w with test := { w.test with memory, ending := some ending } }
  let reported (text : String) : World σ :=
    if w.isOver || !w.explores then w else w.report (testFaultReport text)
  let w := match ending with
    | .ok => w
    | .failed failure => if failure.isTermination then w else reported failure.chain
    | .panicked message => reported (Ending.panicText message)
  .go [.retire .yield] w

/-- The end of a firing. A periodic timer goes back to sleep unless the firing failed. -/
def finishFiring (w : World σ) (j : Nat) (ending : Ending) : Move σ :=
  match w.sleepers[j]?, ending with
  | some s, .ok =>
    if s.info.periodic then
      .go [.sleep j] (w.modifySleeper j fun s => { s with due := w.clock + s.info.period })
    else .go [] w
  | _, _ => .go [] w

/-- Sleep until the period is over, and fire. -/
def sleep (w : World σ) (j : Nat) : Move σ :=
  match w.sleepers[j]? with
  | none => .go [] w
  | some s =>
    if s.stopped || w.isOver then .go [] w
    else if w.clock < s.due then .wait
    else .go [.perform (.sleeper j) (Timer.fire s.info)] w

variable [Strategy σ]

/-- Go on with a program. -/
def perform (w : World σ) (t : ThreadId) (speaker : Speaker) : Program → Move σ
  | .finish memory ending =>
    match speaker with
    | .action c _ => w.finishAction c memory ending
    | .test => w.finishTest memory ending
    | .sleeper j => w.finishFiring j ending
  | .ask voice request next =>
    match w.thread? t with
    | none => .go [] w
    | some thread =>
      let outside := thread.outside || voice == .outsider
      let shared := match request with
        | .access _ _ _ => true
        | _ => false
      let caller := if outside then none else w.operation? t
      match w.serve caller speaker voice request with
      | .now a w => .go [.perform speaker (next a)] w
      | .later tasks w =>
        .go (tasks ++ [.resume speaker thread.outside shared next])
          (w.setThread t { thread with outside })

/-! ## Tasks -/

/-- Do one task of a thread. -/
def exec (w : World σ) (t : ThreadId) : Task → Move σ
  | .firstTurn i =>
    w.withActor i fun a =>
      match w.controller.waitForTurn a.operation with
      | .passed => .go [.wake i] w
      | .waits => .wait
      | .canceled => .go [] (w.abandon i)
  | .wake i => w.wakeActor i
  | .cycle i => w.cycleActor i
  | .rest i =>
    w.withActor i fun a =>
      match w.controller.passage a.operation with
      | .passed => .go [.wake i] w
      | .waits => .wait
      | .canceled => .go [] (w.abandon i)
  | .retire kind =>
    match w.operation? t with
    | some op => .go [] { w with controller := w.controller.complete op kind }
    | none => .go [] w
  | .start c event =>
    w.withCore c fun core => w.pushState c core core.descriptor.initial event
  | .handle c event rendezvous => w.handle c event rendezvous
  | .settle i r handled =>
    w.withActor i fun a =>
      .go [] (if a.core.halted then w.reply r false
        else w.modifyActor i fun a => { a with pending := a.pending ++ [(r, handled)] })
  | .invoke c action event phase => w.invoke c action event phase
  | .switch c target event =>
    w.withCore c fun core =>
      if core.halted then .go [] w
      else .go [.enter c target event] (w.setStack c core.stack.tail)
  | .enter c target event => w.enter c target event
  | .pop c => w.popState c
  | .dropTop c => w.withCore c fun core => .go [] (w.setStack c core.stack.tail)
  | .forward event =>
    if w.monitorsLocked then .wait
    else .go ((w.observers event.type).map (.deliver · event)) w
  | .notify typeTag event =>
    if w.monitorsLocked then .wait
    else
      match w.monitor? typeTag with
      | some m => .go [.deliver m event] w
      | none => w.unwind (.unknownMonitor typeTag)
  | .deliver m event => w.deliver m event
  | .drain m => w.drainMonitor m
  | .defaults m => w.defaultsOfMonitor m
  | .release m => .go [] (w.modifyMonitor m fun monitor => { monitor with busy := false })
  | .install descriptor id => w.install descriptor id
  | .enlist m => .go [] (w.modifyMonitor m fun monitor => { monitor with stage := .listed })
  | .listMonitors =>
    if w.monitorsLocked then .wait
    else
      let listed := w.monitors.filter (·.stage == .listed)
      .answer (.ok (.list (listed.map fun m => .text m.core.descriptor.typeTag))) w
  | .readMonitor typeTag => w.readMonitor typeTag
  | .post i event => .go [] (w.enqueue i ⟨event, none⟩)
  | .engage i event => w.engage (w.caller? t) i event
  | .collect r => .answer (.ok (.bool (w.collected r))) w
  | .await r => w.awaitReply r
  | .point kind =>
    if w.isOver then w.unwind .canceled
    else if !w.explores then .go [] w
    else
      match w.ensureKnown (w.caller? t) with
      | .error r => w.unwind r
      | .ok _ => .go [.pass kind, .turn] w
  | .pass kind =>
    match w.caller? t with
    | some op => .go [] { w with controller := (w.controller.schedule op kind).2 }
    | none => .go [] w
  | .turn =>
    match w.caller? t with
    | some op => w.follow (w.controller.passage op) []
    | none => .go [] w
  | .touch object operation =>
    match w.objects[object]? with
    | some o =>
      let (a, o) := operation.apply w.objects o
      .answer a { w with objects := w.objects.set object o }
    | none => .answer (.error SharedOperation.unsupported) w
  | .answer v => .answer (.ok v) w
  | .awaitHalted id =>
    if w.isOver then w.unwind .canceled
    else if w.statusOf? id = some .halted then .go [] w else .wait
  | .awaitQuiescence => w.follow w.controller.quiescence []
  | .sleep j => w.sleep j
  | .perform speaker program => w.perform t speaker program
  | .resume speaker outside _ next =>
    match w.thread? t with
    | some thread =>
      .go [.perform speaker (next (.ok .null))] (w.setThread t { thread with outside })
    | none => .go [] w

/-! ## Threads -/

/-- The answer as it reaches a program: a refused access to a shared object is a failure of its own
kind. -/
def adaptAnswer (shared : Bool) : Answer → Answer
  | .error (.runtime r) => .error (if shared then .access r else .runtime r)
  | a => a

/-- Bring an answer to the first of the tasks that waits for one. Those before it are abandoned, and
so is the actor if there is none. -/
def deliverAnswer (w : World σ) (t : ThreadId) (a : Answer) : List Task → World σ
  | [] =>
    match t with
    | .actor i => (w.abandon i).setThread t ⟨[.retire .yield], false⟩
    | t => w.setThread t ⟨[], false⟩
  | .resume speaker outside shared next :: rest =>
    w.setThread t ⟨.perform speaker (next (adaptAnswer shared a)) :: rest, outside⟩
  | .release m :: rest =>
    deliverAnswer (w.modifyMonitor m fun monitor => { monitor with busy := false }) t a rest
  | .enlist m :: rest =>
    deliverAnswer (w.modifyMonitor m fun monitor => { monitor with stage := .dropped }) t a rest
  | _ :: rest => deliverAnswer w t a rest

/-- Let a thread do its next task. Nothing comes of it if the thread is done or has to wait. -/
def stepThread? (w : World σ) (t : ThreadId) : Option (World σ) :=
  match w.thread? t with
  | none | some ⟨[], _⟩ => none
  | some ⟨task :: rest, _⟩ =>
    match w.exec t task with
    | .wait => none
    | .go tasks w =>
      match w.thread? t with
      | some thread => some (w.setThread t { thread with tasks := tasks ++ rest })
      | none => none
    | .answer a w => some (w.deliverAnswer t a rest)

/-- All threads, in the order in which they may move when several can. -/
def threads (w : World σ) : List ThreadId :=
  .driver :: (List.range w.actors.length).map .actor
    ++ (List.range w.sleepers.length).map .sleeper

/-- The thread of an operation. -/
def threadOf (op : Nat) : ThreadId :=
  match op with
  | 0 => .driver
  | i + 1 => .actor i

/-- The test waits for an actor to halt. -/
def testAwaitsHalt (w : World σ) : Bool :=
  match w.test.thread.tasks with
  | .awaitHalted _ :: _ => true
  | _ => false

/-- Let time pass until the next sleeper wakes, if the test waits for an actor to halt. -/
def passTime? (w : World σ) : Option (World σ) :=
  if w.testAwaitsHalt then
    match (w.sleepers.filterMap fun s =>
        if s.thread.tasks.isEmpty || s.stopped || s.due ≤ w.clock then none else some s.due).min? with
    | some clock => some { w with clock }
    | none => none
  else none

/-- One step of the world: by the holder of the turn while a run is explored, and otherwise by the
first thread that can move. -/
def step? (w : World σ) : Option (World σ) :=
  if w.explores && !w.isOver then w.stepThread? (threadOf w.controller.scheduled)
  else
    match w.threads.findSome? w.stepThread? with
    | some w => some w
    | none => if w.isOver then none else w.passTime?

/-- Step until nothing moves, at most a number of times. -/
def run : Nat → World σ → World σ
  | 0, w => w
  | n + 1, w =>
    match w.step? with
    | some w => run n w
    | none => w

end World

end SteeredActors
