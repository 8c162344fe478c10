import SteeredActors.World.Basic

/-!
# Requests

What a request of a program leads to: an answer at once, or tasks at whose end the answer stands. A
request that is refused changes nothing but what the refusal itself reports. What only actions of
machines may do is refused to monitors before anything else is looked at.
-/

set_option autoImplicit false
set_option relaxedAutoImplicit false

namespace SteeredActors

/-- What a request leads to. -/
inductive Service (σ : Type) where
  | now (answer : Answer) (w : World σ)
  | later (tasks : List Task) (w : World σ)

namespace World

variable {σ : Type}

/-- The answer of a request that was refused. -/
def refuse (w : World σ) (r : Refusal) : Service σ := .now (.error (.runtime r)) w

/-- Tasks, unless there is a reason to refuse. -/
def serveTasks (w : World σ) : Except Refusal (List Task) → Service σ
  | .ok tasks => .later tasks w
  | .error r => w.refuse r

/-- An ended run takes no requests. -/
def ensureRunning (w : World σ) : Except Refusal Unit :=
  if w.isOver then .error .canceled else .ok ()

/-- When decisions are explored, the controller has to know who calls. -/
def ensureKnown (w : World σ) (caller : Option Nat) : Except Refusal Unit :=
  if caller.isNone && w.explores then
    .error (.invalidOperation "called from a thread the controller does not schedule")
  else .ok ()

/-- Monitors may not act on the run. -/
def ensureMachine (core : Option Core) (what : String) : Except Refusal Unit :=
  match core with
  | some c =>
    match c.descriptor.kind with
    | .monitor => .error (.invalidOperation s!"{c.label} can not {what}")
    | .machine => .ok ()
  | none => .ok ()

/-- The action in whose name a request is made. -/
def context? (w : World σ) (speaker : Speaker) (voice : Voice) : Option (Subject × Phase × Core) :=
  match voice, speaker with
  | .own, .action c phase => (w.core? c).map (c, phase, ·)
  | _, _ => none

/-- How the journal calls whoever makes a request. -/
def nameOf (w : World σ) (speaker : Speaker) (voice : Voice) : String :=
  match w.context? speaker voice with
  | some (_, _, core) => core.id.name
  | none => "driver"

/-- An actor that has to exist. -/
def findActor (w : World σ) (id : ActorId) : Except Refusal Nat :=
  match w.actor? id with
  | some i => .ok i
  | none => .error (.unknownActor id)

/-! ## Sending and creating -/

/-- Send an event. Monitors see it first. -/
def send (w : World σ) (caller : Option Nat) (target : ActorId) (event : Event) :
    Except Refusal (List Task) := do
  w.ensureRunning
  w.ensureKnown caller
  let i ← w.findActor target
  return [.forward event, .post i event, .point .send, .answer .null]

/-- Send an event and wait until it has been handled. An actor that would wait for itself fails an
assertion. -/
def sendAndExecute (w : World σ) (caller : Option Nat) (target : ActorId) (event : Event) :
    Service σ :=
  let checked : Except Refusal Nat := do
    w.ensureRunning
    w.ensureKnown caller
    w.findActor target
  match checked with
  | .error r => w.refuse r
  | .ok i =>
    if caller.isSome && caller == w.actors[i]?.map (·.operation) then
      let (r, w) := w.failAssertion (some target)
        s!"Machine '{target.name}' can not rendezvous with itself."
      w.refuse r
    else .later [.forward event, .engage i event] w

/-- A new identity; the end of the numbers is reported as a bug. -/
def allocate (w : World σ) (typeTag : String) (name : Option String) :
    Except Refusal ActorId × World σ :=
  let (created, ids) := w.ids.create typeTag (name.getD "") name.isSome
  let w := { w with ids }
  match created with
  | .ok id => (.ok id, w)
  | .error (.overflow generation) =>
    let e : IdentityError := .overflow generation
    (.error (.identity e), w.report (.new .overflow e.message none))
  | .error e => (.error (.identity e), w)

/-- A new actor with its own thread and operation. -/
def addActor (w : World σ) (id : ActorId) (descriptor : Descriptor) (event : Option Event)
    (rendezvous : Option Nat) : World σ :=
  let (operation, controller) := w.controller.register id.name
  let actor : Actor :=
    { core := .new id descriptor, mailbox := {}, operation, creationEvent := event,
      creationRendezvous := rendezvous, pending := [],
      thread := ⟨[.firstTurn w.actors.length], false⟩ }
  { w with controller, actors := w.actors ++ [actor] }.observe (.created id)

/-- The rest of a creation, once there is an identity. -/
def populate (w : World σ) (caller : Option Nat) (id : ActorId) (descriptor : Descriptor)
    (event : Option Event) (execute : Bool) : Service σ :=
  if execute then
    let (r, w) := w.openRendezvous caller
    let w := (w.addActor id descriptor event (some r)).blockCaller caller
    .later (if w.explores then [.pass .create, .turn, .answer (.actor id)]
      else [.await r, .answer (.actor id)]) w
  else .later [.point .create, .answer (.actor id)] (w.addActor id descriptor event none)

/-- Create an actor; `execute` waits until it comes to rest. -/
def create (w : World σ) (caller : Option Nat) (typeTag : String) (name : Option String)
    (event : Option Event) (execute : Bool) : Service σ :=
  let checked : Except Refusal Descriptor := do
    w.ensureRunning
    w.ensureKnown caller
    match w.registry.machine? typeTag with
    | some d => return d
    | none => throw (.unknownActorType typeTag)
  match checked with
  | .error r => w.refuse r
  | .ok descriptor =>
    match w.allocate typeTag name with
    | (.error r, w) => w.refuse r
    | (.ok id, w) =>
      if (w.actor? id).isSome then
        w.refuse (.invalidOperation s!"an actor with id '{id.name}' already exists")
      else w.populate caller id descriptor event execute

/-! ## What an action asks of its own actor -/

/-- Keep a demand in the raised slot. An exit action may make none, any other one. -/
def demand (w : World σ) (c : Subject) (phase : Phase) (core : Core) (d : Demand) : Service σ :=
  if phase = .exit then
    let (r, w) := w.failAssertion (some core.id)
      s!"{core.label} has called raise, goto, push or pop inside an exit action."
    w.refuse r
  else if core.raised.isSome then
    let (r, w) := w.failAssertion (some core.id)
      s!"{core.label} has called raise, goto, push or pop more than once in the same action."
    w.refuse r
  else .now (.ok .null) (w.modifyCore c fun core => { core with raised := some d })

/-- Keep a demand that leads to a state, which has to exist. -/
def demandState (w : World σ) (c : Subject) (phase : Phase) (core : Core) (state : String)
    (d : Demand) : Service σ :=
  match core.descriptor.state? state with
  | some _ => w.demand c phase core d
  | none =>
    let (r, w) := w.failAssertion (some core.id)
      s!"{core.label} tried to transition to unknown state '{state}'."
    w.refuse r

/-- Keep a demand that monitors may not make. -/
def demandOfMachine (w : World σ) (core : Core) (what : String) (next : Service σ) : Service σ :=
  match core.descriptor.kind with
  | .machine => next
  | .monitor =>
    let (r, w) := w.failAssertion (some core.id) s!"{core.label} can not {what} states."
    w.refuse r

/-- What an action asks of its own actor; there is none outside an action. -/
def serveDemand (w : World σ) (context : Option (Subject × Phase × Core)) (d : Demand) :
    Service σ :=
  match context with
  | none => w.refuse (.invalidOperation "there is no actor to do this")
  | some (c, phase, core) =>
    match d with
    | .event _ => w.demand c phase core d
    | .goto state => w.demandState c phase core state d
    | .push state => w.demandOfMachine core "push" (w.demandState c phase core state d)
    | .pop => w.demandOfMachine core "pop" (w.demand c phase core d)

/-! ## Other requests -/

/-- An assertion. Outside an action it is refused once the run has ended. -/
def assert (w : World σ) (core : Option Core) (holds : Bool) (message : String) : Service σ :=
  if core.isNone && w.isOver then w.refuse .canceled
  else if holds then .now (.ok .null) w
  else
    let (r, w) := w.failAssertion (core.map (·.id)) message
    w.refuse r

/-- Begin to register a monitor. -/
def registerMonitor (w : World σ) (typeTag : String) : Except Refusal (List Task) := do
  w.ensureRunning
  match w.registry.monitor? typeTag with
  | none => throw (.unknownMonitor typeTag)
  | some descriptor =>
    match w.ids.named typeTag typeTag with
    | .ok id => return [.install descriptor id, .answer .null]
    | .error e => throw (.identity e)

variable [Strategy σ]

/-- A nondeterministic truth value. -/
def randomBool (w : World σ) : Service σ :=
  let (b, controller) := w.controller.nextBool
  let w := { w with controller }
  match b with
  | some b => .now (.ok (.bool b)) w
  | none => w.refuse .canceled

/-- A nondeterministic number below a bound. -/
def randomInt (w : World σ) (max : Nat) : Service σ :=
  let (n, controller) := w.controller.nextInt max
  let w := { w with controller }
  match n with
  | some n => .now (.ok (.ofNat n)) w
  | none => w.refuse .canceled

/-- The timer whose action asks. -/
def stopSleeper (w : World σ) (core : Option Core) : World σ :=
  match core with
  | none => w
  | some c =>
    { w with
      sleepers := w.sleepers.map fun s =>
        if s.info.timer.same c.id then { s with stopped := true } else s }

/-- A new sleeper, which fires for the first time when its period is over. -/
def startSleeper (w : World σ) (info : TimerInfo) : World σ :=
  { w with
    sleepers := w.sleepers ++
      [⟨info, w.clock + info.period, false, ⟨[.sleep w.sleepers.length], false⟩⟩] }

/-- Serve a request made in a thread, for a speaker, in a voice. -/
def serve (w : World σ) (caller : Option Nat) (speaker : Speaker) (voice : Voice) :
    Request → Service σ :=
  let context := w.context? speaker voice
  let core := context.map (·.2.2)
  fun
  | .journal text => .now (.ok .null) (w.note (w.nameOf speaker voice) text)
  | .render v => .now (.ok (.text (v.render w.objects))) w
  | .add a b => .now (.ok (a.add w.objects b)) w
  | .send target event =>
    match ensureMachine core "send events" with
    | .error r => w.refuse r
    | .ok _ => w.serveTasks (w.send caller target event)
  | .sendAndExecute target event =>
    match ensureMachine core "send events" with
    | .error r => w.refuse r
    | .ok _ => w.sendAndExecute caller target event
  | .create typeTag name event execute =>
    match ensureMachine core "create actors" with
    | .error r => w.refuse r
    | .ok _ => w.create caller typeTag name event execute
  | .raise event => w.serveDemand context (.event event)
  | .goto state => w.serveDemand context (.goto state)
  | .push state => w.serveDemand context (.push state)
  | .pop => w.serveDemand context .pop
  | .startTimer period periodic =>
    match ensureMachine core "start timers", core with
    | .error r, _ => w.refuse r
    | .ok _, none => w.refuse (.invalidOperation "there is no actor to do this")
    | .ok _, some c =>
      w.create caller (if w.explores then Timer.explored else Timer.sleeping) none
        (some (Timer.creation c.id period periodic)) false
  | .stopTimer timer =>
    match ensureMachine core "stop timers" with
    | .error r => w.refuse r
    | .ok _ => w.serveTasks (w.send caller timer (.ofType Timer.stop))
  | .assert holds message => w.assert core holds message
  | .randomBool => w.randomBool
  | .randomInt max => w.randomInt max
  | .monitor typeTag event =>
    match ensureMachine core "notify monitors", w.ensureRunning with
    | .error r, _ => w.refuse r
    | .ok _, .error r => w.refuse r
    | .ok _, .ok _ => .later [.notify typeTag event, .answer .null] w
  | .registerMonitor typeTag => w.serveTasks (w.registerMonitor typeTag)
  | .point kind => .later [.point kind, .answer .null] w
  | .waitForQuiescence =>
    if w.explores then
      w.refuse (.invalidOperation "quiescence of an exploration run is decided by the controller")
    else .later [.awaitQuiescence, .answer .null] w
  | .shutdown => .now (.ok .null) { w with controller := (w.controller.terminate .stopped).2 }
  | .terminate outcome => .now (.ok .null) { w with controller := (w.controller.terminate outcome).2 }
  | .reportBug kind message => .now (.ok .null) (w.report (.new kind message (core.map (·.id))))
  | .awaitHalted id => .later [.awaitHalted id, .answer .null] w
  | .newObject object =>
    .now (.ok (.shared w.objects.length)) { w with objects := w.objects ++ [object] }
  | .access object method arguments =>
    match w.objects[object]?.bind fun o => o.operation? w.objects method arguments with
    | some operation => .later [.point .sharedAccess, .touch object operation] w
    | none => .now (.error SharedOperation.unsupported) w
  | .status id =>
    let status := (w.actor? id).bind fun i => w.actors[i]?.map (·.mailbox.status)
    .now (.ok ((status.map fun s => Value.text s.name).getD .null)) w
  | .actors =>
    .now (.ok (.list ((ActorId.sort (w.actors.map (·.core.id))).map .actor))) w
  | .monitors => .later [.listMonitors] w
  | .monitorState typeTag => .later [.readMonitor typeTag] w
  | .steps => .now (.ok (.ofNat w.controller.steps)) w
  | .isOver => .now (.ok (.bool w.isOver)) w
  | .explores => .now (.ok (.bool w.explores)) w
  | .startSleeper info => .now (.ok .null) (w.startSleeper info)
  | .stopSleeper => .now (.ok .null) (w.stopSleeper core)

end World

end SteeredActors
