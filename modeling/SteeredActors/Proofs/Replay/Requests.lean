import SteeredActors.Proofs.Replay.Mirror
import SteeredActors.Proofs.World.Finality

/-!
# Requests of a replayed program

A request is served in a replayed world as it was in the first one, unless it shows an identity: the
text of a value, the sum of texts and the key of an entry may contain a generation.
-/

set_option autoImplicit false
set_option relaxedAutoImplicit false

namespace SteeredActors

variable {σ : Type} (π : Equiv.Perm Nat) (T : Trace)

/-- The request shows no identity. -/
def Request.Discreet (objects : List SharedObject) : Request → Prop
  | .render v => v.anonymous = true
  | .add a b => a.anonymous = true ∧ b.anonymous = true
  | .access object _ arguments => ∀ entries, objects[object]? = some (.dictionary entries) →
      ∀ v ∈ arguments.head?, v.anonymous = true
  | _ => True

theorem Allocator.named_rename (ids : Allocator) (typeTag name : String) :
    (ids.rename π).named typeTag name = (ids.named typeTag name).map (ActorId.rename π) := by
  unfold named
  split <;> rfl

/-- As long as there are numbers. The end of the numbers shows the generation. -/
theorem Allocator.create_rename {ids : Allocator} (room : ids.counter < maxWord)
    (typeTag friendly : String) (useName : Bool) :
    (ids.rename π).create typeTag friendly useName =
      ((ids.create typeTag friendly useName).1.map (ActorId.rename π),
        (ids.create typeTag friendly useName).2.rename π) := by
  cases useName with
  | true => exact congrArg (·, ids.rename π) (ids.named_rename π typeTag friendly)
  | false =>
    have some : ids.counter ≠ maxWord := Nat.ne_of_lt room
    have some' : (ids.rename π).counter ≠ maxWord := some
    simp only [create, numbered, if_neg some, if_neg some']
    rfl

theorem Allocator.create_ne_overflow {ids ids' : Allocator} (room : ids.counter < maxWord)
    {typeTag friendly : String} {useName : Bool} {generation : Nat} :
    ids.create typeTag friendly useName ≠ (.error (.overflow generation), ids') := by
  have some : ids.counter ≠ maxWord := Nat.ne_of_lt room
  unfold create
  split
  · unfold named
    split <;> simp
  · simp [numbered, some]

namespace World

variable (w : World σ)

theorem context?_replayed (speaker : Speaker) (voice : Voice) :
    (w.replayed π T).context? speaker voice =
      (w.context? speaker voice).map fun (c, phase, core) => (c, phase, core.rename π) := by
  cases voice <;> cases speaker <;> try rfl
  simp only [context?, core?_replayed, Option.map_map]
  rfl

theorem core_context?_replayed (speaker : Speaker) (voice : Voice) :
    ((w.replayed π T).context? speaker voice).map (·.2.2) =
      ((w.context? speaker voice).map (·.2.2)).map (Core.rename π) := by
  simp only [context?_replayed, Option.map_map]
  rfl

@[simp] theorem nameOf_replayed (speaker : Speaker) (voice : Voice) :
    (w.replayed π T).nameOf speaker voice = w.nameOf speaker voice := by
  simp only [nameOf, context?_replayed]
  cases w.context? speaker voice <;> rfl

@[simp] theorem ensureRunning_replayed : (w.replayed π T).ensureRunning = w.ensureRunning := by
  simp only [ensureRunning, isOver_replayed]

@[simp] theorem ensureKnown_replayed (caller : Option Nat) :
    (w.replayed π T).ensureKnown caller = w.ensureKnown caller := rfl

@[simp] theorem ensureMachine_rename (core : Option Core) (what : String) :
    ensureMachine (core.map (Core.rename π)) what = ensureMachine core what := by
  cases core <;> rfl

theorem rename_of_ensureMachine {core : Option Core} {what : String} {r : Refusal}
    (refused : ensureMachine core what = .error r) : r.rename π = r := by
  unfold ensureMachine at refused
  split at refused
  · split at refused
    · cases refused
      rfl
    · cases refused
  · cases refused

theorem rename_of_ensureRunning {r : Refusal} (refused : w.ensureRunning = .error r) :
    r.rename π = r := by
  unfold ensureRunning at refused
  split at refused
  · cases refused
    rfl
  · cases refused

theorem rename_of_ensureKnown {caller : Option Nat} {r : Refusal}
    (refused : w.ensureKnown caller = .error r) : r.rename π = r := by
  unfold ensureKnown at refused
  split at refused
  · cases refused
    rfl
  · cases refused

theorem refuse_failAssertion_replayed (actor : Option ActorId) (message : String) :
    ((w.replayed π T).failAssertion (actor.map (ActorId.rename π)) message).2.refuse
        ((w.replayed π T).failAssertion (actor.map (ActorId.rename π)) message).1 =
      ((w.failAssertion actor message).2.refuse (w.failAssertion actor message).1).replayed
        π T := by
  rw [failAssertion_replayed]
  rfl

theorem send_replayed (caller : Option Nat) (target : ActorId) (event : Event) :
    (w.replayed π T).serveTasks ((w.replayed π T).send caller (target.rename π) (event.rename π)) =
      (w.serveTasks (w.send caller target event)).replayed π T := by
  unfold send ensureRunning ensureKnown findActor
  rw [isOver_replayed, explores_replayed, actor?_replayed]
  cases w.isOver <;> cases caller.isNone && w.explores <;> cases w.actor? target <;> rfl

theorem sendAndExecute_replayed (caller : Option Nat) (target : ActorId) (event : Event) :
    (w.replayed π T).sendAndExecute caller (target.rename π) (event.rename π) =
      (w.sendAndExecute caller target event).replayed π T := by
  unfold sendAndExecute ensureRunning ensureKnown findActor
  rw [isOver_replayed, explores_replayed, actor?_replayed]
  cases w.isOver <;> cases caller.isNone && w.explores <;> cases w.actor? target <;> try rfl
  next i =>
    have operation : (w.replayed π T).actors[i]?.map (·.operation) =
        w.actors[i]?.map (·.operation) := by
      rw [actors_replayed, Option.map_map]
      rfl
    show (ite _ _ _ : Service ReplayStrategy) = Service.replayed π T (ite _ _ _)
    rw [operation]
    split
    · exact refuse_failAssertion_replayed π T w (some target) _
    · rfl

/-! ## Creating -/

theorem allocate_replayed (room : w.ids.counter < maxWord) (typeTag : String)
    (name : Option String) :
    (w.replayed π T).allocate typeTag name =
      ((w.allocate typeTag name).1.map (ActorId.rename π),
        (w.allocate typeTag name).2.replayed π T) := by
  unfold allocate
  rw [show (w.replayed π T).ids = w.ids.rename π from rfl, Allocator.create_rename π room]
  cases created : w.ids.create typeTag (name.getD "") name.isSome with
  | mk id ids =>
    cases id with
    | ok id => rfl
    | error e =>
      cases e with
      | nameRequired => rfl
      | overflow generation => exact absurd created (Allocator.create_ne_overflow room)

theorem rename_of_allocate {typeTag : String} {name : Option String} {r : Refusal}
    (refused : (w.allocate typeTag name).1 = .error r) : r.rename π = r := by
  unfold allocate at refused
  simp only at refused
  split at refused <;> cases refused <;> rfl

theorem addActor_replayed (id : ActorId) (descriptor : Descriptor) (event : Option Event)
    (rendezvous : Option Nat) :
    (w.replayed π T).addActor (id.rename π) (descriptor.rename π) (event.map (Event.rename π))
        rendezvous =
      (w.addActor id descriptor event rendezvous).replayed π T := by
  unfold addActor
  simp only
  rw [show (w.replayed π T).controller = w.controller.replayed π T from rfl,
    Controller.register_replayed, ← observe_replayed]
  congr 1
  simp only [replayed, List.map_append, List.map_cons, List.map_nil, List.length_map]
  rfl

theorem populate_replayed (caller : Option Nat) (id : ActorId) (descriptor : Descriptor)
    (event : Option Event) (execute : Bool) :
    (w.replayed π T).populate caller (id.rename π) (descriptor.rename π)
        (event.map (Event.rename π)) execute =
      (w.populate caller id descriptor event execute).replayed π T := by
  unfold populate
  cases execute with
  | false =>
    simp only [Bool.false_eq_true, if_false, addActor_replayed]
    rfl
  | true =>
    simp only [if_true, openRendezvous_replayed, addActor_replayed, blockCaller_replayed,
      explores_replayed]
    split <;> rfl

theorem create_replayed (room : w.ids.counter < maxWord) (caller : Option Nat) (typeTag : String)
    (name : Option String) (event : Option Event) (execute : Bool) :
    (w.replayed π T).create caller typeTag name (event.map (Event.rename π)) execute =
      (w.create caller typeTag name event execute).replayed π T := by
  unfold create
  simp only [ensureRunning_replayed, ensureKnown_replayed]
  cases running : w.ensureRunning with
  | error r =>
    have same := rename_of_ensureRunning π w running
    exact (congrArg (w.replayed π T).refuse same).symm
  | ok u =>
    cases known : w.ensureKnown caller with
    | error r =>
      have same := rename_of_ensureKnown π w known
      exact (congrArg (w.replayed π T).refuse same).symm
    | ok u =>
      have offered : (w.replayed π T).registry.machine? typeTag =
          (w.registry.machine? typeTag).map (Descriptor.rename π) := Registry.find?_rename π _ _ _
      simp only [offered]
      cases w.registry.machine? typeTag with
      | none => rfl
      | some descriptor =>
        simp only [Option.map_some, bind, Except.bind, pure, Except.pure,
          allocate_replayed π T w room]
        cases allocated : w.allocate typeTag name with
        | mk made w₁ =>
          cases made with
          | error r =>
            have same := rename_of_allocate π w (congrArg Prod.fst allocated)
            exact (congrArg (w₁.replayed π T).refuse same).symm
          | ok id =>
            simp only [Except.map, actor?_replayed]
            split
            · rfl
            · exact populate_replayed π T w₁ caller id descriptor event execute

/-! ## What an action asks of its own actor -/

theorem demand_replayed (c : Subject) (phase : Phase) (core : Core) (d : Demand) :
    (w.replayed π T).demand c phase (core.rename π) (d.rename π) =
      (w.demand c phase core d).replayed π T := by
  unfold demand
  rw [show (core.rename π).raised.isSome = core.raised.isSome from Option.isSome_map]
  split
  · exact refuse_failAssertion_replayed π T w (some core.id) _
  · split
    · exact refuse_failAssertion_replayed π T w (some core.id) _
    · rw [modifyCore_replayed π T w c (f := fun core => { core with raised := some d })
        fun _ => rfl]
      rfl

theorem demandState_replayed (c : Subject) (phase : Phase) (core : Core) (state : String)
    (d : Demand) :
    (w.replayed π T).demandState c phase (core.rename π) state (d.rename π) =
      (w.demandState c phase core state d).replayed π T := by
  unfold demandState
  rw [show (core.rename π).descriptor = core.descriptor.rename π from rfl, Descriptor.state?_rename]
  cases core.descriptor.state? state with
  | none => exact refuse_failAssertion_replayed π T w (some core.id) _
  | some s => exact demand_replayed π T w c phase core d

theorem demandOfMachine_replayed (core : Core) (what : String) {next : Service σ}
    {next' : Service ReplayStrategy} (same : next' = next.replayed π T) :
    (w.replayed π T).demandOfMachine (core.rename π) what next' =
      (w.demandOfMachine core what next).replayed π T := by
  unfold demandOfMachine
  rw [show (core.rename π).descriptor.kind = core.descriptor.kind from rfl]
  cases core.descriptor.kind with
  | machine => exact same
  | monitor => exact refuse_failAssertion_replayed π T w (some core.id) _

theorem serveDemand_replayed (context : Option (Subject × Phase × Core)) (d : Demand) :
    (w.replayed π T).serveDemand (context.map fun (c, phase, core) => (c, phase, core.rename π))
        (d.rename π) =
      (w.serveDemand context d).replayed π T := by
  cases context with
  | none => rfl
  | some context =>
    obtain ⟨c, phase, core⟩ := context
    cases d with
    | event e => exact demand_replayed π T w c phase core (.event e)
    | goto state => exact demandState_replayed π T w c phase core state (.goto state)
    | push state =>
      exact demandOfMachine_replayed π T w core "push"
        (demandState_replayed π T w c phase core state (.push state))
    | pop =>
      exact demandOfMachine_replayed π T w core "pop" (demand_replayed π T w c phase core .pop)

/-! ## Other requests -/

theorem assert_replayed (core : Option Core) (holds : Bool) (message : String) :
    (w.replayed π T).assert (core.map (Core.rename π)) holds message =
      (w.assert core holds message).replayed π T := by
  unfold assert
  rw [isOver_replayed,
    show (core.map (Core.rename π)).isNone = core.isNone from by cases core <;> rfl]
  split
  · rfl
  · split
    · rfl
    · rw [show (core.map (Core.rename π)).map (·.id) = (core.map (·.id)).map (ActorId.rename π) from
        by cases core <;> rfl]
      exact refuse_failAssertion_replayed π T w (core.map (·.id)) message

theorem registerMonitor_replayed (typeTag : String) :
    (w.replayed π T).serveTasks ((w.replayed π T).registerMonitor typeTag) =
      (w.serveTasks (w.registerMonitor typeTag)).replayed π T := by
  unfold registerMonitor
  rw [ensureRunning_replayed, show (w.replayed π T).registry.monitor? typeTag =
    (w.registry.monitor? typeTag).map (Descriptor.rename π) from Registry.find?_rename π _ _ _,
    show (w.replayed π T).ids.named typeTag typeTag =
      (w.ids.named typeTag typeTag).map (ActorId.rename π) from Allocator.named_rename π _ _ _]
  cases running : w.ensureRunning with
  | error r => exact (congrArg (w.replayed π T).refuse (rename_of_ensureRunning π w running)).symm
  | ok u =>
    cases w.registry.monitor? typeTag with
    | none => rfl
    | some descriptor => cases w.ids.named typeTag typeTag <;> rfl

theorem stopSleeper_replayed (core : Option Core) :
    (w.replayed π T).stopSleeper (core.map (Core.rename π)) =
      (w.stopSleeper core).replayed π T := by
  cases core with
  | none => rfl
  | some c =>
    refine congrArg (fun sleepers => { w.replayed π T with sleepers }) ?_
    simp only [replayed, stopSleeper, List.map_map]
    refine List.map_congr_left fun s _ => ?_
    simp only [Function.comp_apply]
    rw [show (s.rename π).info.timer.same (c.rename π).id = s.info.timer.same c.id from
      ActorId.same_rename π s.info.timer c.id]
    split <;> rfl

theorem startSleeper_replayed (info : TimerInfo) :
    (w.replayed π T).startSleeper (info.rename π) = (w.startSleeper info).replayed π T := by
  refine congrArg (fun sleepers => { w.replayed π T with sleepers }) ?_
  simp only [replayed, startSleeper, List.map_append, List.map_cons, List.map_nil, List.length_map]
  rfl

/-- All actors are of the generation in which the world makes identities. -/
def Native : Prop := ∀ a ∈ w.actors, a.core.id.generation = w.ids.generation

theorem sort_replayed {w : World σ} (native : w.Native) :
    ActorId.sort ((w.replayed π T).actors.map (·.core.id)) =
      (ActorId.sort (w.actors.map (·.core.id))).map (ActorId.rename π) := by
  rw [← ActorId.sort_rename π (g := w.ids.generation)]
  · simp only [replayed, List.map_map]
    rfl
  · intro id mem
    obtain ⟨a, there, rfl⟩ := List.mem_map.1 mem
    exact native a there

variable [Strategy σ]

/-- A strategy that keeps to the bounds of numbers. -/
def InRange : Prop :=
  ∀ s ∈ w.controller.strategy, ∀ max n, 0 < max → (Strategy.nextInt s max).1 = .ok n → n < max

variable {π T w}

theorem randomBool_replayed (along : w.randomBool.All fun w => w.controller.Along T) :
    (w.replayed π T).randomBool = w.randomBool.replayed π T := by
  have goesOn : w.controller.nextBool.2.Along T := by
    unfold randomBool at along
    simp only at along
    split at along <;> exact along
  unfold randomBool
  rw [show (w.replayed π T).controller = w.controller.replayed π T from rfl,
    Controller.nextBool_replayed goesOn]
  cases w.controller.nextBool with
  | mk b c => cases b <;> rfl

theorem randomInt_replayed (bounded : w.InRange) {max : Nat}
    (along : (w.randomInt max).All fun w => w.controller.Along T) :
    (w.replayed π T).randomInt max = (w.randomInt max).replayed π T := by
  have goesOn : (w.controller.nextInt max).2.Along T := by
    unfold randomInt at along
    simp only at along
    split at along <;> exact along
  unfold randomInt
  rw [show (w.replayed π T).controller = w.controller.replayed π T from rfl,
    Controller.nextInt_replayed (fun s holds n => bounded s holds max n) goesOn]
  cases w.controller.nextInt max with
  | mk n c =>
    cases n with
    | none => rfl
    | some n => exact congrArg (Service.now · _) (congrArg Except.ok (Value.ofNat_rename π n).symm)

omit [Strategy σ] in
/-- What only machines may ask for is refused to the same ones. -/
private theorem machine_replayed (core : Option Core) (what : String) {next : Service σ}
    {next' : Service ReplayStrategy} (same : next' = next.replayed π T) :
    (match ensureMachine (core.map (Core.rename π)) what with
      | .error r => (w.replayed π T).refuse r
      | .ok _ => next') =
    (match ensureMachine core what with
      | .error r => w.refuse r
      | .ok _ => next).replayed π T := by
  rw [ensureMachine_rename]
  cases allowed : ensureMachine core what with
  | error r =>
    exact (congrArg (w.replayed π T).refuse (rename_of_ensureMachine π allowed)).symm
  | ok _ => exact same

/-- A request of a replayed program is served as before. -/
theorem serve_replayed (native : w.Native) (bounded : w.InRange) (room : w.ids.counter < maxWord)
    (caller : Option Nat) (speaker : Speaker) (voice : Voice) {request : Request}
    (discreet : request.Discreet w.objects)
    (along : (w.serve caller speaker voice request).All fun w => w.controller.Along T) :
    (w.replayed π T).serve caller speaker voice (request.rename π) =
      (w.serve caller speaker voice request).replayed π T := by
  unfold serve at along ⊢
  dsimp only at along ⊢
  rw [core_context?_replayed, context?_replayed]
  cases request <;> simp only [Request.rename]
  case journal text => rw [note_replayed, nameOf_replayed]; rfl
  case render v =>
    exact congrArg (fun text => Service.now (.ok (.text text)) (w.replayed π T))
      (Value.render_rename π w.objects v discreet)
  case add a b =>
    exact congrArg (fun v => Service.now (.ok v) (w.replayed π T))
      (Value.add_rename π w.objects discreet.1 discreet.2)
  case send target event => exact machine_replayed _ _ (send_replayed π T w caller target event)
  case sendAndExecute target event =>
    exact machine_replayed _ _ (sendAndExecute_replayed π T w caller target event)
  case create typeTag name event execute =>
    exact machine_replayed _ _ (create_replayed π T w room caller typeTag name event execute)
  case raise event => exact serveDemand_replayed π T w _ (.event event)
  case goto state => exact serveDemand_replayed π T w _ (.goto state)
  case push state => exact serveDemand_replayed π T w _ (.push state)
  case pop => exact serveDemand_replayed π T w _ .pop
  case startTimer period periodic =>
    have tag : (if (w.replayed π T).explores then Timer.explored else Timer.sleeping) =
        if w.explores then Timer.explored else Timer.sleeping := rfl
    rw [ensureMachine_rename]
    cases allowed : ensureMachine ((w.context? speaker voice).map (·.2.2)) "start timers" with
    | error r =>
      exact (congrArg (w.replayed π T).refuse (rename_of_ensureMachine π allowed)).symm
    | ok u =>
      cases (w.context? speaker voice).map (·.2.2) with
      | none => rfl
      | some c =>
        exact create_replayed π T w room caller _ none
          (some (Timer.creation c.id period periodic)) false
  case stopTimer timer => exact machine_replayed _ _ (send_replayed π T w caller timer (.ofType Timer.stop))
  case assert holds message => exact assert_replayed π T w _ holds message
  case randomBool => exact randomBool_replayed along
  case randomInt max => exact randomInt_replayed bounded along
  case monitor typeTag event =>
    rw [ensureMachine_rename, ensureRunning_replayed]
    cases allowed : ensureMachine ((w.context? speaker voice).map (·.2.2)) "notify monitors" with
    | error r =>
      exact (congrArg (w.replayed π T).refuse (rename_of_ensureMachine π allowed)).symm
    | ok u =>
      cases running : w.ensureRunning with
      | error r =>
        exact (congrArg (w.replayed π T).refuse (rename_of_ensureRunning π w running)).symm
      | ok u => rfl
  case registerMonitor typeTag => exact registerMonitor_replayed π T w typeTag
  case waitForQuiescence =>
    rw [explores_replayed]
    split <;> rfl
  case shutdown =>
    exact congrArg (fun controller => Service.now (.ok .null) { w.replayed π T with controller })
      (Controller.finish_replayed π T w.controller .stopped)
  case terminate outcome =>
    exact congrArg (fun controller => Service.now (.ok .null) { w.replayed π T with controller })
      (Controller.finish_replayed π T w.controller outcome)
  case reportBug kind message =>
    have told : (((w.context? speaker voice).map (·.2.2)).map (Core.rename π)).map (·.id) =
        (((w.context? speaker voice).map (·.2.2)).map (·.id)).map (ActorId.rename π) := by
      cases (w.context? speaker voice).map (·.2.2) <;> rfl
    rw [told]
    exact congrArg (Service.now (.ok .null)) (report_replayed π T w (.new kind message _))
  case newObject object =>
    simp only [replayed, Service.replayed, List.map_append, List.map_cons, List.map_nil,
      List.length_map]
    rfl
  case access object method arguments =>
    rw [objects_replayed]
    have found : ((w.objects[object]?.map (SharedObject.rename π)).bind fun o =>
        o.operation? (w.replayed π T).objects method (arguments.map (Value.rename π))) =
        (w.objects[object]?.bind fun o => o.operation? w.objects method arguments).map
          (SharedOperation.rename π) := by
      cases there : w.objects[object]? with
      | none => rfl
      | some o =>
        exact SharedObject.operation?_rename π w.objects o method fun entries same =>
          discreet entries (same ▸ there)
    simp only [found]
    cases w.objects[object]?.bind fun o => o.operation? w.objects method arguments <;> rfl
  case status id =>
    have found : (((w.replayed π T).actor? (id.rename π)).bind fun i =>
        (w.replayed π T).actors[i]?.map (·.mailbox.status)) =
        (w.actor? id).bind fun i => w.actors[i]?.map (·.mailbox.status) := by
      rw [actor?_replayed]
      cases w.actor? id with
      | none => rfl
      | some i =>
        simp only [Option.bind_some, actors_replayed, Option.map_map]
        rfl
    simp only [found]
    cases (w.actor? id).bind fun i => w.actors[i]?.map (·.mailbox.status) <;> rfl
  case actors =>
    rw [sort_replayed π T native]
    simp only [Service.replayed, Answer.rename, Value.rename, Value.renameAll_eq_map, List.map_map]
    rfl
  case steps =>
    exact congrArg (fun v => Service.now (.ok v) (w.replayed π T))
      (Value.ofNat_rename π w.controller.steps).symm
  case isOver => rw [isOver_replayed]; rfl
  case startSleeper info => rw [startSleeper_replayed]; rfl
  case stopSleeper => rw [stopSleeper_replayed]; rfl
  all_goals rfl

end World

end SteeredActors
