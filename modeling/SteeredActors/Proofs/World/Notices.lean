import SteeredActors.Proofs.Identities
import SteeredActors.Proofs.World.Creation

/-!
# What observers are told

Observers are told when an actor is added and when an interpreter halts, and of nothing else. So at any
time of a run what they have been told of an interpreter can be read off from it: of an actor that it was
created, and of every interpreter that has halted, last, that it was destroyed. A monitor that halts is
announced as destroyed, too, though its registration was not announced.
-/

set_option autoImplicit false
set_option relaxedAutoImplicit false

namespace SteeredActors

variable {σ : Type}

/-- What observers are told of an identity. -/
inductive Notice where
  | created
  | destroyed
deriving DecidableEq, Repr

namespace LifecycleEvent

/-- Whose identity it is. -/
def id : LifecycleEvent → ActorId
  | .created id | .destroyed id => id

/-- What is told of it. -/
def notice : LifecycleEvent → Notice
  | .created _ => .created
  | .destroyed _ => .destroyed

end LifecycleEvent

/-- Observers are told of an identity. -/
def Notice.of (id : ActorId) : Notice → LifecycleEvent
  | .created => .created id
  | .destroyed => .destroyed id

@[simp] theorem Notice.id_of (notice : Notice) (id : ActorId) : (notice.of id).id = id := by
  cases notice <;> rfl

@[simp] theorem Notice.notice_of (notice : Notice) (id : ActorId) :
    (notice.of id).notice = notice := by
  cases notice <;> rfl

/-- What is to be told of an interpreter, the last thing first. -/
def Core.due (c : Subject) (core : Core) : List Notice :=
  (if core.halted then [.destroyed] else []) ++ (if c.kind = .machine then [.created] else [])

namespace World

/-- What is to be told of an interpreter, the last thing first. -/
def due (w : World σ) (c : Subject) : List Notice := ((w.core? c).map (·.due c)).getD []

/-- What has been told, and what is to be told of each interpreter. -/
def heard (w : World σ) : List LifecycleEvent × (Subject → List Notice) := (w.lifecycle, w.due)

section Frames

variable {w w₁ : World σ}

/-- Where interpreters stay and nothing is told, nothing is to be told. -/
theorem heard_of_mind? (lifecycle : w₁.lifecycle = w.lifecycle) (minds : ∀ c, w₁.mind? c = w.mind? c) :
    w₁.heard = w.heard := by
  have cores : w₁.core? = w.core? := funext fun c => by rw [core?_eq_mind?, core?_eq_mind?, minds]
  exact Prod.ext lifecycle (funext fun c => by simp only [heard, due, cores])

theorem heard_of_parts (lifecycle : w₁.lifecycle = w.lifecycle) (actors : w₁.actors = w.actors)
    (monitors : w₁.monitors = w.monitors) : w₁.heard = w.heard :=
  heard_of_mind? lifecycle fun c => by cases c <;> simp [mind?, actors, monitors]

variable (w)

@[simp] theorem lifecycle_modifyCore (c : Subject) (f : Core → Core) :
    (w.modifyCore c f).lifecycle = w.lifecycle := by
  cases c <;> rfl

/-- An interpreter may change as long as it neither halts nor goes on. -/
theorem heard_modifyCore (c : Subject) {f : Core → Core}
    (kept : ∀ core, (f core).halted = core.halted) : (w.modifyCore c f).heard = w.heard := by
  refine Prod.ext (w.lifecycle_modifyCore c f) (funext fun d => ?_)
  by_cases same : c = d
  · subst same
    have changed := w.mind?_modifyCore_self c f
    simp only [heard, due, core?_eq_mind?, changed, Option.map_map]
    cases w.mind? c with
    | none => rfl
    | some mind => simp [Core.due, kept]
  · simp only [heard, due, core?_eq_mind?, w.mind?_modifyCore same f]

@[simp] theorem heard_setStack (c : Subject) (stack : List ActiveState) :
    (w.setStack c stack).heard = w.heard := w.heard_modifyCore c fun _ => rfl

theorem heard_modifyActor (i : Nat) {f : Actor → Actor}
    (kept : ∀ a, (f a).core = a.core) : (w.modifyActor i f).heard = w.heard := by
  refine Prod.ext rfl (funext fun c => ?_)
  simp only [heard, due]
  cases c with
  | monitor m => rfl
  | actor j =>
    simp only [core?, modifyActor, List.getElem?_modify]
    cases w.actors[j]? with
    | none => rfl
    | some a => by_cases same : i = j <;> simp [same, kept]

theorem heard_modifyMonitor (m : Nat) {f : Monitor → Monitor} (kept : ∀ a, (f a).core = a.core) :
    (w.modifyMonitor m f).heard = w.heard :=
  heard_of_mind? rfl fun c => w.mind?_modifyMonitor c m kept

@[simp] theorem heard_controller (controller : Controller σ) :
    heard { w with controller } = w.heard := heard_of_parts rfl rfl rfl

@[simp] theorem heard_ids (ids : Allocator) : heard { w with ids } = w.heard :=
  heard_of_parts rfl rfl rfl

@[simp] theorem heard_note (who text : String) : (w.note who text).heard = w.heard := by
  unfold note
  split
  · rfl
  · exact heard_of_parts rfl rfl rfl

@[simp] theorem heard_report (report : BugReport) : (w.report report).heard = w.heard :=
  w.heard_controller _

@[simp] theorem heard_setThread (t : ThreadId) (thread : Thread) :
    (w.setThread t thread).heard = w.heard := by
  cases t with
  | driver | sleeper j => exact heard_of_parts rfl rfl rfl
  | actor i => exact w.heard_modifyActor i fun _ => rfl

@[simp] theorem heard_reply (r : Nat) (handled : Bool) : (w.reply r handled).heard = w.heard := by
  unfold reply
  split
  · next waiter _ => cases waiter <;> exact heard_of_parts rfl rfl rfl
  · rfl

@[simp] theorem heard_replyAll (rs : List Nat) (handled : Bool) :
    (w.replyAll rs handled).heard = w.heard := by
  unfold replyAll
  induction rs generalizing w with
  | nil => rfl
  | cons r rs ih => rw [List.foldl_cons, ih, heard_reply]

theorem heard_replyEach (pending : List (Nat × Bool)) :
    (pending.foldl (fun w (r, handled) => w.reply r handled) w).heard = w.heard := by
  induction pending generalizing w with
  | nil => rfl
  | cons p pending ih => exact (ih _).trans (w.heard_reply _ _)

@[simp] theorem heard_discard (envelopes : List Envelope) : (w.discard envelopes).heard = w.heard :=
  w.heard_replyAll _ _

@[simp] theorem heard_openRendezvous (caller : Option Nat) :
    (w.openRendezvous caller).2.heard = w.heard := heard_of_parts rfl rfl rfl

@[simp] theorem heard_blockCaller (caller : Option Nat) :
    (w.blockCaller caller).heard = w.heard := by
  unfold blockCaller
  cases caller with
  | none => rfl
  | some op =>
    simp only
    split <;> simp

@[simp] theorem heard_enqueue (i : Nat) (envelope : Envelope) :
    (w.enqueue i envelope).heard = w.heard := by
  unfold enqueue
  split
  · rfl
  · next a _ =>
    cases a.mailbox.enqueue envelope with
    | mk arrival mailbox =>
      have same := w.heard_modifyActor i (f := fun a => { a with mailbox }) fun _ => rfl
      cases arrival <;> simp [same]

/-- Of a monitor nothing is to be told until it halts. -/
theorem heard_addMonitor {monitor : Monitor} (awake : monitor.core.halted = false)
    (monitors : w₁ = { w with monitors := w.monitors ++ [monitor] }) : w₁.heard = w.heard := by
  subst monitors
  refine Prod.ext rfl (funext fun c => ?_)
  cases c with
  | actor i => rfl
  | monitor m =>
    simp only [heard, due, core?]
    rcases Nat.lt_trichotomy m w.monitors.length with lt | rfl | gt
    · rw [List.getElem?_append_left lt]
    · simp [Core.due, awake, Subject.kind]
    · rw [List.getElem?_eq_none (by simp; omega), List.getElem?_eq_none (by omega)]

@[simp] theorem heard_abandon (i : Nat) : (w.abandon i).heard = w.heard := by
  unfold abandon
  split
  · rfl
  · simp only [heard_replyAll, heard_discard]
    exact w.heard_modifyActor i fun _ => rfl

end Frames

/-! ## Services -/

/-- One thing is told of an interpreter. -/
structure Announces (w w₁ : World σ) (c : Subject) (notice : Notice) : Prop where
  told : ∃ core, w₁.core? c = some core ∧
    w₁.lifecycle = (w.observe (notice.of core.id)).lifecycle
  due : w₁.due c = notice :: w.due c
  others : ∀ d, d ≠ c → w₁.due d = w.due d

/-- No more than one thing is told. -/
def Tells (w w₁ : World σ) : Prop :=
  w₁.heard = w.heard ∨ ∃ c notice, w.Announces w₁ c notice

section Services

variable {w w₁ : World σ}

theorem isOver_of_outcome (same : w₁.controller.outcome = w.controller.outcome) :
    w₁.isOver = w.isOver := by
  rw [isOver, isOver, Controller.isOver, Controller.isOver, same]

theorem lifecycle_observe (w : World σ) (event : LifecycleEvent) :
    (w.observe event).lifecycle = if w.isOver then w.lifecycle else event :: w.lifecycle := by
  unfold observe
  split <;> rfl

/-- What is told when an actor is added. -/
private theorem announces_addActor (w : World σ) (id : ActorId) (descriptor : Descriptor)
    (event : Option Event) (rendezvous : Option Nat) :
    w.Announces (w.addActor id descriptor event rendezvous) (.actor w.actors.length) .created := by
  have actors : ∃ a, (w.addActor id descriptor event rendezvous).actors = w.actors ++ [a] ∧
      a.core = .new id descriptor := ⟨_, by simp [addActor, actors_observe]; rfl, rfl⟩
  have monitors : (w.addActor id descriptor event rendezvous).monitors = w.monitors := by
    simp only [addActor, observe]
    split <;> rfl
  obtain ⟨a, actors, fresh⟩ := actors
  refine ⟨⟨a.core, by simp [core?, actors], ?_⟩, ?_, fun d other => ?_⟩
  · rw [fresh]
    simp only [addActor, lifecycle_observe, Notice.of, Core.new]
    rfl
  · simp [World.due, core?, actors, fresh, Core.due, Core.new, Subject.kind]
  · cases d with
    | monitor m => simp [World.due, core?, monitors]
    | actor i =>
      have ne : i ≠ w.actors.length := fun e => other (congrArg Subject.actor e)
      simp only [World.due, core?, actors]
      rcases Nat.lt_or_gt_of_ne ne with lt | gt
      · rw [List.getElem?_append_left lt]
      · rw [List.getElem?_eq_none (by simp; omega), List.getElem?_eq_none (by omega)]

theorem Announces.of_left {w₀ : World σ} {c : Subject} {notice : Notice}
    (announces : w₀.Announces w₁ c notice) (heard : w₀.heard = w.heard)
    (outcome : w₀.controller.outcome = w.controller.outcome) : w.Announces w₁ c notice := by
  have lifecycle : w₀.lifecycle = w.lifecycle := congrArg Prod.fst heard
  have due : w₀.due = w.due := congrArg Prod.snd heard
  obtain ⟨core, found, told⟩ := announces.told
  refine ⟨⟨core, found, ?_⟩, due ▸ announces.due, due ▸ announces.others⟩
  rw [told, lifecycle_observe, lifecycle_observe, isOver_of_outcome outcome, lifecycle]

theorem Announces.of_right {w₂ : World σ} {c : Subject} {notice : Notice}
    (announces : w.Announces w₁ c notice) (heard : w₂.heard = w₁.heard)
    (cores : ∀ c, w₂.mind? c = w₁.mind? c) : w.Announces w₂ c notice := by
  have lifecycle : w₂.lifecycle = w₁.lifecycle := congrArg Prod.fst heard
  have due : w₂.due = w₁.due := congrArg Prod.snd heard
  obtain ⟨core, found, told⟩ := announces.told
  refine ⟨⟨core, ?_, lifecycle.trans told⟩, due ▸ announces.due, due ▸ announces.others⟩
  rw [core?_eq_mind?, cores, ← core?_eq_mind?, found]

theorem Tells.of_right {w₂ : World σ} (tells : w.Tells w₁) (heard : w₂.heard = w₁.heard)
    (cores : ∀ c, w₂.mind? c = w₁.mind? c) : w.Tells w₂ := by
  rcases tells with same | ⟨c, notice, announces⟩
  · exact .inl (heard.trans same)
  · exact .inr ⟨c, notice, announces.of_right heard cores⟩

private theorem tells_create (w : World σ) (caller : Option Nat) (typeTag : String)
    (name : Option String) (event : Option Event) (execute : Bool) :
    (w.create caller typeTag name event execute).All w.Tells := by
  have created := w.ofCreation caller typeTag name event execute
  generalize w.create caller typeTag name event execute = service at created
  cases created with
  | refused | taken => exact .inl rfl
  | overflows => exact .inl (w.heard_report _)
  | @populates d id ids =>
    cases execute with
    | true =>
      simp only [populate, if_true, Service.All]
      refine .inr ⟨_, _, ((announces_addActor _ _ _ _ _).of_left
        ((heard_openRendezvous { w with ids } caller).trans (w.heard_ids ids)) rfl).of_right
        (heard_blockCaller _ _) fun c => mind?_blockCaller _ c _⟩
    | false =>
      exact .inr ⟨_, _, (announces_addActor { w with ids } _ _ _ _).of_left (w.heard_ids ids) rfl⟩

private theorem heard_refuse {w₁ : World σ} (same : w₁.heard = w.heard) (r : Refusal) :
    (w₁.refuse r).All fun w' => w'.heard = w.heard := same

private theorem heard_sendAndExecute (w : World σ) (caller : Option Nat) (target : ActorId)
    (event : Event) :
    (w.sendAndExecute caller target event).All fun w' => w'.heard = w.heard := by
  have sent := w.ofRendezvous caller target event
  generalize w.sendAndExecute caller target event = service at sent
  cases sent with
  | refused | brings => rfl
  | fails => exact heard_refuse (w.heard_report _) _

private theorem heard_serveDemand (w : World σ) (context : Option (Subject × Phase × Core))
    (d : Demand) : (w.serveDemand context d).All fun w' => w'.heard = w.heard := by
  have demanded := w.ofDemand context d
  generalize w.serveDemand context d = service at demanded
  cases demanded with
  | nobody => rfl
  | fails => exact heard_refuse (w.heard_report _) _
  | @kept c => exact w.heard_modifyCore c fun _ => rfl

variable [Strategy σ]

/-- A request tells of the actor that it adds, and else of nothing. -/
theorem tells_serve (w : World σ) (caller : Option Nat) (speaker : Speaker) (voice : Voice)
    (request : Request) : (w.serve caller speaker voice request).All w.Tells := by
  have silent : ∀ {s : Service σ}, s.All (fun w' => w'.heard = w.heard) → s.All w.Tells := by
    intro s
    cases s <;> exact .inl
  have tasks : ∀ r, (w.serveTasks r).All w.Tells := by
    intro r
    cases r <;> exact .inl rfl
  cases request <;> simp only [serve]
  case send | stopTimer =>
    split
    · exact .inl rfl
    · exact tasks _
  case registerMonitor => exact tasks _
  case sendAndExecute =>
    split
    · exact .inl rfl
    · exact silent (w.heard_sendAndExecute _ _ _)
  case create =>
    split
    · exact .inl rfl
    · exact w.tells_create _ _ _ _ _
  case raise | goto | push | pop => exact silent (w.heard_serveDemand _ _)
  case startTimer =>
    split
    · exact .inl rfl
    · exact .inl rfl
    · exact w.tells_create _ _ _ _ _
  case assert holds message =>
    unfold assert
    split
    · exact .inl rfl
    · split
      · exact .inl rfl
      · exact .inl (w.heard_report _)
  case randomBool =>
    unfold randomBool
    simp only
    split <;> exact .inl (w.heard_controller _)
  case randomInt max =>
    unfold randomInt
    simp only
    split <;> exact .inl (w.heard_controller _)
  case journal who => exact .inl (w.heard_note _ _)
  case monitor => split <;> exact .inl rfl
  case waitForQuiescence | access => split <;> exact .inl rfl
  case shutdown | terminate => exact .inl (w.heard_controller _)
  case reportBug => exact .inl (w.heard_report _)
  case newObject | startSleeper => exact .inl (heard_of_parts rfl rfl rfl)
  case stopSleeper =>
    refine .inl ?_
    unfold World.stopSleeper
    split
    · rfl
    · exact heard_of_parts rfl rfl rfl
  all_goals exact .inl rfl

end Services

/-! ## Tasks -/

section Tasks

variable {w : World σ}

theorem due_of_core? {c : Subject} {core : Core} (found : w.core? c = some core) :
    w.due c = core.due c := by
  simp [World.due, found]

/-- What is told when an interpreter halts. -/
private theorem tells_halt (w : World σ) (c : Subject) : w.Tells (w.halt c) := by
  unfold halt
  split
  · exact .inl rfl
  · next core found =>
    split
    · exact .inl rfl
    · next awake =>
      have awake : core.halted = false := by simpa using awake
      -- the interpreter halts, then its mailbox is closed, and then observers are told
      have halted : ∀ v : World σ, (∀ d, v.mind? d =
            (w.modifyCore c fun core =>
              { core with halted := true, stack := [], raised := none }).mind? d) →
          v.lifecycle = w.lifecycle → v.controller.outcome = w.controller.outcome →
          w.Announces (v.observe (.destroyed core.id)) c .destroyed := by
        intro v minds lifecycle outcome
        have own : (v.observe (.destroyed core.id)).core? c =
            some { core with halted := true, stack := [], raised := none } := by
          rw [core?_eq_mind?, mind?_observe, minds, ← core?_eq_mind?, core?_modifyCore found]
        refine ⟨⟨_, own, ?_⟩, ?_, fun d other => ?_⟩
        · rw [lifecycle_observe, lifecycle_observe, isOver_of_outcome outcome, lifecycle]
          rfl
        · rw [due_of_core? own, due_of_core? found]
          simp [Core.due, awake]
        · simp only [World.due, core?_eq_mind?, mind?_observe, minds,
            w.mind?_modifyCore (Ne.symm other)]
      cases c with
      | actor i =>
        refine .inr ⟨_, _, halted _ (fun d => mind?_abandon _ d i) ?_ (by simp)⟩
        exact (congrArg Prod.fst (heard_abandon _ i)).trans (w.lifecycle_modifyCore _ _)
      | monitor m => exact .inr ⟨_, _, halted _ (fun _ => rfl) rfl rfl⟩

private theorem tells_withCore {c : Subject} {f : Core → Move σ}
    (kept : ∀ core, (f core).All w.Tells) : (w.withCore c f).All w.Tells := by
  unfold withCore
  split
  · exact kept _
  · exact .inl rfl

private theorem tells_withActor {i : Nat} {f : Actor → Move σ}
    (kept : ∀ a, (f a).All w.Tells) : (w.withActor i f).All w.Tells := by
  unfold withActor
  split
  · exact kept _
  · exact .inl rfl

private theorem tells_withMonitor {m : Nat} {f : Monitor → Move σ}
    (kept : ∀ a, (f a).All w.Tells) : (w.withMonitor m f).All w.Tells := by
  unfold withMonitor
  split
  · exact kept _
  · exact .inl rfl

private theorem tells_handle (w : World σ) (c : Subject) (event : Event) (r : Option Nat) :
    (w.handle c event r).All w.Tells := by
  refine tells_withCore fun core => ?_
  split
  · exact .inl (w.heard_setStack c _)
  · exact .inl (w.heard_setStack c _)
  · simp only
    split
    · rcases tells_halt (w.setStack c []) c with same | ⟨d, notice, announces⟩
      · exact .inl (same.trans (w.heard_setStack c []))
      · exact .inr ⟨d, notice, announces.of_left (w.heard_setStack c []) (by simp)⟩
    · exact .inl ((heard_report _ _).trans (w.heard_setStack c []))

private theorem tells_obey (w : World σ) (c : Subject) (core : Core) (again : Task)
    {otherwise : Move σ} (kept : otherwise.All w.Tells) :
    (w.obey c core again otherwise).All w.Tells := by
  unfold obey
  split
  · exact kept
  · exact .inl (w.heard_modifyCore c fun _ => rfl)

private theorem tells_comeToRest {v : World σ} (same : v.heard = w.heard) (i : Nat) (a : Actor) :
    (v.comeToRest i a).All w.Tells := by
  refine .inl (Eq.trans (heard_modifyActor _ i fun _ => rfl) ?_)
  exact (v.heard_replyEach a.pending).trans same

private theorem tells_selectEvent (w : World σ) (i : Nat) (a : Actor) :
    (w.selectEvent i a).All w.Tells := by
  unfold selectEvent
  split
  · exact tells_comeToRest rfl i a
  · next top _ _ =>
    have stored : ∀ mailbox, (w.modifyActor i fun a => { a with mailbox }).heard = w.heard :=
      fun mailbox => w.heard_modifyActor i fun _ => rfl
    simp only
    split
    · exact .inl ((heard_discard _ _).trans (stored _))
    · exact .inl ((heard_discard _ _).trans (stored _))
    · exact tells_comeToRest
        ((heard_discard _ _).trans ((heard_controller _ _).trans (stored _))) i a

private theorem tells_follow (w : World σ) (p : Passage) (tasks : List Task) :
    (w.follow p tasks).All w.Tells := by
  cases p <;> first | trivial | exact .inl rfl

private theorem tells_unwindAssertion (w : World σ) (core : Core) (message : String) :
    (w.unwindAssertion core message).All w.Tells := .inl (w.heard_report _)

private theorem tells_finishAction (w : World σ) (c : Subject) (memory : Memory) (ending : Ending) :
    (w.finishAction c memory ending).All w.Tells := by
  have kept : (w.modifyCore c fun core => { core with memory }).heard = w.heard :=
    w.heard_modifyCore c fun _ => rfl
  have reported : ∀ (v : World σ) text, v.heard = w.heard →
      Move.All w.Tells (if v.isOver then v.unwind .canceled
        else v.withCore c fun core => (v.report (faultReport core text)).unwind .canceled) := by
    intro v text same
    split
    · exact .inl same
    · unfold withCore
      split
      · exact .inl ((v.heard_report _).trans same)
      · exact .inl same
  simp only [finishAction]
  cases ending with
  | ok => exact .inl kept
  | panicked message => exact reported _ _ kept
  | failed failure =>
    simp only
    split
    · exact .inl kept
    · exact reported _ _ kept

private theorem tells_finishTest (w : World σ) (memory : Memory) (ending : Ending) :
    (w.finishTest memory ending).All w.Tells := by
  have kept : heard { w with test := { w.test with memory, ending := some ending } } = w.heard :=
    heard_of_parts rfl rfl rfl
  have reported : ∀ (v : World σ) text, v.heard = w.heard →
      w.Tells (if v.isOver || !v.explores then v else v.report (testFaultReport text)) := by
    intro v text same
    split
    · exact .inl same
    · exact .inl ((v.heard_report _).trans same)
  simp only [finishTest, Move.All]
  cases ending with
  | ok => exact .inl kept
  | panicked message => exact reported _ _ kept
  | failed failure =>
    simp only
    split
    · exact .inl kept
    · exact reported _ _ kept

variable [Strategy σ]

private theorem tells_perform (w : World σ) (t : ThreadId) (speaker : Speaker) (program : Program) :
    (w.perform t speaker program).All w.Tells := by
  cases program with
  | finish memory ending =>
    cases speaker with
    | action c phase => exact w.tells_finishAction c memory ending
    | test => exact w.tells_finishTest memory ending
    | sleeper j =>
      simp only [perform, finishFiring]
      split
      · split
        · exact .inl (heard_of_parts rfl rfl rfl)
        · exact .inl rfl
      · exact .inl rfl
  | ask voice request next =>
    simp only [perform]
    split
    · exact .inl rfl
    · next thread _ =>
      have tells := w.tells_serve (if (thread.outside || voice == .outsider) = true then none
        else w.operation? t) speaker voice request
      cases served : w.serve (if (thread.outside || voice == .outsider) = true then none
          else w.operation? t) speaker voice request with
      | now a w₁ =>
        rw [served] at tells
        exact tells
      | later tasks w₁ =>
        rw [served] at tells
        exact tells.of_right (w₁.heard_setThread t _) fun c => w₁.mind?_setThread c t _

/-- A task tells of one interpreter, or of nothing. -/
theorem tells_exec (w : World σ) (t : ThreadId) (x : Task) : (w.exec t x).All w.Tells := by
  cases x <;> simp only [exec]
  case firstTurn i | rest i =>
    refine tells_withActor fun a => ?_
    split
    · exact .inl rfl
    · trivial
    · exact .inl (w.heard_abandon i)
  case wake i =>
    refine tells_withActor fun a => ?_
    split
    · exact .inl rfl
    · simp only
      split
      · exact .inl (Eq.trans (heard_modifyActor _ i fun _ => rfl)
          (w.heard_modifyActor i fun _ => rfl))
      · exact .inl (w.heard_modifyActor i fun _ => rfl)
  case cycle i =>
    unfold cycleActor
    split
    · exact .inl rfl
    · refine tells_withActor fun a => ?_
      split
      · exact .inl rfl
      · exact w.tells_obey _ _ _ (w.tells_selectEvent i a)
  case retire kind =>
    split
    · exact .inl (w.heard_controller _)
    · exact .inl rfl
  case start c event =>
    exact tells_withCore fun core => .inl (w.heard_setStack c _)
  case handle c event r => exact w.tells_handle c event r
  case settle i r handled =>
    refine tells_withActor fun a => ?_
    simp only [Move.All]
    split
    · exact .inl (w.heard_reply r false)
    · exact .inl (w.heard_modifyActor i fun _ => rfl)
  case invoke c action event phase => exact tells_withCore fun core => .inl rfl
  case switch c target event =>
    refine tells_withCore fun core => ?_
    split
    · exact .inl rfl
    · exact .inl (w.heard_setStack c _)
  case enter c target event =>
    refine tells_withCore fun core => ?_
    split
    · exact .inl (w.heard_setStack c _)
    · exact w.tells_unwindAssertion _ _
  case pop c =>
    refine tells_withCore fun core => ?_
    split
    · exact w.tells_unwindAssertion _ _
    · exact .inl rfl
  case dropTop c => exact tells_withCore fun core => .inl (w.heard_setStack c _)
  case forward event =>
    split
    · trivial
    · exact .inl rfl
  case notify typeTag event =>
    split
    · trivial
    · split <;> exact .inl rfl
  case deliver m event =>
    refine tells_withMonitor fun monitor => ?_
    split
    · trivial
    · split
      · exact .inl rfl
      · simp only
        split
        · split
          · exact .inl rfl
          · exact .inl (w.heard_modifyMonitor m fun _ => rfl)
        · exact .inl (w.heard_modifyMonitor m fun _ => rfl)
  case drain m =>
    refine tells_withMonitor fun monitor => ?_
    split
    · exact .inl rfl
    · exact w.tells_obey _ _ _ (.inl rfl)
  case defaults m =>
    refine tells_withMonitor fun monitor => ?_
    split
    · split <;> exact .inl rfl
    · exact .inl rfl
  case release m | enlist m => exact .inl (w.heard_modifyMonitor m fun _ => rfl)
  case install d id =>
    unfold install
    split
    · trivial
    · split
      · exact .inl rfl
      · exact .inl (w.heard_addMonitor rfl rfl)
  case listMonitors =>
    split
    · trivial
    · exact .inl rfl
  case readMonitor typeTag =>
    unfold readMonitor
    split
    · trivial
    · split
      · exact .inl rfl
      · refine tells_withMonitor fun monitor => ?_
        split
        · trivial
        · exact .inl rfl
  case post i event => exact .inl (w.heard_enqueue i _)
  case engage i event =>
    exact .inl ((heard_enqueue _ i _).trans ((heard_blockCaller _ _).trans
      (w.heard_openRendezvous _)))
  case await r =>
    unfold awaitReply
    split
    · exact .inl rfl
    · split
      · exact .inl rfl
      · trivial
  case point kind =>
    split
    · exact .inl rfl
    · split
      · exact .inl rfl
      · split <;> exact .inl rfl
  case pass kind =>
    split
    · exact .inl (w.heard_controller _)
    · exact .inl rfl
  case turn =>
    split
    · exact w.tells_follow _ _
    · exact .inl rfl
  case touch object operation =>
    split
    · exact .inl (heard_of_parts rfl rfl rfl)
    · exact .inl rfl
  case awaitHalted id =>
    split
    · exact .inl rfl
    · split
      · exact .inl rfl
      · trivial
  case awaitQuiescence => exact w.tells_follow _ _
  case sleep j =>
    unfold sleep
    split
    · exact .inl rfl
    · split
      · exact .inl rfl
      · split
        · trivial
        · exact .inl rfl
  case perform speaker program => exact w.tells_perform t speaker program
  case resume speaker outside shared next =>
    split
    · exact .inl (w.heard_setThread t _)
    · exact .inl rfl
  all_goals exact .inl rfl

end Tasks

/-! ## Steps -/

section Steps

variable [Strategy σ] {w w' : World σ}

omit [Strategy σ] in
theorem heard_deliverAnswer (w : World σ) (t : ThreadId) (a : Answer) (tasks : List Task) :
    (w.deliverAnswer t a tasks).heard = w.heard := by
  fun_induction deliverAnswer w t a tasks with
  | case1 => simp
  | case2 => simp
  | case3 => simp
  | case4 w m rest ih => exact ih.trans (w.heard_modifyMonitor m fun _ => rfl)
  | case5 w m rest ih => exact ih.trans (w.heard_modifyMonitor m fun _ => rfl)
  | case6 w task rest _ _ _ ih => exact ih

/-- In one step observers are told of one interpreter, or of nothing. -/
theorem tells_of_stepThread? {t : ThreadId} (moved : w.stepThread? t = some w') : w.Tells w' := by
  obtain ⟨x, rest, outside, _, steps⟩ := of_stepThread? moved
  have tells := w.tells_exec t x
  rcases steps with ⟨xs, w₁, old, executed, _, rfl⟩ | ⟨a, w₁, executed, rfl⟩ <;>
    rw [executed] at tells
  · exact tells.of_right (w₁.heard_setThread t _) fun c => w₁.mind?_setThread c t _
  · exact tells.of_right (w₁.heard_deliverAnswer t a rest) fun c => mind?_deliverAnswer rfl t a rest

end Steps

end World

/-! ## The chronicle of a run -/

/-- What has been told of one interpreter, the last thing first. -/
def history (entries : List (Subject × Notice)) (c : Subject) : List Notice :=
  (entries.filter (·.1 = c)).map (·.2)

/-- What is told of an identity. -/
def told (id : ActorId) (events : List LifecycleEvent) : List Notice :=
  (events.filter (·.id.same id)).map (·.notice)

theorem history_cons_self (entries : List (Subject × Notice)) (c : Subject) (notice : Notice) :
    history ((c, notice) :: entries) c = notice :: history entries c := by
  simp [history]

theorem history_cons_of_ne (entries : List (Subject × Notice)) {c d : Subject} (notice : Notice)
    (other : d ≠ c) : history ((c, notice) :: entries) d = history entries d := by
  simp [history, Ne.symm other]

namespace World

variable {w w' : World σ} {entries : List (Subject × Notice)}

/-- An event tells something of an interpreter. -/
def Concerns (w : World σ) (event : LifecycleEvent) (entry : Subject × Notice) : Prop :=
  ∃ core, w.core? entry.1 = some core ∧ event = entry.2.of core.id

/-- What observers have been told, and of whom: nothing that is not to be told, and all of that while
the run goes on. -/
structure Chronicle (w : World σ) (entries : List (Subject × Notice)) : Prop where
  events : List.Forall₂ w.Concerns w.lifecycle entries
  due : ∀ c, history entries c <:+ w.due c
  whole : w.isOver = false → ∀ c, history entries c = w.due c

/-- A step adds to the chronicle what it tells. -/
theorem Chronicle.step [Strategy σ] (chronicle : w.Chronicle entries) {S : Subject → Prop}
    (evolves : w.Evolves S w') (tells : w.Tells w') : ∃ entries', w'.Chronicle entries' := by
  have running : w'.isOver = false → w.isOver = false := by
    intro running
    by_contra ceased
    have ceased : w.isOver = true := by simpa using ceased
    rw [isOver_of_outcome (evolves.controller.final ceased).1, ceased] at running
    cases running
  have concerns : ∀ event entry, w.Concerns event entry → w'.Concerns event entry := by
    rintro event entry ⟨core, found, rfl⟩
    obtain ⟨core', found', becomes⟩ := evolves.cores _ core found
    exact ⟨core', found', by rw [becomes.id]⟩
  have events := chronicle.events.imp concerns
  rcases tells with same | ⟨c, notice, announces⟩
  · have lifecycle : w'.lifecycle = w.lifecycle := congrArg Prod.fst same
    have due : w'.due = w.due := congrArg Prod.snd same
    exact ⟨entries, lifecycle ▸ events, due ▸ chronicle.due,
      fun goesOn => due ▸ chronicle.whole (running goesOn)⟩
  · obtain ⟨core, found, lifecycle⟩ := announces.told
    rw [lifecycle_observe] at lifecycle
    cases ceased : w.isOver with
    | true =>
      rw [ceased, if_pos rfl] at lifecycle
      refine ⟨entries, lifecycle ▸ events, fun d => ?_, fun goesOn => ?_⟩
      · by_cases own : d = c
        · rw [own, announces.due]
          exact (chronicle.due c).trans (List.suffix_cons _ _)
        · rw [announces.others d own]
          exact chronicle.due d
      · rw [running goesOn] at ceased
        cases ceased
    | false =>
      rw [ceased, if_neg Bool.false_ne_true] at lifecycle
      have whole : ∀ d, history ((c, notice) :: entries) d = w'.due d := by
        intro d
        by_cases own : d = c
        · rw [own, history_cons_self, announces.due, chronicle.whole ceased]
        · rw [history_cons_of_ne entries notice own, announces.others d own, chronicle.whole ceased]
      refine ⟨(c, notice) :: entries, ?_, fun d => whole d ▸ List.suffix_rfl, fun _ => whole⟩
      rw [lifecycle]
      exact .cons ⟨core, found, rfl⟩ events

/-! ## What is told of one identity -/

/-- No monitor with the identity has halted. -/
def Unwatched (w : World σ) (id : ActorId) : Prop :=
  ∀ m core, w.core? (.monitor m) = some core → core.halted = true → core.id.same id = false

theorem due_actor (w : World σ) (i : Nat) : w.due (.actor i) <:+ [.destroyed, .created] := by
  unfold due
  cases w.core? (.actor i) with
  | none => exact List.nil_suffix
  | some core => cases halted : core.halted <;> simp [Core.due, halted, Subject.kind]

theorem due_monitor (w : World σ) (m : Nat) : w.due (.monitor m) <:+ [.destroyed] := by
  unfold due
  cases w.core? (.monitor m) with
  | none => exact List.nil_suffix
  | some core => cases halted : core.halted <;> simp [Core.due, halted, Subject.kind]

theorem mem_history {c : Subject} {notice : Notice} (mem : (c, notice) ∈ entries) :
    notice ∈ history entries c :=
  List.mem_map.2 ⟨(c, notice), List.mem_filter.2 ⟨mem, by simp⟩, rfl⟩

/-- Events and entries that are picked together tell the same. -/
theorem map_notice_filter {events : List LifecycleEvent} {p : LifecycleEvent → Bool}
    {q : Subject × Notice → Bool} (concerns : List.Forall₂ w.Concerns events entries)
    (agree : ∀ event, ∀ entry ∈ entries, w.Concerns event entry → p event = q entry) :
    (events.filter p).map (·.notice) = (entries.filter q).map (·.2) := by
  induction concerns with
  | nil => rfl
  | @cons event entry events entries concern _ ih =>
    have ih := ih fun event entry mem => agree event entry (List.mem_cons_of_mem _ mem)
    rw [List.filter_cons, List.filter_cons, agree event entry List.mem_cons_self concern]
    obtain ⟨core, _, rfl⟩ := concern
    split
    · simpa using ih
    · exact ih

namespace Chronicle

variable (chronicle : w.Chronicle entries)
include chronicle

/-- Only actors are announced as created, and nothing is told of a monitor until it has halted. -/
theorem of_mem {entry : Subject × Notice} (mem : entry ∈ entries) :
    (∃ i, entry.1 = .actor i) ∨ entry.2 = .destroyed ∧
      ∃ m core, entry.1 = .monitor m ∧ w.core? (.monitor m) = some core ∧ core.halted = true := by
  obtain ⟨c, notice⟩ := entry
  have due := (chronicle.due c).subset (mem_history mem)
  cases c with
  | actor i => exact .inl ⟨i, rfl⟩
  | monitor m =>
    refine .inr ⟨by simpa using (w.due_monitor m).subset due, m, ?_⟩
    unfold World.due at due
    cases found : w.core? (.monitor m) with
    | none => simp [found] at due
    | some core =>
      cases halted : core.halted with
      | true => exact ⟨core, rfl, rfl, halted⟩
      | false => simp [found, Core.due, halted, Subject.kind] at due

/-- What is told of an identity is told of the one actor that has it, as far as it is told of actors. -/
private theorem filter_told (named : w.Named) (id : ActorId) (r : Notice → Bool)
    (actors : ∀ entry ∈ entries, ∀ core, w.core? entry.1 = some core → core.id.same id = true →
      r entry.2 = true → ∃ i, entry.1 = .actor i) :
    (told id w.lifecycle).filter r = [] ∨ ∃ i core, w.core? (.actor i) = some core ∧
      core.id.same id = true ∧
        (told id w.lifecycle).filter r = (history entries (.actor i)).filter r := by
  have events : (told id w.lifecycle).filter r =
      (w.lifecycle.filter fun event => r event.notice && event.id.same id).map (·.notice) := by
    rw [told, List.filter_map, List.filter_filter]
    rfl
  by_cases owned : ∃ i core, w.core? (.actor i) = some core ∧ core.id.same id = true
  · obtain ⟨i, core, found, own⟩ := owned
    refine .inr ⟨i, core, found, own, ?_⟩
    rw [events, history, List.filter_map, List.filter_filter]
    refine map_notice_filter chronicle.events ?_
    rintro _ ⟨c, notice⟩ mem ⟨core', found', rfl⟩
    cases picked : r notice with
    | false => simp [picked]
    | true =>
      simp only [Notice.notice_of, Notice.id_of, Function.comp, picked, Bool.true_and]
      rw [Bool.eq_iff_iff, decide_eq_true_iff]
      constructor
      · intro same
        obtain ⟨j, rfl⟩ : ∃ j, c = .actor j := actors _ mem core' found' same picked
        rw [named.unique found' found (ActorId.same_equivalence.trans same
          (ActorId.same_equivalence.symm own))]
      · rintro rfl
        cases found.symm.trans found'
        exact own
  · left
    rw [events, map_notice_filter (q := fun _ => false) chronicle.events ?_]
    · simp
    · rintro _ ⟨c, notice⟩ mem ⟨core, found, rfl⟩
      by_contra picks
      simp only [Notice.notice_of, Notice.id_of, Bool.not_eq_false, Bool.and_eq_true] at picks
      obtain ⟨i, rfl⟩ : ∃ i, c = .actor i := actors _ mem core found picks.2 picks.1
      exact owned ⟨i, core, found, picks.2⟩

/-- Of an identity at most that it was created and then that it was destroyed is told, and only if an
actor has it, unless a monitor that has it has halted. -/
theorem told_suffix (named : w.Named) {id : ActorId} (unwatched : w.Unwatched id) :
    told id w.lifecycle = [] ∨ told id w.lifecycle <:+ [.destroyed, .created] ∧
      ∃ i core, w.core? (.actor i) = some core ∧ core.id.same id = true := by
  have actors : ∀ entry ∈ entries, ∀ core, w.core? entry.1 = some core → core.id.same id = true →
      true = true → ∃ i, entry.1 = .actor i := by
    intro entry mem core found same _
    rcases chronicle.of_mem mem with own | ⟨_, m, core', own, found', halted⟩
    · exact own
    · rw [own, found'] at found
      cases found
      rw [unwatched m core found' halted] at same
      cases same
  rcases chronicle.filter_told named id (fun _ => true) actors with
    none | ⟨i, core, found, own, same⟩
  · exact .inl (by simpa using none)
  · refine .inr ⟨?_, i, core, found, own⟩
    rw [List.filter_true, List.filter_true] at same
    rw [same]
    exact (chronicle.due (.actor i)).trans (w.due_actor i)

/-- An identity is announced as created no more than once, and only if an actor has it. -/
theorem count_created (named : w.Named) (id : ActorId) :
    (told id w.lifecycle).count .created = 0 ∨ (told id w.lifecycle).count .created ≤ 1 ∧
      ∃ i core, w.core? (.actor i) = some core ∧ core.id.same id = true := by
  have actors : ∀ entry ∈ entries, ∀ core, w.core? entry.1 = some core → core.id.same id = true →
      (entry.2 == .created) = true → ∃ i, entry.1 = .actor i := by
    intro entry mem core _ _ created
    rcases chronicle.of_mem mem with own | ⟨destroyed, _⟩
    · exact own
    · rw [destroyed] at created
      cases created
  have counts : ∀ notices : List Notice,
      notices.count .created = (notices.filter (· == .created)).length :=
    fun notices => List.countP_eq_length_filter
  rcases chronicle.filter_told named id (· == .created) actors with
    none | ⟨i, core, found, own, same⟩
  · exact .inl (by rw [counts, none]; rfl)
  · refine .inr ⟨?_, i, core, found, own⟩
    rw [counts, same, ← counts]
    exact ((chronicle.due (.actor i)).trans (w.due_actor i)).sublist.count_le .created

end Chronicle

end World

/-! ## Explorations -/

namespace Experiment

variable [Strategy σ] (e : Experiment)

/-- At any time of an iteration there is a chronicle of what has been told. -/
theorem exists_chronicle (accepted : e.registry.Accepted) (ids : Allocator) (s : σ) (n : Nat) :
    ∃ entries, (e.iterate n ids s).Chronicle entries := by
  induction n with
  | zero =>
    have due : ∀ c, (e.iterate 0 ids s).due c = [] := by
      intro c
      cases c <;> rfl
    exact ⟨[], .nil, fun c => List.nil_suffix, fun _ c => (due c).symm⟩
  | succ n ih =>
    obtain ⟨entries, chronicle⟩ := ih
    rw [e.iterate_succ]
    cases moved : (e.iterate n ids s).step? with
    | none => exact ⟨entries, chronicle⟩
    | some w =>
      have evolves := ((e.reached n ids s).orderly accepted).evolves (World.moves_of_step? moved)
      refine chronicle.step evolves ?_
      rcases World.of_step? moved with ⟨t, _, does⟩ | ⟨_, clock, rfl⟩
      · exact World.tells_of_stepThread? does
      · exact .inl (World.heard_of_parts rfl rfl rfl)

/-- The worlds that an exploration leaves, iteration after iteration. The last one may not have come to
its end. -/
def worlds (e : Experiment) (fuel : Nat) (strategy : σ) (ids : Allocator) (iteration : Nat) :
    Nat → List (World σ)
  | 0 => []
  | remaining + 1 =>
    let (goesOn, strategy) := Strategy.prepare strategy iteration
    if !goesOn then []
    else
      let w := e.iterate fuel (if iteration = 0 then ids else ids.nextGeneration) strategy
      match w.controller.outcome, w.controller.strategy with
      | some outcome, some strategy =>
        if isFinal outcome then [w]
        else w :: e.worlds fuel strategy w.ids (iteration + 1) remaining
      | _, _ => [w]

/-- All that observers are told in an exploration. -/
def announcements (e : Experiment) (fuel : Nat) (strategy : σ) (ids : Allocator)
    (iteration remaining : Nat) : List LifecycleEvent :=
  (e.worlds fuel strategy ids iteration remaining).flatMap (·.lifecycle.reverse)

/-- What an exploration reports is what observers are told. -/
theorem lifecycle_of_explore {fuel : Nat} {strategy : σ} {ids : Allocator}
    {iteration remaining : Nat} {findings : Findings}
    (explored : e.explore fuel strategy ids iteration remaining = .ok findings) :
    findings.lifecycle = e.announcements fuel strategy ids iteration remaining := by
  unfold announcements
  induction remaining generalizing strategy ids iteration findings with
  | zero =>
    cases explored
    rfl
  | succ remaining ih =>
    simp only [explore] at explored
    simp only [worlds]
    split
    · next stops =>
      rw [if_pos stops] at explored
      cases explored
      rfl
    · next goesOn =>
      rw [if_neg goesOn] at explored
      generalize e.iterate fuel (if iteration = 0 then ids else ids.nextGeneration)
        (Strategy.prepare strategy iteration).2 = w at explored ⊢
      cases ended : w.controller.outcome with
      | none =>
        simp only [ended] at explored
        cases explored
      | some outcome =>
        cases left : w.controller.strategy with
        | none =>
          simp only [ended, left] at explored
          cases explored
        | some next =>
          simp only [ended, left] at explored ⊢
          split
          · next final =>
            rw [if_pos final] at explored
            cases explored
            simp [Findings.after]
          · next more =>
            rw [if_neg more] at explored
            cases later : e.explore fuel next w.ids (iteration + 1) remaining with
            | error =>
              simp only [later] at explored
              cases explored
            | ok findings =>
              simp only [later] at explored
              cases explored
              rw [List.flatMap_cons, ← ih later]
              rfl

/-- Where an iteration begins the world has the generation that it ends with. -/
theorem generation_iterate (accepted : e.registry.Accepted) (ids : Allocator) (s : σ) (n : Nat) :
    (e.iterate n ids s).ids.generation = ids.generation :=
  (e.evolves accepted ids s (Nat.zero_le n)).ids.generation

/-- Every world that is left is that of an iteration, and each has a later generation than those
before. -/
theorem worlds_ascend (accepted : e.registry.Accepted) (fuel : Nat) (strategy : σ)
    (ids : Allocator) (iteration remaining : Nat) :
    (∀ w ∈ e.worlds fuel strategy ids iteration remaining,
      (if iteration = 0 then ids else ids.nextGeneration).generation ≤ w.ids.generation ∧
        ∃ ids s, w = e.iterate fuel ids s) ∧
    (e.worlds fuel strategy ids iteration remaining).Pairwise
      fun w w' => w.ids.generation < w'.ids.generation := by
  induction remaining generalizing strategy ids iteration with
  | zero => simp [worlds]
  | succ remaining ih =>
    simp only [worlds]
    split
    · simp
    · have own := e.generation_iterate accepted (if iteration = 0 then ids else ids.nextGeneration)
        (Strategy.prepare strategy iteration).2 fuel
      have iterates : ∃ ids' s, e.iterate fuel (if iteration = 0 then ids else ids.nextGeneration)
          (Strategy.prepare strategy iteration).2 = e.iterate fuel ids' s := ⟨_, _, rfl⟩
      generalize e.iterate fuel (if iteration = 0 then ids else ids.nextGeneration)
        (Strategy.prepare strategy iteration).2 = w at own iterates
      have first := Nat.le_of_eq own.symm
      split
      · next outcome next ended left =>
        split
        · exact ⟨List.forall_mem_singleton.2 ⟨first, iterates⟩, List.pairwise_singleton _ _⟩
        · obtain ⟨later, ascend⟩ := ih next w.ids (iteration + 1)
          rw [if_neg (Nat.succ_ne_zero iteration)] at later
          refine ⟨List.forall_mem_cons.2 ⟨⟨first, iterates⟩, fun w' mem => ?_⟩,
            List.pairwise_cons.2 ⟨fun w' mem => (later w' mem).1, ascend⟩⟩
          exact ⟨Nat.le_trans first (Nat.le_of_succ_le (later w' mem).1), (later w' mem).2⟩
      · exact ⟨List.forall_mem_singleton.2 ⟨first, iterates⟩, List.pairwise_singleton _ _⟩

/-- Actors have identities of the generation of their iteration. -/
theorem generation_of_actor (accepted : e.registry.Accepted) {ids : Allocator} {s : σ} {n i : Nat}
    {core : Core} (found : (e.iterate n ids s).core? (.actor i) = some core) {id : ActorId}
    (same : core.id.same id = true) : id.generation = (e.iterate n ids s).ids.generation := by
  obtain ⟨_, made, _, _, _, own, becomes⟩ :=
    (e.evolves accepted ids s (Nat.zero_le n)).fresh (.actor i) core rfl found
  have here := (own rfl).1
  rw [show made = core.id from becomes.id.symm] at here
  rw [ActorId.same_iff_key] at same
  have generations : core.id.generation = id.generation := by
    unfold ActorId.key at same
    split at same <;> split at same <;> simp_all
  rw [← generations, here]

omit [Strategy σ] in
theorem told_reverse (id : ActorId) (events : List LifecycleEvent) :
    told id events.reverse = (told id events).reverse := by
  simp [told, List.filter_reverse]

omit [Strategy σ] in
/-- If no two worlds have something to tell, all of it comes from one. -/
private theorem flatMap_of_alone {ws : List (World σ)} {f : World σ → List Notice}
    (alone : ws.Pairwise fun w w' => f w = [] ∨ f w' = []) :
    ws.flatMap f = [] ∨ ∃ w ∈ ws, ws.flatMap f = f w := by
  induction ws with
  | nil => exact .inl rfl
  | cons w ws ih =>
    obtain ⟨apart, alone⟩ := List.pairwise_cons.1 alone
    rw [List.flatMap_cons]
    by_cases silent : f w = []
    · rw [silent, List.nil_append]
      exact (ih alone).imp_right fun ⟨w', mem, same⟩ => ⟨w', List.mem_cons_of_mem w mem, same⟩
    · have rest : ws.flatMap f = [] :=
        List.flatMap_eq_nil_iff.2 fun w' mem => (apart w' mem).resolve_left silent
      exact .inr ⟨w, List.mem_cons_self, by rw [rest, List.append_nil]⟩

/-- In an exploration observers are told of the creation of an identity at most once. Unless a monitor
that has the identity halts, they are told of its destruction at most once, and not before its
creation. -/
theorem announced_in_brackets (accepted : e.registry.Accepted) (fuel : Nat) (strategy : σ)
    (ids : Allocator) (iteration remaining : Nat) (id : ActorId) :
    let announced := told id (e.announcements fuel strategy ids iteration remaining)
    announced.count .created ≤ 1 ∧
      ((∀ w ∈ e.worlds fuel strategy ids iteration remaining, w.Unwatched id) →
        announced <+: [.created, .destroyed]) ∧
      ∀ findings, e.explore fuel strategy ids iteration remaining = .ok findings →
        told id findings.lifecycle = announced := by
  obtain ⟨iterates, ascend⟩ := e.worlds_ascend accepted fuel strategy ids iteration remaining
  have total : told id (e.announcements fuel strategy ids iteration remaining) =
      (e.worlds fuel strategy ids iteration remaining).flatMap
        fun w => (told id w.lifecycle).reverse := by
    rw [announcements, told, List.filter_flatMap, List.map_flatMap]
    exact congrArg (fun f => List.flatMap f _) (funext fun w => told_reverse id w.lifecycle)
  -- of each identity something is told in one generation only
  have alone : ∀ f : World σ → List Notice,
      (∀ w ∈ e.worlds fuel strategy ids iteration remaining, f w ≠ [] →
        ∃ i core, w.core? (.actor i) = some core ∧ core.id.same id = true) →
      (e.worlds fuel strategy ids iteration remaining).Pairwise fun w w' => f w = [] ∨ f w' = [] := by
    intro f owned
    refine ascend.imp_of_mem fun {w w'} mem mem' before => ?_
    by_contra both
    rw [not_or] at both
    obtain ⟨_, _, found, same⟩ := owned w mem both.1
    obtain ⟨_, _, found', same'⟩ := owned w' mem' both.2
    obtain ⟨_, _, rfl⟩ := (iterates w mem).2
    obtain ⟨_, _, rfl⟩ := (iterates w' mem').2
    have here := e.generation_of_actor accepted found same
    have there := e.generation_of_actor accepted found' same'
    omega
  have chronicles : ∀ w ∈ e.worlds fuel strategy ids iteration remaining,
      w.Named ∧ ∃ entries, w.Chronicle entries := by
    intro w mem
    obtain ⟨ids, s, rfl⟩ := (iterates w mem).2
    exact ⟨e.named accepted ids s fuel, e.exists_chronicle accepted ids s fuel⟩
  refine ⟨?_, fun unwatched => ?_, fun findings explored => ?_⟩
  · have creations : ∀ notices : List Notice,
        notices.count .created = (notices.filter (· == .created)).length :=
      fun notices => List.countP_eq_length_filter
    have once : ∀ w ∈ e.worlds fuel strategy ids iteration remaining,
        (told id w.lifecycle).count .created = 0 ∨ (told id w.lifecycle).count .created ≤ 1 ∧
          ∃ i core, w.core? (.actor i) = some core ∧ core.id.same id = true := by
      intro w mem
      obtain ⟨named, entries, chronicle⟩ := chronicles w mem
      exact chronicle.count_created named id
    rw [creations, total, List.filter_flatMap]
    have single := flatMap_of_alone (alone
      (fun w => (told id w.lifecycle).reverse.filter (· == .created)) fun w mem some => by
        rcases once w mem with none | ⟨_, owned⟩
        · rw [← List.count_reverse, creations] at none
          exact absurd (List.length_eq_zero_iff.1 none) some
        · exact owned)
    rcases single with none | ⟨w, mem, one⟩
    · rw [none]
      exact Nat.zero_le 1
    · rw [one, ← creations, List.count_reverse]
      rcases once w mem with none | ⟨le, _⟩ <;> omega
  · have brackets : ∀ w ∈ e.worlds fuel strategy ids iteration remaining,
        told id w.lifecycle = [] ∨ told id w.lifecycle <:+ [.destroyed, .created] ∧
          ∃ i core, w.core? (.actor i) = some core ∧ core.id.same id = true := by
      intro w mem
      obtain ⟨named, entries, chronicle⟩ := chronicles w mem
      exact chronicle.told_suffix named (unwatched w mem)
    simp only [total]
    have single := flatMap_of_alone (alone (fun w => (told id w.lifecycle).reverse)
      fun w mem some => by
        rcases brackets w mem with none | ⟨_, owned⟩
        · simp [none] at some
        · exact owned)
    rcases single with none | ⟨w, mem, one⟩
    · rw [none]
      exact List.nil_prefix
    · rw [one]
      rcases brackets w mem with none | ⟨suffix, _⟩
      · rw [none]
        exact List.nil_prefix
      · exact List.reverse_prefix.2 suffix
  · rw [e.lifecycle_of_explore explored]

private def rests : StateDescriptor := ⟨"Init", true, none, none, none, []⟩

private def sleeper : Declaration :=
  { typeTag := "Sleeper", kind := .machine, inherited := [], observes := [], derived := [rests] }

private def sleeperDescriptor : Descriptor := ⟨"Sleeper", .machine, [rests], rests, []⟩

/-- The test creates a machine and sends it the event that halts it. -/
def dismissing : Experiment where
  settings := .exploration
  registry := ⟨Timer.descriptors ++ [sleeperDescriptor]⟩
  test :=
    .ask .own (.create "Sleeper" none none false) fun
      | .ok (.actor id) => .ask .own (.send id (.ofType .halt)) fun _ => .finish {} .ok
      | _ => .finish {} .ok

private def turnsOfDismissing : ScriptedStrategy := .ofAnswers [.ok 1, .ok 0, .ok 1, .ok 0]

private theorem accepted_dismissing : dismissing.registry.Accepted := by
  have built : sleeper.build = .ok sleeperDescriptor :=
    Declaration.build_of_plain (by decide) rfl rfl rfl rfl rfl
  exact ⟨[sleeperDescriptor], by simpa using ⟨sleeper, built⟩, rfl⟩

private def dismissed : ActorId := ⟨0, "", "Sleeper", "Sleeper(0)", 0⟩

private theorem unwatched_dismissing (id : ActorId) :
    ∀ w ∈ dismissing.worlds 40 turnsOfDismissing ⟨0, 0⟩ 0 1, w.Unwatched id := by
  have unmonitored : (dismissing.worlds 40 turnsOfDismissing ⟨0, 0⟩ 0 1).all
      (·.monitors.isEmpty) = true := rfl
  intro w mem m core found
  have none := List.isEmpty_iff.1 (List.all_eq_true.1 unmonitored w mem)
  simp [World.core?, none] at found

/-- Observers are told that the machine was created and then that it was destroyed. -/
theorem announced_in_brackets_dismissing :
    told dismissed (dismissing.announcements 40 turnsOfDismissing ⟨0, 0⟩ 0 1) =
        [.created, .destroyed] ∧
      told dismissed (dismissing.announcements 40 turnsOfDismissing ⟨0, 0⟩ 0 1) <+:
        [.created, .destroyed] ∧
      ∃ findings, dismissing.explore 40 turnsOfDismissing ⟨0, 0⟩ 0 1 = .ok findings ∧
        told dismissed findings.lifecycle = [.created, .destroyed] := by
  obtain ⟨_, brackets, reports⟩ :=
    announced_in_brackets dismissing accepted_dismissing 40 turnsOfDismissing ⟨0, 0⟩ 0 1 dismissed
  have both : told dismissed (dismissing.announcements 40 turnsOfDismissing ⟨0, 0⟩ 0 1) =
      [.created, .destroyed] := by decide +kernel
  have explored : ∃ findings, dismissing.explore 40 turnsOfDismissing ⟨0, 0⟩ 0 1 = .ok findings :=
    ⟨_, rfl⟩
  obtain ⟨findings, explored⟩ := explored
  exact ⟨both, brackets (unwatched_dismissing dismissed), findings, explored,
    (reports findings explored).trans both⟩

end Experiment

end SteeredActors
