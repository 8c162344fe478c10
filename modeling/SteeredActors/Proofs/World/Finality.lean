import SteeredActors.Exploration
import SteeredActors.Proofs.Controller.Turn
import SteeredActors.Proofs.World.Requests

/-!
# Ended runs stay ended

Whatever a thread does after the run has ended, the outcome is the same afterwards.
-/

set_option autoImplicit false
set_option relaxedAutoImplicit false

namespace SteeredActors

variable {σ : Type}

/-- Something holds of the world that a move leads to. -/
@[simp] def Move.All (P : World σ → Prop) : Move σ → Prop
  | .wait => True
  | .go _ w => P w
  | .answer _ w => P w

/-- Something holds of the world that a service leads to. -/
@[simp] def Service.All (P : World σ → Prop) : Service σ → Prop
  | .now _ w => P w
  | .later _ w => P w

namespace World

/-! ## Functions that do not touch the controller -/

section Controllers

variable (w : World σ)

@[simp] theorem controller_note (who text : String) :
    (w.note who text).controller = w.controller := by
  unfold note
  split <;> rfl

@[simp] theorem controller_observe (event : LifecycleEvent) :
    (w.observe event).controller = w.controller := by
  unfold observe
  split <;> rfl

@[simp] theorem controller_modifyActor (i : Nat) (f : Actor → Actor) :
    (w.modifyActor i f).controller = w.controller := rfl

@[simp] theorem controller_modifyMonitor (m : Nat) (f : Monitor → Monitor) :
    (w.modifyMonitor m f).controller = w.controller := rfl

@[simp] theorem controller_modifySleeper (j : Nat) (f : Sleeper → Sleeper) :
    (w.modifySleeper j f).controller = w.controller := rfl

@[simp] theorem controller_modifyCore (c : Subject) (f : Core → Core) :
    (w.modifyCore c f).controller = w.controller := by
  cases c <;> rfl

@[simp] theorem controller_setStack (c : Subject) (stack : List ActiveState) :
    (w.setStack c stack).controller = w.controller := by
  simp [setStack]

@[simp] theorem controller_setThread (t : ThreadId) (thread : Thread) :
    (w.setThread t thread).controller = w.controller := by
  cases t <;> rfl

@[simp] theorem controller_openRendezvous (caller : Option Nat) :
    (w.openRendezvous caller).2.controller = w.controller := rfl

@[simp] theorem controller_startSleeper (info : TimerInfo) :
    (w.startSleeper info).controller = w.controller := rfl

@[simp] theorem controller_stopSleeper (core : Option Core) :
    (w.stopSleeper core).controller = w.controller := by
  cases core <;> rfl

end Controllers

/-! ## Functions that do not touch the outcome -/

section Outcomes

variable (w : World σ)

@[simp] theorem outcome_reply (r : Nat) (handled : Bool) :
    (w.reply r handled).controller.outcome = w.controller.outcome := by
  unfold reply
  split
  · next waiter _ => cases waiter <;> rfl
  · rfl

@[simp] theorem outcome_replyAll (rs : List Nat) (handled : Bool) :
    (w.replyAll rs handled).controller.outcome = w.controller.outcome := by
  unfold replyAll
  induction rs generalizing w with
  | nil => rfl
  | cons r rs ih =>
    rw [List.foldl_cons, ih]
    exact outcome_reply w r handled

theorem outcome_replyEach (pending : List (Nat × Bool)) :
    (pending.foldl (fun w (r, handled) => w.reply r handled) w).controller.outcome =
      w.controller.outcome := by
  induction pending generalizing w with
  | nil => rfl
  | cons p pending ih =>
    rw [List.foldl_cons, ih]
    exact outcome_reply w p.1 p.2

@[simp] theorem outcome_discard (envelopes : List Envelope) :
    (w.discard envelopes).controller.outcome = w.controller.outcome := by
  simp [discard]

@[simp] theorem outcome_blockCaller (caller : Option Nat) :
    (w.blockCaller caller).controller.outcome = w.controller.outcome := by
  unfold blockCaller
  cases caller with
  | none => rfl
  | some op =>
    simp only
    split <;> rfl

@[simp] theorem outcome_enqueue (i : Nat) (envelope : Envelope) :
    (w.enqueue i envelope).controller.outcome = w.controller.outcome := by
  unfold enqueue
  split
  · rfl
  · next a _ =>
    cases a.mailbox.enqueue envelope with
    | mk arrival mailbox => cases arrival <;> simp [Controller.enable]

@[simp] theorem outcome_abandon (i : Nat) :
    (w.abandon i).controller.outcome = w.controller.outcome := by
  unfold abandon
  split <;> simp

@[simp] theorem outcome_halt (c : Subject) :
    (w.halt c).controller.outcome = w.controller.outcome := by
  unfold halt
  split
  · rfl
  · split
    · rfl
    · cases c <;> simp

@[simp] theorem outcome_addActor (id : ActorId) (descriptor : Descriptor) (event : Option Event)
    (rendezvous : Option Nat) :
    (w.addActor id descriptor event rendezvous).controller.outcome = w.controller.outcome := by
  simp [addActor, Controller.register]

@[simp] theorem outcome_comeToRest (i : Nat) (a : Actor) :
    (w.comeToRest i a).All fun w' => w'.controller.outcome = w.controller.outcome := by
  simp [comeToRest, Move.All, outcome_replyEach]

end Outcomes

/-! ## Ended runs -/

section Over

variable {w : World σ} (ceased : w.isOver = true)
include ceased

theorem report_of_isOver (report : BugReport) : w.report report = w := by
  simp [World.report, Controller.reportBug, Controller.terminate,
    Controller.finish_of_isOver ceased]

private theorem outcome_failAssertion (actor : Option ActorId) (message : String) :
    (w.failAssertion actor message).2 = w := by
  simp [failAssertion, report_of_isOver ceased]

private theorem outcome_create (caller : Option Nat) (typeTag : String) (name : Option String)
    (event : Option Event) (execute : Bool) :
    (w.create caller typeTag name event execute).All
      fun w' => w'.controller.outcome = w.controller.outcome := by
  have created := w.ofCreation caller typeTag name event execute
  generalize w.create caller typeTag name event execute = service at created
  cases created with
  | refused | taken => rfl
  | overflows => simp [refuse, Service.All, report_of_isOver ceased]
  | populates => cases execute <;> simp [populate, Service.All]

private theorem outcome_sendAndExecute (caller : Option Nat) (target : ActorId) (event : Event) :
    (w.sendAndExecute caller target event).All
      fun w' => w'.controller.outcome = w.controller.outcome := by
  have sent := w.ofRendezvous caller target event
  generalize w.sendAndExecute caller target event = service at sent
  cases sent with
  | refused | brings => rfl
  | fails => simp [refuse, Service.All, report_of_isOver ceased]

private theorem outcome_serveDemand (context : Option (Subject × Phase × Core)) (d : Demand) :
    (w.serveDemand context d).All fun w' => w'.controller.outcome = w.controller.outcome := by
  have demanded := w.ofDemand context d
  generalize w.serveDemand context d = service at demanded
  cases demanded with
  | nobody => rfl
  | fails => simp [refuse, Service.All, report_of_isOver ceased]
  | kept => simp [Service.All]

/-- Every request leaves the outcome of an ended run. -/
theorem outcome_serve [Strategy σ] (caller : Option Nat) (speaker : Speaker) (voice : Voice)
    (request : Request) :
    (w.serve caller speaker voice request).All
      fun w' => w'.controller.outcome = w.controller.outcome := by
  have tasks : ∀ r, (w.serveTasks r).All
      fun w' => w'.controller.outcome = w.controller.outcome := by
    intro r
    cases r <;> rfl
  have ended : ∀ outcome, (w.controller.terminate outcome).2.outcome = w.controller.outcome := by
    intro outcome
    simp [Controller.terminate, Controller.finish_of_isOver ceased]
  cases request <;> simp only [serve]
  case send | stopTimer => split <;> [rfl; exact tasks _]
  case registerMonitor => exact tasks _
  case sendAndExecute => split <;> [rfl; exact outcome_sendAndExecute ceased _ _ _]
  case create => split <;> [rfl; exact outcome_create ceased _ _ _ _ _]
  case raise | goto | push | pop => exact outcome_serveDemand ceased _ _
  case startTimer =>
    split
    · rfl
    · rfl
    · exact outcome_create ceased _ _ _ _ _
  case assert holds message =>
    unfold assert
    split
    · rfl
    · split
      · rfl
      · simp [refuse, Service.All, outcome_failAssertion ceased]
  case randomBool => simp [randomBool, Controller.nextBool_of_isOver ceased, refuse, Service.All]
  case randomInt => simp [randomInt, Controller.nextInt_of_isOver ceased, refuse, Service.All]
  case monitor => split <;> rfl
  case waitForQuiescence => split <;> rfl
  case shutdown | terminate => exact ended _
  case reportBug => simp [Service.All, report_of_isOver ceased]
  case access => split <;> rfl
  all_goals simp [Service.All]

/-! ## Tasks -/

omit ceased in
private theorem outcome_withCore {w₀ : World σ} {c : Subject} {f : Core → Move σ}
    (h : ∀ core, (f core).All fun w' => w'.controller.outcome = w₀.controller.outcome)
    (kept : w.controller.outcome = w₀.controller.outcome) :
    (w.withCore c f).All fun w' => w'.controller.outcome = w₀.controller.outcome := by
  unfold withCore
  split
  · exact h _
  · exact kept

omit ceased in
private theorem outcome_withActor {i : Nat} {f : Actor → Move σ}
    (h : ∀ a, (f a).All fun w' => w'.controller.outcome = w.controller.outcome) :
    (w.withActor i f).All fun w' => w'.controller.outcome = w.controller.outcome := by
  unfold withActor
  split
  · exact h _
  · rfl

omit ceased in
private theorem outcome_withMonitor {m : Nat} {f : Monitor → Move σ}
    (h : ∀ a, (f a).All fun w' => w'.controller.outcome = w.controller.outcome) :
    (w.withMonitor m f).All fun w' => w'.controller.outcome = w.controller.outcome := by
  unfold withMonitor
  split
  · exact h _
  · rfl

omit ceased in
private theorem outcome_pushState (c : Subject) (core : Core) (s : StateDescriptor)
    (event : Option Event) : (w.pushState c core s event).All
      fun w' => w'.controller.outcome = w.controller.outcome := by
  simp [pushState, Move.All]

private theorem outcome_unwindAssertion (core : Core) (message : String) :
    (w.unwindAssertion core message).All
      fun w' => w'.controller.outcome = w.controller.outcome := by
  simp [unwindAssertion, unwind, Move.All, outcome_failAssertion ceased]

private theorem outcome_handle (c : Subject) (event : Event) (rendezvous : Option Nat) :
    (w.handle c event rendezvous).All fun w' => w'.controller.outcome = w.controller.outcome := by
  refine outcome_withCore (fun core => ?_) rfl
  split
  · simp [Move.All]
  · simp [Move.All]
  · have kept : (w.setStack c []).isOver = true := by simpa [isOver, Controller.isOver] using ceased
    simp only
    split
    · simp [Move.All]
    · simp [unwind, Move.All, report_of_isOver kept]

omit ceased in
private theorem outcome_obey {c : Subject} {core : Core} {again : Task} {otherwise : Move σ}
    (h : otherwise.All fun w' => w'.controller.outcome = w.controller.outcome) :
    (w.obey c core again otherwise).All fun w' => w'.controller.outcome = w.controller.outcome := by
  unfold obey
  split
  · exact h
  · simp [Move.All]

private theorem outcome_finishAction (c : Subject) (memory : Memory) (ending : Ending) :
    (w.finishAction c memory ending).All
      fun w' => w'.controller.outcome = w.controller.outcome := by
  have kept : (w.modifyCore c fun core => { core with memory }).isOver = true := by
    simpa [isOver] using ceased
  unfold finishAction
  simp only [kept, if_true]
  split
  · simp [Move.All]
  · simp [unwind, Move.All]
  · simp [unwind, Move.All]

private theorem outcome_finishTest (memory : Memory) (ending : Ending) :
    (w.finishTest memory ending).All fun w' => w'.controller.outcome = w.controller.outcome := by
  have kept : World.isOver { w with test := { w.test with memory, ending := some ending } } = true :=
    ceased
  unfold finishTest
  simp only [kept, Bool.true_or, if_true]
  cases ending with
  | ok => rfl
  | failed failure =>
    simp only
    split <;> rfl
  | panicked => rfl

omit ceased in
private theorem outcome_finishFiring (j : Nat) (ending : Ending) :
    (w.finishFiring j ending).All fun w' => w'.controller.outcome = w.controller.outcome := by
  unfold finishFiring
  split
  · split
    · simp [Move.All]
    · rfl
  · rfl

private theorem outcome_perform [Strategy σ] (t : ThreadId) (speaker : Speaker) (p : Program) :
    (w.perform t speaker p).All fun w' => w'.controller.outcome = w.controller.outcome := by
  cases p with
  | finish memory ending =>
    cases speaker with
    | action c phase => exact outcome_finishAction ceased c memory ending
    | test => exact outcome_finishTest ceased memory ending
    | sleeper j => exact outcome_finishFiring j ending
  | ask voice request next =>
    simp only [perform]
    split
    · rfl
    · next thread _ =>
      have served := outcome_serve ceased
        (if (thread.outside || voice == .outsider) = true then none else w.operation? t)
        speaker voice request
      split
      · next found => rw [found] at served; exact served
      · next found =>
        rw [found] at served
        simpa using served

/-- Whatever task is done after the end of a run, the outcome stays. -/
theorem outcome_exec [Strategy σ] (t : ThreadId) (task : Task) :
    (w.exec t task).All fun w' => w'.controller.outcome = w.controller.outcome := by
  cases task <;> simp only [exec]
  case firstTurn | rest => 
    refine outcome_withActor fun a => ?_
    split <;> simp [Move.All]
  case wake => 
    refine outcome_withActor fun a => ?_
    split
    · rfl
    · simp only
      split <;> simp [Move.All]
  case cycle => simp [cycleActor, ceased, unwind, Move.All]
  case retire kind =>
    split
    · exact Controller.outcome_complete ceased _ _
    · rfl
  case start => exact outcome_withCore (fun core => outcome_pushState _ _ _ _) rfl
  case handle => exact outcome_handle ceased _ _ _
  case settle i r handled =>
    refine outcome_withActor fun a => ?_
    simp only [Move.All]
    split <;> simp
  case invoke => exact outcome_withCore (fun core => rfl) rfl
  case switch =>
    refine outcome_withCore (fun core => ?_) rfl
    split <;> simp [Move.All]
  case enter =>
    refine outcome_withCore (fun core => ?_) rfl
    split
    · exact outcome_pushState _ _ _ _
    · exact outcome_unwindAssertion ceased _ _
  case pop =>
    refine outcome_withCore (fun core => ?_) rfl
    split
    · exact outcome_unwindAssertion ceased _ _
    · rfl
  case dropTop => exact outcome_withCore (fun core => by simp [Move.All]) rfl
  case forward => split <;> simp
  case notify =>
    split
    · trivial
    · split <;> simp [unwind]
  case deliver =>
    refine outcome_withMonitor fun monitor => ?_
    split
    · trivial
    · split
      · rfl
      · simp only
        split
        · split <;> simp
        · simp
  case drain =>
    refine outcome_withMonitor fun monitor => ?_
    split
    · rfl
    · exact outcome_obey rfl
  case defaults =>
    refine outcome_withMonitor fun monitor => ?_
    split
    · split <;> rfl
    · rfl
  case release | enlist => simp
  case install =>
    unfold install
    split
    · trivial
    · split <;> simp [unwind]
  case listMonitors => split <;> simp
  case readMonitor =>
    unfold readMonitor
    split
    · trivial
    · split
      · rfl
      · refine outcome_withMonitor fun monitor => ?_
        split <;> simp
  case post => simp
  case engage => simp [engage]
  case collect | answer => rfl
  case await =>
    unfold awaitReply
    split
    · rfl
    · simp [ceased, unwind]
  case point => simp [ceased, unwind]
  case pass kind =>
    split
    · simp [Controller.outcome_schedule ceased]
    · rfl
  case turn =>
    split
    · unfold follow
      split <;> simp [unwind]
    · rfl
  case touch => split <;> rfl
  case awaitHalted => simp [ceased, unwind]
  case awaitQuiescence =>
    unfold follow
    split <;> simp [unwind]
  case sleep =>
    unfold sleep
    split
    · rfl
    · simp [ceased]
  case perform => exact outcome_perform ceased t _ _
  case resume => split <;> simp

/-! ## Steps -/

omit ceased in
theorem outcome_deliverAnswer (w : World σ) (t : ThreadId) (a : Answer)
    (tasks : List Task) :
    (w.deliverAnswer t a tasks).controller.outcome = w.controller.outcome := by
  fun_induction deliverAnswer w t a tasks with
  | case1 => simp
  | case2 => simp
  | case3 => simp
  | case4 w m rest ih => simpa using ih
  | case5 w m rest ih => simpa using ih
  | case6 w task rest _ _ _ ih => exact ih

theorem outcome_stepThread? [Strategy σ] {t : ThreadId} {w' : World σ}
    (moved : w.stepThread? t = some w') : w'.controller.outcome = w.controller.outcome := by
  unfold stepThread? at moved
  split at moved
  · cases moved
  · cases moved
  · next task rest _ _ =>
    have kept := outcome_exec ceased t task
    cases done : w.exec t task with
    | wait => simp [done] at moved
    | go tasks w₁ =>
      rw [done] at kept moved
      simp only at moved
      split at moved
      · obtain rfl := Option.some.inj moved
        simpa using kept
      · cases moved
    | answer a w₁ =>
      rw [done] at kept moved
      obtain rfl := Option.some.inj moved
      rw [outcome_deliverAnswer]
      exact kept

/-- A step after the end of a run leaves the outcome. -/
theorem outcome_step? [Strategy σ] {w' : World σ} (moved : w.step? = some w') :
    w'.controller.outcome = w.controller.outcome := by
  unfold step? at moved
  rw [ceased] at moved
  simp only [Bool.not_true, Bool.and_false, Bool.false_eq_true, if_false] at moved
  split at moved
  · next w₁ found =>
    obtain rfl := Option.some.inj moved
    obtain ⟨t, _, moved⟩ := List.exists_of_findSome?_eq_some found
    exact outcome_stepThread? ceased moved
  · cases moved

end Over

/-- A run never changes an outcome. -/
theorem outcome_run [Strategy σ] (n : Nat) {w : World σ} (ceased : w.isOver = true) :
    (run n w).controller.outcome = w.controller.outcome := by
  induction n generalizing w with
  | zero => rfl
  | succ n ih =>
    unfold run
    cases moved : w.step? with
    | none => rfl
    | some w' =>
      have kept := outcome_step? ceased moved
      have over' : w'.isOver = true := by
        rw [isOver, Controller.isOver, kept]
        exact ceased
      rw [← kept]
      exact ih over'

end World

end SteeredActors
