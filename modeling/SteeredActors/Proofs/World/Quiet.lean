import SteeredActors.Proofs.World.Frame

/-!
# Requests and tasks that concern nobody else

What a thread asks and does mostly stays with it. The exceptions are named here: creating actors,
posting events, waiting for a reply, and the tasks by which an actor runs, rests and halts.
-/

set_option autoImplicit false
set_option relaxedAutoImplicit false

namespace SteeredActors

variable {σ : Type}

/-- Whose programs a thread runs. -/
def Speaker.OwnedBy (own : Option Nat) (below : Bool) : Speaker → Prop
  | .action c _ => c.OwnedBy own below
  | .test => own = none
  | .sleeper _ => False

/-- An action unwinds as if its run had ended. -/
def Task.Feigns : Task → Prop
  | .perform (.action _ _) (.finish _ (.failed failure)) => failure.isTermination = true
  | _ => False

theorem Task.Feigns.busy {x : Task} (feigns : x.Feigns) : x.busy = true := by
  cases x <;> first | exact feigns.elim | rfl

/-- A service that concerns only the thread that asks for it. -/
def Service.Quiet (t : ThreadId) (outside : Bool) (w : World σ) : Service σ → Prop
  | .now _ w' => Still t w w'
  | .later tasks w' => Still t w w' ∧ ∀ x ∈ tasks, x.Fits t.own? outside true

/-- A service that concerns only the thread that asks for it, and at most a new actor. -/
inductive Service.Mild (t : ThreadId) (outside : Bool) (caller : Option Nat) (w : World σ) :
    Service σ → Prop where
  | quiet {s : Service σ} (h : s.Quiet t outside w) : Mild t outside caller w s
  | creates {w₁ : World σ} (still : Still t w w₁) (id : ActorId) (descriptor : Descriptor)
      (event : Option Event) {op : Nat} (asks : caller = some op) :
      Mild t outside caller w
        (.later [.point .create, .answer (.actor id)] (w₁.addActor id descriptor event none))
  | createsAndWaits {w₁ : World σ} (still : Still t w w₁) (id : ActorId) (descriptor : Descriptor)
      (event : Option Event) {op : Nat} (asks : caller = some op) :
      Mild t outside caller w
        (.later [.pass .create, .turn, .answer (.actor id)]
          (((w₁.openRendezvous caller).2.addActor id descriptor event
            (some w₁.rendezvous.length)).blockCaller caller))

/-- A move that concerns only the thread that makes it. Without a program that waits, it unwinds only
if the run has ended or `feigned` holds. -/
def Move.Quiet (t : ThreadId) (outside below : Bool) (feigned : Prop) (w : World σ) :
    Move σ → Prop
  | .wait => True
  | .go tasks w' =>
    Still t w w' ∧ ∀ x ∈ tasks, x.Fits t.own? outside below ∧ x.shifts = false
  | .answer _ w' => Still t w w' ∧ (below = true ∨ w'.isOver = true ∨ feigned)

namespace World

variable {t : ThreadId} {outside below : Bool}

/-! ## Requests -/

private theorem quiet_refuse (w₀ : World σ) {w : World σ} (h : Still t w₀ w) (r : Refusal) :
    (w.refuse r).Quiet t outside w₀ := h

private theorem quiet_failAssertion (w : World σ) (actor : Option ActorId) (message : String) :
    ((w.failAssertion actor message).2.refuse (w.failAssertion actor message).1).Quiet t outside w :=
  quiet_refuse w (.report w _) _

private theorem quiet_serveDemand (w : World σ) {speaker : Speaker} (mine : speaker.OwnedBy t.own? below)
    (voice : Voice) (d : Demand) :
    (w.serveDemand (w.context? speaker voice) d).Quiet t outside w := by
  have demanded := w.ofDemand (w.context? speaker voice) d
  generalize w.serveDemand (w.context? speaker voice) d = service at demanded
  cases demanded with
  | nobody => exact quiet_refuse w (.refl t w) _
  | fails => exact quiet_refuse w (.report w _) _
  | kept asked =>
    obtain ⟨-, rfl, -⟩ := context?_eq_some asked
    exact .modifyCore w mine (fun _ => rfl) fun _ => rfl

private theorem quiet_serveTasks (w : World σ) {tasks : Except Refusal (List Task)}
    (fits : ∀ xs, tasks = .ok xs → ∀ x ∈ xs, x.Fits t.own? outside true) :
    (w.serveTasks tasks).Quiet t outside w := by
  cases tasks with
  | error r => exact quiet_refuse w (.refl t w) r
  | ok xs => exact ⟨.refl t w, fits xs rfl⟩

private theorem fits_send (w : World σ) (explores : w.explores = true) {caller : Option Nat}
    (known : caller.isSome = true → outside = false) (target : ActorId) (event : Event)
    {xs : List Task} (sent : w.send caller target event = .ok xs) :
    ∀ x ∈ xs, x.Fits t.own? outside true := by
  obtain ⟨i, _, ensured, _, rfl⟩ := send_eq_ok sent
  simp [Task.Fits, known (isSome_of_ensureKnown explores ensured)]

private theorem fits_registerMonitor (w : World σ) (typeTag : String) {xs : List Task}
    (begun : w.registerMonitor typeTag = .ok xs) : ∀ x ∈ xs, x.Fits t.own? outside true := by
  obtain ⟨descriptor, id, _, _, rfl⟩ := registerMonitor_eq_ok begun
  simp [Task.Fits]

private theorem quiet_sendAndExecute (w : World σ) (explores : w.explores = true)
    {caller : Option Nat} (known : caller.isSome = true → outside = false) (target : ActorId)
    (event : Event) : (w.sendAndExecute caller target event).Quiet t outside w := by
  have sent := w.ofRendezvous caller target event
  generalize w.sendAndExecute caller target event = service at sent
  cases sent with
  | refused => exact quiet_refuse w (.refl t w) _
  | fails => exact quiet_refuse w (.report w _) _
  | brings _ ensured =>
    have inside := known (isSome_of_ensureKnown explores ensured)
    refine ⟨.refl t w, ?_⟩
    simp [Task.Fits, inside]

private theorem still_ids (w : World σ) (ids : Allocator) : Still t w { w with ids } :=
  .of_parts rfl rfl rfl rfl rfl rfl

theorem explores_addActor (w : World σ) (id : ActorId) (descriptor : Descriptor)
    (event : Option Event) (rendezvous : Option Nat) :
    (w.addActor id descriptor event rendezvous).explores = w.explores := by
  simp [explores, addActor, Controller.register, Controller.explores]

theorem explores_blockCaller (w : World σ) (caller : Option Nat) :
    (w.blockCaller caller).explores = w.explores := by
  unfold blockCaller
  cases caller with
  | none => rfl
  | some op =>
    simp only
    split <;> rfl

private theorem mild_create (w : World σ) (explores : w.explores = true) (caller : Option Nat)
    (typeTag : String) (name : Option String) (event : Option Event) (execute : Bool) :
    (w.create caller typeTag name event execute).Mild t outside caller w := by
  have created := w.ofCreation caller typeTag name event execute
  generalize w.create caller typeTag name event execute = service at created
  cases created with
  | refused => exact .quiet (quiet_refuse w (.refl t w) _)
  | overflows => exact .quiet (quiet_refuse w (.report w _) _)
  | taken => exact .quiet (quiet_refuse w (still_ids w _) _)
  | @populates descriptor id ids _ ensured =>
    obtain ⟨op, rfl⟩ := Option.isSome_iff_exists.1 (isSome_of_ensureKnown explores ensured)
    have still := still_ids (t := t) w ids
    cases execute with
    | false => exact .creates still id descriptor event rfl
    | true =>
      generalize { w with ids } = w₁ at still
      have explores₁ : w₁.explores = true := by rw [still.explores, explores]
      have known : (((w₁.openRendezvous (some op)).2.addActor id descriptor event
          (some w₁.rendezvous.length)).blockCaller (some op)).explores = true := by
        rw [explores_blockCaller, explores_addActor]
        exact explores₁
      have populated : w₁.populate (some op) id descriptor event true =
          .later [.pass .create, .turn, .answer (.actor id)]
            (((w₁.openRendezvous (some op)).2.addActor id descriptor event
              (some w₁.rendezvous.length)).blockCaller (some op)) := by
        unfold populate
        simp only [if_true]
        exact congrArg (Service.later · _) (if_pos known)
      rw [populated]
      exact .createsAndWaits still id descriptor event rfl

/-- What a request comes to while decisions are explored. -/
theorem mild_serve [Strategy σ] (w : World σ) (explores : w.explores = true) {caller : Option Nat}
    (known : caller.isSome = true → outside = false) {speaker : Speaker}
    (mine : speaker.OwnedBy t.own? below) (voice : Voice) (request : Request) :
    (w.serve caller speaker voice request).Mild t outside caller w := by
  have refused : ∀ r, (w.refuse r).Mild t outside caller w :=
    fun r => .quiet (quiet_refuse w (.refl t w) r)
  have sent : ∀ target event, (w.serveTasks (w.send caller target event)).Mild t outside caller w :=
    fun target event => .quiet (quiet_serveTasks w fun _ => fits_send w explores known target event)
  have ended : ∀ outcome, Still t w { w with controller := (w.controller.terminate outcome).2 } :=
    fun outcome => .of_controller w (.finish _ outcome)
  have asked : ∀ x : Task, x.Fits t.own? outside true →
      ∀ y ∈ [x, .answer .null], y.Fits t.own? outside true := by
    intro x fits y hy
    rcases List.mem_cons.1 hy with rfl | hy
    · exact fits
    · obtain rfl := List.mem_singleton.1 hy
      rfl
  cases request <;> simp only [serve]
  case journal => exact .quiet (.note w _ _)
  case render | add | newObject | status | actors | steps | isOver | explores | startSleeper =>
    exact .quiet (.of_parts rfl rfl rfl rfl rfl rfl)
  case send | stopTimer =>
    split
    · exact refused _
    · exact sent _ _
  case sendAndExecute =>
    split
    · exact refused _
    · exact .quiet (quiet_sendAndExecute w explores known _ _)
  case create =>
    split
    · exact refused _
    · exact mild_create w explores caller _ _ _ _
  case raise | goto | push | pop => exact .quiet (quiet_serveDemand w mine voice _)
  case startTimer =>
    split
    · exact refused _
    · exact refused _
    · exact mild_create w explores caller _ _ _ _
  case assert =>
    unfold assert
    split
    · exact refused _
    · split
      · exact .quiet (.refl t w)
      · exact .quiet (quiet_failAssertion w _ _)
  case randomBool =>
    have still : Still t w { w with controller := w.controller.nextBool.2 } :=
      .of_controller w w.controller.sameTurn_nextBool
    unfold randomBool
    cases chosen : w.controller.nextBool with
    | mk b controller =>
      rw [chosen] at still
      cases b <;> exact .quiet still
  case randomInt max =>
    have still : Still t w { w with controller := (w.controller.nextInt max).2 } :=
      .of_controller w (w.controller.sameTurn_nextInt max)
    unfold randomInt
    cases chosen : w.controller.nextInt max with
    | mk n controller =>
      rw [chosen] at still
      cases n <;> exact .quiet still
  case monitor =>
    split
    · exact refused _
    · exact refused _
    · exact .quiet ⟨.refl t w, asked _ rfl⟩
  case registerMonitor typeTag =>
    exact .quiet (quiet_serveTasks w fun _ => fits_registerMonitor w typeTag)
  case point => exact .quiet ⟨.refl t w, asked _ (.inr rfl)⟩
  case waitForQuiescence =>
    rw [if_pos explores]
    exact refused _
  case shutdown | terminate => exact .quiet (ended _)
  case reportBug => exact .quiet (.report w _)
  case awaitHalted => exact .quiet ⟨.refl t w, asked _ trivial⟩
  case access =>
    split
    · exact .quiet ⟨.refl t w, by simp [Task.Fits]⟩
    · exact .quiet (.refl t w)
  case monitors | monitorState => exact .quiet ⟨.refl t w, by simp [Task.Fits]⟩
  case stopSleeper => exact .quiet (.stopSleeper w _)

/-! ## Tasks -/

variable {feigned : Prop}

private theorem quiet_go (w : World σ) : Move.Quiet t outside below feigned w (.go [] w) :=
  ⟨.refl t w, by simp⟩

private theorem quiet_withCore {w₀ w : World σ} {c : Subject} {f : Core → Move σ}
    (h : ∀ core, (f core).Quiet t outside below feigned w₀) (still : Still t w₀ w) :
    (w.withCore c f).Quiet t outside below feigned w₀ := by
  unfold withCore
  split
  · exact h _
  · exact ⟨still, by simp⟩

private theorem quiet_withMonitor {w : World σ} {m : Nat} {f : Monitor → Move σ}
    (h : ∀ a, (f a).Quiet t outside below feigned w) :
    (w.withMonitor m f).Quiet t outside below feigned w := by
  unfold withMonitor
  split
  · exact h _
  · exact quiet_go w

/-- To unwind after a bug was reported is to unwind from an ended run. -/
theorem quiet_unwind_report {w₀ w : World σ} (still : Still t w₀ w) (report : BugReport)
    (r : Refusal) : ((w.report report).unwind r).Quiet t outside below feigned w₀ :=
  ⟨still.trans (.report w report), .inr (.inl (Controller.isOver_finish _ _))⟩

theorem fits_invocation {c : Subject} (mine : c.OwnedBy t.own? below) (event : Option Event)
    (phase : Phase) (a : Option Action) :
    ∀ x ∈ invocation c event phase a, x.Fits t.own? outside below ∧ x.shifts = false := by
  cases a with
  | none => simp [invocation]
  | some a => simpa [invocation, Task.Fits, Task.shifts] using mine

theorem fits_leaving {c : Subject} (mine : c.OwnedBy t.own? below) (core : Core)
    (event : Option Event) :
    ∀ x ∈ leaving c core event, x.Fits t.own? outside below ∧ x.shifts = false := by
  unfold leaving
  split
  · exact fits_invocation mine event .exit _
  · simp

private theorem quiet_pushState (w : World σ) (m : Nat) (core : Core) (s : StateDescriptor)
    (event : Option Event) :
    (w.pushState (.monitor m) core s event).Quiet t outside below feigned w :=
  ⟨.setStack_monitor w m _, fits_invocation (c := .monitor m) trivial event .entry s.entry⟩

/-- The tasks that consume an event shift the stack of an actor only. -/
theorem fits_consumption {c : Subject} (mine : c.OwnedBy t.own? below) (core : Core)
    (event : Event) (binding : Binding) : ∀ x ∈ consumption c core event binding,
      x.Fits t.own? outside below ∧ (x.shifts = true → ∃ i, c = .actor i) := by
  have level : ∀ x : Task, x.Fits t.own? outside below ∧ x.shifts = false →
      x.Fits t.own? outside below ∧ (x.shifts = true → ∃ i, c = .actor i) := by
    rintro x ⟨fits, level⟩
    refine ⟨fits, ?_⟩
    rw [level]
    intro h
    cases h
  intro x hx
  cases binding with
  | goto target transition =>
    simp only [consumption, List.mem_append, List.mem_singleton] at hx
    rcases hx with (hx | hx) | rfl
    · exact level x (fits_leaving mine core _ x hx)
    · exact level x (fits_invocation mine _ _ _ x hx)
    · cases c with
      | actor i => exact ⟨mine, fun _ => ⟨i, rfl⟩⟩
      | monitor m => exact level _ ⟨mine, rfl⟩
  | push target =>
    obtain rfl := List.mem_singleton.1 hx
    cases c with
    | actor i => exact ⟨mine, fun _ => ⟨i, rfl⟩⟩
    | monitor m => exact level _ ⟨mine, rfl⟩
  | action a =>
    obtain rfl := List.mem_singleton.1 hx
    exact level _ ⟨mine, rfl⟩

private theorem fits_obedience_monitor (m : Nat) (core : Core) (d : Demand) :
    ∀ x ∈ obedience (.monitor m) core d, x.Fits t.own? outside below ∧ x.shifts = false := by
  intro x hx
  cases d with
  | goto target =>
    simp only [obedience, List.mem_append, List.mem_singleton] at hx
    rcases hx with hx | rfl
    · exact fits_leaving (c := .monitor m) trivial core none x hx
    · exact ⟨trivial, rfl⟩
  | event e | push target | pop =>
    obtain rfl := List.mem_singleton.1 hx
    exact ⟨trivial, rfl⟩

private theorem quiet_handle_monitor (w : World σ) (m : Nat) (event : Event) :
    (w.handle (.monitor m) event none).Quiet t outside below feigned w := by
  refine quiet_withCore (fun core => ?_) (.refl t w)
  have stacked : ∀ stack, Still t w (w.setStack (.monitor m) stack) := .setStack_monitor w m
  split
  · exact ⟨stacked _, by simp [settlement]⟩
  · next binding stack _ =>
    refine ⟨stacked _, ?_⟩
    simp only [settlement, List.append_nil]
    intro x hx
    obtain ⟨fits, only⟩ := fits_consumption (c := .monitor m) trivial _ event binding x hx
    refine ⟨fits, ?_⟩
    by_contra shifts
    obtain ⟨i, e⟩ := only (by simpa using shifts)
    cases e
  · simp only
    split
    · exact ⟨(stacked _).trans (.halt_monitor _ m), by simp [settlement]⟩
    · exact quiet_unwind_report (stacked _) _ _

private theorem quiet_finishAction (w : World σ) {c : Subject} (mine : c.OwnedBy t.own? below)
    (phase : Phase) (memory : Memory) (ending : Ending) :
    (w.finishAction c memory ending).Quiet t outside below
      (Task.Feigns (.perform (.action c phase) (.finish memory ending))) w := by
  have still : Still t w (w.modifyCore c fun core => { core with memory }) :=
    .modifyCore w mine (fun _ => rfl) fun _ => rfl
  have reported : ∀ text feigned, Move.Quiet t outside below feigned w
      (if (w.modifyCore c fun core => { core with memory }).isOver then
        (w.modifyCore c fun core => { core with memory }).unwind .canceled
      else (w.modifyCore c fun core => { core with memory }).withCore c fun core =>
        ((w.modifyCore c fun core => { core with memory }).report
          (faultReport core text)).unwind .canceled) := by
    intro text feigned
    split
    · next ceased => exact ⟨still, .inr (.inl ceased)⟩
    · exact quiet_withCore (fun core => quiet_unwind_report still _ _) still
  unfold finishAction
  cases ending with
  | ok => exact ⟨still, by simp⟩
  | failed failure =>
    simp only
    split
    · next feigns => exact ⟨still, .inr (.inr feigns)⟩
    · exact reported _ _
  | panicked message => exact reported _ _

/-- A task that neither acts on others nor shifts the stack of an actor concerns only the thread
that does it. -/
theorem quiet_exec [Strategy σ] (w : World σ) (explores : w.explores = true) {x : Task}
    (fits : x.Fits t.own? outside below) (modest : x.acts = false) (level : x.shifts = false)
    {tasks : List Task} (thread : w.thread? t = some ⟨tasks, outside⟩)
    (known : outside = false → (w.operation? t).isSome = true) :
    (w.exec t x).Quiet t outside below x.Feigns w := by
  have locked : ∀ move : Move σ, move.Quiet t outside below x.Feigns w →
      Move.Quiet t outside below x.Feigns w (if w.monitorsLocked then .wait else move) := by
    intro move h
    split
    · trivial
    · exact h
  cases x <;> simp only [exec]
  case start c event =>
    cases c with
    | actor i => cases level
    | monitor m => exact quiet_withCore (fun core => quiet_pushState w m core _ _) (.refl t w)
  case handle c event r =>
    cases c with
    | actor i => cases level
    | monitor m =>
      cases r with
      | none => exact quiet_handle_monitor w m event
      | some r => exact fits.elim
  case invoke c action event phase =>
    refine quiet_withCore (fun core => ⟨.refl t w, ?_⟩) (.refl t w)
    simpa [Task.Fits, Task.shifts] using fits
  case switch c target event =>
    cases c with
    | actor i => cases level
    | monitor m =>
      refine quiet_withCore (fun core => ?_) (.refl t w)
      split
      · exact quiet_go w
      · exact ⟨.setStack_monitor w m _, by simp [Task.Fits, Task.shifts, Subject.OwnedBy]⟩
  case enter c target event =>
    cases c with
    | actor i => cases level
    | monitor m =>
      refine quiet_withCore (fun core => ?_) (.refl t w)
      split
      · exact quiet_pushState w m core _ _
      · exact quiet_unwind_report (.refl t w) _ _
  case pop c =>
    cases c with
    | actor i => cases level
    | monitor m =>
      refine quiet_withCore (fun core => ?_) (.refl t w)
      split
      · exact quiet_unwind_report (.refl t w) _ _
      · refine ⟨.refl t w, ?_⟩
        intro x hx
        rcases List.mem_append.1 hx with hx | hx
        · exact fits_leaving (c := .monitor m) trivial core none x hx
        · obtain rfl := List.mem_singleton.1 hx
          exact ⟨trivial, rfl⟩
  case dropTop c =>
    cases c with
    | actor i => cases level
    | monitor m =>
      exact quiet_withCore (fun core => ⟨.setStack_monitor w m _, by simp⟩) (.refl t w)
  case forward event => exact locked _ ⟨.refl t w, by simp [Task.Fits, Task.shifts]⟩
  case notify typeTag event =>
    refine locked _ ?_
    split
    · exact ⟨.refl t w, by simp [Task.Fits, Task.shifts]⟩
    · exact ⟨.refl t w, .inl fits⟩
  case deliver m event =>
    refine quiet_withMonitor fun monitor => ?_
    split
    · trivial
    · split
      · exact quiet_go w
      · simp only
        split
        · split
          · exact quiet_go w
          · exact ⟨.modifyMonitor w m _, by simp [Task.Fits, Task.shifts]⟩
        · exact ⟨.modifyMonitor w m _, by simp [Task.Fits, Task.shifts]⟩
  case drain m =>
    refine quiet_withMonitor fun monitor => ?_
    split
    · exact quiet_go w
    · unfold obey
      split
      · exact quiet_go w
      · refine ⟨.modifyMonitor w m _, ?_⟩
        intro x hx
        rcases List.mem_append.1 hx with hx | hx
        · exact fits_obedience_monitor m _ _ x hx
        · obtain rfl := List.mem_singleton.1 hx
          exact ⟨trivial, rfl⟩
  case defaults m =>
    refine quiet_withMonitor fun monitor => ?_
    split
    · split
      · exact ⟨.refl t w, by simp [Task.Fits, Task.shifts]⟩
      · exact quiet_go w
    · exact quiet_go w
  case release m => exact ⟨.modifyMonitor w m _, by simp⟩
  case enlist m => exact ⟨.modifyMonitor w m _, by simp⟩
  case install descriptor id =>
    refine locked _ ?_
    split
    · exact ⟨.refl t w, .inl fits⟩
    · refine ⟨.of_parts rfl rfl rfl rfl rfl rfl, ?_⟩
      simp [Task.Fits, Task.shifts, Subject.OwnedBy]
  case listMonitors => exact locked _ ⟨.refl t w, .inl fits⟩
  case readMonitor typeTag =>
    refine locked _ ?_
    split
    · exact ⟨.refl t w, .inl fits⟩
    · refine quiet_withMonitor fun monitor => ?_
      split
      · trivial
      · exact ⟨.refl t w, .inl fits⟩
  case await r =>
    unfold awaitReply
    split
    · exact quiet_go w
    · split
      · next ceased => exact ⟨.refl t w, .inr (.inl ceased)⟩
      · trivial
  case point kind =>
    split
    · next ceased => exact ⟨.refl t w, .inr (.inl ceased)⟩
    · rw [if_neg (by simp [explores])]
      have caller : w.caller? t = if outside then none else w.operation? t := by
        simp [caller?, thread]
      rw [caller]
      cases outside with
      | true =>
        simp only [if_true, ensureKnown, explores, Option.isNone_none, Bool.and_true]
        refine ⟨.refl t w, .inl ?_⟩
        rcases fits with inside | fits
        · cases inside
        · exact fits
      | false =>
        obtain ⟨op, ho⟩ := Option.isSome_iff_exists.1 (known rfl)
        simp only [Bool.false_eq_true, if_false, ho, ensureKnown, Option.isNone_some,
          Bool.false_and]
        exact ⟨.refl t w, by simp [Task.Fits, Task.shifts]⟩
  case turn =>
    split
    · next op _ =>
      unfold follow
      cases passed : w.controller.passage op with
      | canceled =>
        exact ⟨.refl t w, .inr (.inl (Controller.passage_eq_canceled_iff.1 passed))⟩
      | passed => exact quiet_go w
      | waits => trivial
    · exact quiet_go w
  case touch object operation =>
    split
    · exact ⟨.of_parts rfl rfl rfl rfl rfl rfl, .inl fits⟩
    · exact ⟨.refl t w, .inl fits⟩
  case answer v => exact ⟨.refl t w, .inl fits⟩
  case awaitHalted id =>
    split
    · next ceased => exact ⟨.refl t w, .inr (.inl ceased)⟩
    · split
      · exact quiet_go w
      · trivial
  case awaitQuiescence =>
    unfold follow Controller.quiescence
    by_cases ceased : w.controller.isOver = true
    · rw [if_pos ceased]
      exact ⟨.refl t w, .inr (.inl ceased)⟩
    · rw [if_neg ceased]
      by_cases idle : w.controller.enabledIds.isEmpty = true <;> simp [idle, Move.Quiet, Still.refl]
  case perform speaker program =>
    cases program with
    | ask voice request next => cases modest
    | finish memory ending =>
      cases speaker with
      | action c phase => exact quiet_finishAction w fits phase memory ending
      | test | sleeper j => exact fits.elim
  all_goals first | exact fits.elim | cases modest

end World

end SteeredActors
