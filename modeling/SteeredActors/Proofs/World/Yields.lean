import SteeredActors.Proofs.World.Conservation
import SteeredActors.Proofs.World.Finality
import SteeredActors.Proofs.World.Quiet

/-!
# What a task leads to

One relation says which tasks may stand for one that has been done. What holds of all that a thread has
to do is read off from it, without a look at how tasks are done.
-/

set_option autoImplicit false
set_option relaxedAutoImplicit false

namespace SteeredActors

variable {σ : Type}

/-- What is done for a request before it is answered. -/
def Task.serves : Task → Bool
  | .forward _ | .post _ _ | .engage _ _ | .point _ | .await _ | .answer _ | .notify _ _
  | .install _ _ | .awaitQuiescence | .awaitHalted _ | .touch _ _ | .listMonitors
  | .readMonitor _ => true
  | _ => false

/-- Once a run has ended, this waits or fails. -/
def Task.balks : Task → Bool
  | .point _ | .awaitQuiescence | .awaitHalted _ | .listMonitors | .readMonitor _ => true
  | _ => false

theorem Task.serves_of_balks {x : Task} (balks : x.balks = true) : x.serves = true := by
  cases x <;> first | rfl | cases balks

/-- A step of an interpreter. -/
def Task.interprets : Task → Bool
  | .handle _ _ _ | .settle _ _ _ | .invoke _ _ _ _ | .switch _ _ _ | .enter _ _ _ | .pop _
  | .dropTop _ => true
  | _ => false

section Parts

variable (c : Subject) (event : Option Event)

theorem interprets_invocation (phase : Phase) (a : Option Action) :
    ∀ y ∈ World.invocation c event phase a, y.interprets = true := by
  cases a <;> simp [World.invocation, Task.interprets]

theorem interprets_leaving (core : Core) :
    ∀ y ∈ World.leaving c core event, y.interprets = true := by
  unfold World.leaving
  split
  · exact interprets_invocation c event _ _
  · simp

theorem interprets_settlement (r : Option Nat) (handled : Bool) :
    ∀ y ∈ World.settlement c r handled, y.interprets = true := by
  unfold World.settlement
  split <;> simp [Task.interprets]

theorem interprets_consumption (core : Core) (event : Event) (binding : Binding) :
    ∀ y ∈ World.consumption c core event binding, y.interprets = true := by
  cases binding with
  | goto target transition =>
    simp only [World.consumption, List.forall_mem_append, List.forall_mem_singleton]
    exact ⟨⟨interprets_leaving c _ core, interprets_invocation c _ _ _⟩, rfl⟩
  | push | action => simp [World.consumption, Task.interprets]

theorem interprets_obedience (core : Core) (d : Demand) :
    ∀ y ∈ World.obedience c core d, y.interprets = true := by
  cases d with
  | goto target =>
    simp only [World.obedience, List.forall_mem_append, List.forall_mem_singleton]
    exact ⟨interprets_leaving c _ core, rfl⟩
  | event | push | pop => simp [World.obedience, Task.interprets]

end Parts

/-- Of each task and the one below it `R` holds, and of the last one and what comes next. -/
def Linked (R : Task → Option Task → Prop) : List Task → Option Task → Prop
  | [], _ => True
  | x :: xs, next => R x (xs.head?.or next) ∧ Linked R xs next

namespace Linked

variable {R : Task → Option Task → Prop} {xs ys : List Task} {next : Option Task}

theorem append_iff :
    Linked R (xs ++ ys) next ↔ Linked R xs (ys.head?.or next) ∧ Linked R ys next := by
  induction xs with
  | nil => simp [Linked]
  | cons x xs ih =>
    have head : ((xs ++ ys).head?.or next) = xs.head?.or (ys.head?.or next) := by
      cases xs <;> simp
    simp only [List.cons_append, Linked, ih, head, and_assoc]

theorem of_suffix (linked : Linked R ys next) (suffix : xs <:+ ys) : Linked R xs next := by
  obtain ⟨zs, rfl⟩ := suffix
  exact (append_iff.1 linked).2

/-- Tasks of which it holds whatever comes next. -/
theorem of_forall (each : ∀ x ∈ xs, ∀ next, R x next) : Linked R xs next := by
  induction xs with
  | nil => trivial
  | cons x xs ih =>
    obtain ⟨here, below⟩ := List.forall_mem_cons.1 each
    exact ⟨here _, ih below⟩

end Linked

/-- A posted event is followed by a scheduling point, and what brings an answer by the program that waits
for it. -/
def Task.Precedes : Task → Option Task → Prop
  | .post _ _, next => ∃ kind, next = some (.point kind)
  | .engage _ _, next | .collect _, next | .touch _ _, next | .answer _, next
  | .listMonitors, next | .readMonitor _, next =>
    ∃ speaker outside shared program, next = some (.resume speaker outside shared program)
  | _, _ => True

/-- A task that does what an interpreter has raised, or that lets a monitor handle the reserved
event. -/
def World.goesRound (w : World σ) : Task → Bool
  | .cycle i => (w.core? (.actor i)).any fun core => !core.halted && core.raised.isSome
  | .drain m => (w.core? (.monitor m)).any fun core => !core.halted && core.raised.isSome
  | .defaults m =>
    (w.core? (.monitor m)).any fun core => !core.halted && core.stack.head?.any (·.hasDefault)
  | _ => false

/-- A task may be done and leave others. -/
inductive World.Yields (w : World σ) : Task → List Task → Prop where
  | nothing (x : Task) : Yields w x []
  -- What an actor does by itself
  | wakes {x : Task} {i : Nat} (own : x = .firstTurn i ∨ x = .rest i) (running : w.isOver = false) :
      Yields w x [.wake i]
  | quits {x : Task} {i : Nat} (own : x = .wake i ∨ x = .cycle i) : Yields w x [.retire .halt]
  | begins (i : Nat) (event : Option Event) :
      Yields w (.wake i) [.start (.actor i) event, .cycle i]
  | goesOn (i : Nat) : Yields w (.wake i) [.cycle i]
  | selects (i : Nat) (envelope : Envelope) (discarded : List Envelope)
      (selected : w.selection? i (.cycle i) = some (.event envelope, discarded))
      (running : w.isOver = false) :
      Yields w (.cycle i) [.handle (.actor i) envelope.event envelope.rendezvous, .cycle i]
  | defaults (i : Nat) (running : w.isOver = false) : Yields w (.cycle i)
      [.point .defaultEvent, .handle (.actor i) (.ofType .default) none, .cycle i]
  | pauses (i : Nat) (running : w.isOver = false) : Yields w (.cycle i) [.pass .yield, .rest i]
  -- Interpretation
  | obeys {x : Task} {c : Subject} {core : Core} {d : Demand}
      (own : (∃ i, c = .actor i ∧ x = .cycle i ∧ w.isOver = false) ∨
        ∃ m, c = .monitor m ∧ x = .drain m)
      (found : w.core? c = some core) (raised : core.raised = some d)
      (round : w.goesRound x = true) : Yields w x (World.obedience c core d ++ [x])
  | enters {x : Task} {c : Subject} {event : Option Event}
      (own : x = .start c event ∨ ∃ target, x = .enter c target event) (entry : Option Action) :
      Yields w x (World.invocation c event .entry entry)
  | settles (c : Subject) (event : Event) (r : Option Nat) :
      Yields w (.handle c event r) (World.settlement c r false)
  | consumes (c : Subject) (event : Event) (r : Option Nat) (core : Core) (binding : Binding) :
      Yields w (.handle c event r)
        (World.consumption c core event binding ++ World.settlement c r true)
  | invokes (c : Subject) (action : Action) (event : Option Event) (phase : Phase) (o : Occasion) :
      Yields w (.invoke c action event phase) [.perform (.action c phase) (action o)]
  | switches (c : Subject) (target : String) (event : Option Event) :
      Yields w (.switch c target event) [.enter c target event]
  | pops (c : Subject) (core : Core) : Yields w (.pop c) (World.leaving c core none ++ [.dropTop c])
  -- Monitors
  | forwards (event : Event) :
      Yields w (.forward event) ((w.observers event.type).map (.deliver · event))
  | notifies (typeTag : String) (event : Event) (m : Nat) (listed : w.monitor? typeTag = some m) :
      Yields w (.notify typeTag event) [.deliver m event]
  | delivers (m : Nat) (event : Event) : Yields w (.deliver m event)
      [.handle (.monitor m) event none, .drain m, .defaults m, .release m]
  | repeats (m : Nat) (round : w.goesRound (.defaults m) = true) : Yields w (.defaults m)
      [.handle (.monitor m) (.ofType .default) none, .drain m, .defaults m]
  | installs (descriptor : Descriptor) (id : ActorId) (m : Nat) : Yields w (.install descriptor id)
      [.start (.monitor m) none, .drain m, .defaults m, .enlist m]
  -- Sending, waiting and deciding
  | engages (i : Nat) (event : Event) (r : Nat) :
      Yields w (.engage i event) [.pass .rendezvous, .turn, .collect r]
  | awaits (i : Nat) (event : Event) (r : Nat) : Yields w (.engage i event) [.await r, .collect r]
  | passes (kind : PointKind) (running : w.isOver = false) :
      Yields w (.point kind) [.pass kind, .turn]
  | fires (j : Nat) (program : Program) (running : w.isOver = false) :
      Yields w (.sleep j) [.perform (.sleeper j) program]
  -- Programs
  | goes (speaker : Speaker) (voice : Voice) (request : Request) (next : Answer → Program)
      (a : Answer) :
      Yields w (.perform speaker (.ask voice request next)) [.perform speaker (next a)]
  | asks {tasks : List Task} (speaker : Speaker) (voice : Voice) (request : Request)
      (next : Answer → Program) (outside shared : Bool) (each : ∀ y ∈ tasks, y.serves = true)
      (linked : Linked Task.Precedes tasks (some (.resume speaker outside shared next))) :
      Yields w (.perform speaker (.ask voice request next))
        (tasks ++ [.resume speaker outside shared next])
  | creates (speaker : Speaker) (voice : Voice) (request : Request) (next : Answer → Program)
      (outside shared : Bool) (v : Value) :
      Yields w (.perform speaker (.ask voice request next))
        [.pass .create, .turn, .answer v, .resume speaker outside shared next]
  | ends (memory : Memory) (ending : Ending) :
      Yields w (.perform .test (.finish memory ending)) [.retire .yield]
  | sleeps (j : Nat) (memory : Memory) (ending : Ending) :
      Yields w (.perform (.sleeper j) (.finish memory ending)) [.sleep j]
  | resumes (speaker : Speaker) (outside shared : Bool) (next : Answer → Program) (a : Answer) :
      Yields w (.resume speaker outside shared next) [.perform speaker (next a)]

/-- A task may end a run and go on. -/
def Task.decides : Task → Bool
  | .pass _ | .retire _ | .perform _ _ => true
  | _ => false

/-- Done tasks leave what they lead to, and only those that decide something end the run. -/
structure World.Brings (w : World σ) (x : Task) (xs : List Task) (w₁ : World σ) : Prop where
  yields : w.Yields x xs
  outcome : x.decides = false → w₁.controller.outcome = w.controller.outcome

/-- What a request leads to is done for it, or it is a creation that is waited for. It does not end the
run, and in an ended run it waits or fails. -/
structure World.Serves (w : World σ) (tasks : List Task) (w₁ : World σ) : Prop where
  shape : ((∀ y ∈ tasks, y.serves = true) ∧ ∀ speaker outside shared next,
      Linked Task.Precedes tasks (some (.resume speaker outside shared next))) ∨
    ∃ v, tasks = [.pass .create, .turn, .answer v]
  outcome : w₁.controller.outcome = w.controller.outcome
  balks : w.isOver = true → ∃ y ys, tasks = y :: ys ∧ y.balks = true

/-- If a task is done, it leaves something that `P` tells. -/
@[simp] def Move.Leaving (P : List Task → World σ → Prop) : Move σ → Prop
  | .go tasks w => P tasks w
  | .wait | .answer _ _ => True

/-- If a request is not answered at once, it leads to something that `P` tells. -/
@[simp] def Service.Leaving (P : List Task → World σ → Prop) : Service σ → Prop
  | .later tasks w => P tasks w
  | .now _ _ => True

namespace World

variable {w : World σ} {x : Task}

theorem Brings.nothing {w₁ : World σ} (same : w₁.controller.outcome = w.controller.outcome) :
    w.Brings x [] w₁ := ⟨.nothing x, fun _ => same⟩

theorem Yields.brings {xs : List Task} {w₁ : World σ} (yields : w.Yields x xs)
    (same : w₁.controller.outcome = w.controller.outcome) : w.Brings x xs w₁ :=
  ⟨yields, fun _ => same⟩

private theorem leaving_withCore {c : Subject} {f : Core → Move σ}
    (h : ∀ core, w.core? c = some core → (f core).Leaving (w.Brings x)) :
    (w.withCore c f).Leaving (w.Brings x) := by
  unfold withCore
  split
  · next core found => exact h core found
  · exact .nothing rfl

private theorem leaving_withActor {i : Nat} {f : Actor → Move σ}
    (h : ∀ a, w.actors[i]? = some a → (f a).Leaving (w.Brings x)) :
    (w.withActor i f).Leaving (w.Brings x) := by
  unfold withActor
  split
  · next a found => exact h a found
  · exact .nothing rfl

private theorem leaving_withMonitor {m : Nat} {f : Monitor → Move σ}
    (h : ∀ a, w.monitors[m]? = some a → (f a).Leaving (w.Brings x)) :
    (w.withMonitor m f).Leaving (w.Brings x) := by
  unfold withMonitor
  split
  · next a found => exact h a found
  · exact .nothing rfl

private theorem leaving_ite {P : List Task → World σ → Prop} {c : Prop} [Decidable c]
    {yes no : Move σ} (h : yes.Leaving P) (h' : no.Leaving P) :
    (if c then yes else no).Leaving P := by
  split
  · exact h
  · exact h'

/-! ## What an actor does by itself -/

private theorem leaving_wakeActor (i : Nat) : (w.wakeActor i).Leaving (w.Brings (.wake i)) := by
  refine leaving_withActor fun a found => ?_
  split
  · exact (Yields.quits (.inl rfl)).brings rfl
  · simp only
    split
    · exact (Yields.begins i _).brings rfl
    · exact (Yields.goesOn i).brings rfl

private theorem leaving_comeToRest {v : World σ} (running : w.isOver = false)
    (same : v.controller.outcome = w.controller.outcome) (i : Nat) (a : Actor) :
    (v.comeToRest i a).Leaving (w.Brings (.cycle i)) :=
  (Yields.pauses i running).brings (((v.outcome_replyEach a.pending).trans same :))

private theorem leaving_selectEvent (running : w.isOver = false) {i : Nat} {a : Actor}
    (found : w.actors[i]? = some a) (awake : a.core.halted = false) (calm : a.core.raised = none) :
    (w.selectEvent i a).Leaving (w.Brings (.cycle i)) := by
  unfold selectEvent
  split
  · exact leaving_comeToRest running rfl i a
  · next top _ stack =>
    simp only
    split
    · next envelope chosen =>
      have selected : w.selection? i (.cycle i) = some (.event envelope,
          (a.mailbox.dequeue (top.verdict w.policy) top.hasDefault).2.1) := by
        simp [selection?, running, found, awake, calm, stack, chosen]
      exact (Yields.selects i envelope _ selected running).brings (by simp)
    · exact (Yields.defaults i running).brings (by simp)
    · exact leaving_comeToRest running (by simp [Controller.disable]) i a

private theorem leaving_obey {c : Subject} {core : Core} {otherwise : Move σ}
    (own : (∃ i, c = .actor i ∧ x = .cycle i ∧ w.isOver = false) ∨
      ∃ m, c = .monitor m ∧ x = .drain m)
    (found : w.core? c = some core) (awake : core.halted = false)
    (h : core.raised = none → otherwise.Leaving (w.Brings x)) :
    (w.obey c core x otherwise).Leaving (w.Brings x) := by
  unfold obey
  split
  · next calm => exact h calm
  · next raised =>
    have round : w.goesRound x = true := by
      rcases own with ⟨i, rfl, rfl, _⟩ | ⟨m, rfl, rfl⟩ <;> simp [goesRound, found, awake, raised]
    exact (Yields.obeys own found raised round).brings (by simp)

private theorem leaving_cycleActor (i : Nat) : (w.cycleActor i).Leaving (w.Brings (.cycle i)) := by
  unfold cycleActor
  split
  · trivial
  · next running =>
    have running : w.isOver = false := by simpa using running
    refine leaving_withActor fun a found => ?_
    split
    · exact (Yields.quits (.inr rfl)).brings rfl
    · next awake =>
      have awake : a.core.halted = false := by simpa using awake
      exact leaving_obey (.inl ⟨i, rfl, rfl, running⟩) (by simp [core?, found]) awake
        (leaving_selectEvent running found awake)

/-! ## Interpretation -/

private theorem leaving_handle (c : Subject) (event : Event) (r : Option Nat) :
    (w.handle c event r).Leaving (w.Brings (.handle c event r)) := by
  refine leaving_withCore fun core found => ?_
  split
  · exact (Yields.settles c event r).brings (by simp)
  · exact (Yields.consumes c event r _ _).brings (by simp)
  · simp only
    split
    · exact (Yields.settles c event r).brings (by simp)
    · trivial

private theorem leaving_popState (c : Subject) : (w.popState c).Leaving (w.Brings (.pop c)) := by
  refine leaving_withCore fun core found => ?_
  split
  · trivial
  · exact (Yields.pops c core).brings rfl

/-! ## Monitors -/

private theorem leaving_deliver (m : Nat) (event : Event) :
    (w.deliver m event).Leaving (w.Brings (.deliver m event)) := by
  refine leaving_withMonitor fun monitor found => ?_
  refine leaving_ite trivial (leaving_ite (.nothing rfl) ?_)
  exact leaving_ite (.nothing rfl) ((Yields.delivers m event).brings rfl)

private theorem leaving_drainMonitor (m : Nat) :
    (w.drainMonitor m).Leaving (w.Brings (.drain m)) := by
  refine leaving_withMonitor fun monitor found => ?_
  split
  · exact .nothing rfl
  · next awake =>
    exact leaving_obey (.inr ⟨m, rfl, rfl⟩) (by simp [core?, found]) (by simpa using awake)
      fun _ => .nothing rfl

private theorem leaving_defaultsOfMonitor (m : Nat) :
    (w.defaultsOfMonitor m).Leaving (w.Brings (.defaults m)) := by
  refine leaving_withMonitor fun monitor found => ?_
  split
  · next top _ stack =>
    split
    · next heeds =>
      have round : w.goesRound (.defaults m) = true := by
        simpa [goesRound, core?, found, stack] using heeds
      exact (Yields.repeats m round).brings rfl
    · exact .nothing rfl
  · exact .nothing rfl

private theorem leaving_install (descriptor : Descriptor) (id : ActorId) :
    (w.install descriptor id).Leaving (w.Brings (.install descriptor id)) := by
  unfold install
  split
  · trivial
  · split
    · trivial
    · exact (Yields.installs descriptor id _).brings rfl

private theorem leaving_readMonitor (typeTag : String) :
    (w.readMonitor typeTag).Leaving (w.Brings (.readMonitor typeTag)) := by
  unfold readMonitor
  split
  · trivial
  · split
    · trivial
    · refine leaving_withMonitor fun monitor found => ?_
      split <;> trivial

/-! ## Programs -/

/-- Who has to be let through does not come here in an ended run. -/
private theorem Serves.of_running {tasks : List Task} {w₁ : World σ} (running : w.isOver = false)
    (each : ∀ y ∈ tasks, y.serves = true)
    (linked : ∀ speaker outside shared next,
      Linked Task.Precedes tasks (some (.resume speaker outside shared next)))
    (outcome : w₁.controller.outcome = w.controller.outcome) : w.Serves tasks w₁ :=
  ⟨.inl ⟨each, linked⟩, outcome, fun ceased => nomatch running.symm.trans ceased⟩

private theorem Serves.of_balks {y : Task} {ys : List Task} (balks : y.balks = true)
    (each : ∀ z ∈ ys, z.serves = true)
    (linked : ∀ speaker outside shared next,
      Linked Task.Precedes (y :: ys) (some (.resume speaker outside shared next))) :
    w.Serves (y :: ys) w :=
  ⟨.inl ⟨List.forall_mem_cons.2 ⟨Task.serves_of_balks balks, each⟩, linked⟩, rfl,
    fun _ => ⟨y, ys, rfl, balks⟩⟩

private theorem leaving_send (caller : Option Nat) (target : ActorId) (event : Event) :
    (w.serveTasks (w.send caller target event)).Leaving w.Serves := by
  cases sent : w.send caller target event with
  | error r => trivial
  | ok xs =>
    obtain ⟨i, running, _, _, rfl⟩ := send_eq_ok sent
    exact .of_running running (by simp [Task.serves]) (by simp [Linked, Task.Precedes]) rfl

private theorem leaving_sendAndExecute (caller : Option Nat) (target : ActorId) (event : Event) :
    (w.sendAndExecute caller target event).Leaving w.Serves := by
  have sent := w.ofRendezvous caller target event
  generalize w.sendAndExecute caller target event = service at sent
  cases sent with
  | refused | fails => trivial
  | brings running =>
    exact .of_running running (by simp [Task.serves]) (by simp [Linked, Task.Precedes]) rfl

private theorem leaving_create (caller : Option Nat) (typeTag : String) (name : Option String)
    (event : Option Event) (execute : Bool) :
    (w.create caller typeTag name event execute).Leaving w.Serves := by
  have created := w.ofCreation caller typeTag name event execute
  generalize w.create caller typeTag name event execute = service at created
  cases created with
  | refused | overflows | taken => trivial
  | populates running =>
    unfold populate
    split
    · refine ⟨?_, by simp, fun ceased => nomatch running.symm.trans ceased⟩
      generalize World.explores _ = explores
      cases explores with
      | true => exact .inr ⟨_, rfl⟩
      | false => exact .inl ⟨by simp [Task.serves], by simp [Linked, Task.Precedes]⟩
    · exact .of_running running (by simp [Task.serves]) (by simp [Linked, Task.Precedes])
        (by simp)

private theorem leaving_serveDemand {P : List Task → World σ → Prop}
    (context : Option (Subject × Phase × Core)) (d : Demand) :
    (w.serveDemand context d).Leaving P := by
  have demanded := w.ofDemand context d
  generalize w.serveDemand context d = service at demanded
  cases demanded <;> trivial

theorem leaving_serve [Strategy σ] (w : World σ) (caller : Option Nat) (speaker : Speaker)
    (voice : Voice) (request : Request) :
    (w.serve caller speaker voice request).Leaving w.Serves := by
  cases request <;> simp only [serve]
  case send | stopTimer =>
    split
    · trivial
    · exact leaving_send _ _ _
  case sendAndExecute target event =>
    split
    · trivial
    · exact leaving_sendAndExecute _ _ _
  case create =>
    split
    · trivial
    · exact leaving_create _ _ _ _ _
  case startTimer =>
    split
    · trivial
    · trivial
    · exact leaving_create _ _ _ _ _
  case raise | goto | push | pop => exact leaving_serveDemand _ _
  case assert =>
    unfold assert
    split
    · trivial
    · split <;> trivial
  case randomBool =>
    unfold randomBool
    simp only
    split <;> trivial
  case randomInt =>
    unfold randomInt
    simp only
    split <;> trivial
  case monitor =>
    split
    · trivial
    · trivial
    · next ensured =>
      exact .of_running (ensureRunning_eq_ok ensured) (by simp [Task.serves])
        (by simp [Linked, Task.Precedes]) rfl
  case registerMonitor typeTag =>
    cases begun : w.registerMonitor typeTag with
    | error r => trivial
    | ok xs =>
      obtain ⟨_, _, running, _, rfl⟩ := registerMonitor_eq_ok begun
      exact .of_running running (by simp [Task.serves]) (by simp [Linked, Task.Precedes]) rfl
  case waitForQuiescence =>
    split
    · trivial
    · exact .of_balks rfl (by simp [Task.serves]) (by simp [Linked, Task.Precedes])
  case point | awaitHalted | monitors | monitorState =>
    exact .of_balks rfl (by simp [Task.serves]) (by simp [Linked, Task.Precedes])
  case access =>
    split
    · exact .of_balks rfl (by simp [Task.serves]) (by simp [Linked, Task.Precedes])
    · trivial
  all_goals trivial

private theorem leaving_perform [Strategy σ] (t : ThreadId) (speaker : Speaker) (program : Program) :
    (w.perform t speaker program).Leaving fun xs _ => w.Yields (.perform speaker program) xs := by
  cases program with
  | finish memory ending =>
    cases speaker with
    | action c phase =>
      have reports : ∀ (v : World σ) (report : Core → BugReport),
          (if v.isOver then v.unwind .canceled
            else v.withCore c fun core => (v.report (report core)).unwind .canceled).Leaving
          fun xs _ => w.Yields (.perform (.action c phase) (.finish memory ending)) xs := by
        intro v report
        refine leaving_ite trivial ?_
        unfold withCore
        split
        · trivial
        · exact .nothing _
      simp only [perform, finishAction]
      split
      · exact .nothing _
      · exact leaving_ite trivial (reports _ _)
      · exact reports _ _
    | test => exact .ends memory ending
    | sleeper j =>
      simp only [perform, finishFiring]
      split
      · exact leaving_ite (.sleeps j memory _) (.nothing _)
      · exact .nothing _
  | ask voice request next =>
    simp only [perform]
    split
    · exact .nothing _
    · next thread found =>
      have leads := w.leaving_serve
        (if thread.outside || voice == .outsider then none else w.operation? t) speaker voice request
      split
      · exact .goes speaker voice request next _
      · next tasks v served =>
        rw [served] at leads
        rcases leads.shape with ⟨each, linked⟩ | ⟨v, rfl⟩
        · exact .asks speaker voice request next _ _ each (linked _ _ _ _)
        · exact .creates speaker voice request next _ _ v

/-! ## Tasks -/

private theorem leaving_follow {v : World σ} (same : v.controller.outcome = w.controller.outcome)
    (p : Passage) : (v.follow p []).Leaving (w.Brings x) := by
  cases p with
  | passed => exact .nothing same
  | waits | canceled => trivial

/-- What stands for a task that has been done is what the task leads to. -/
theorem leaving_exec [Strategy σ] (w : World σ) (t : ThreadId) (x : Task) :
    (w.exec t x).Leaving (w.Brings x) := by
  have passing : ∀ {op}, w.controller.passage op = .passed → w.isOver = false := by
    intro op passed
    by_contra ceased
    have canceled : w.controller.passage op = .canceled :=
      Controller.passage_eq_canceled_iff.2 (by simpa [isOver] using ceased)
    cases canceled.symm.trans passed
  cases x <;> simp only [exec]
  case firstTurn i =>
    refine leaving_withActor fun a found => ?_
    split
    · next passed =>
      refine (Yields.wakes (.inl rfl) (Bool.eq_false_iff.2 fun ceased => ?_)).brings rfl
      have ended : w.controller.isOver = true := ceased
      simp [Controller.waitForTurn, ended] at passed
    · trivial
    · exact .nothing (by simp)
  case rest i =>
    refine leaving_withActor fun a found => ?_
    split
    · next passed => exact (Yields.wakes (.inr rfl) (passing passed)).brings rfl
    · trivial
    · exact .nothing (by simp)
  case wake i => exact leaving_wakeActor i
  case cycle i => exact leaving_cycleActor i
  case retire | pass => split <;> exact ⟨.nothing _, fun still => by cases still⟩
  case start c event =>
    exact leaving_withCore fun core _ => (Yields.enters (.inl rfl) _).brings (by simp)
  case handle c event r => exact leaving_handle c event r
  case settle =>
    refine leaving_withActor fun a _ => .nothing ?_
    split <;> simp
  case invoke c action event phase =>
    exact leaving_withCore fun core _ => (Yields.invokes c action event phase _).brings rfl
  case switch c target event =>
    exact leaving_withCore fun core _ =>
      leaving_ite (.nothing rfl) ((Yields.switches c target event).brings (by simp))
  case enter c target event =>
    refine leaving_withCore fun core _ => ?_
    split
    · exact (Yields.enters (.inr ⟨target, rfl⟩) _).brings (by simp)
    · trivial
  case pop c => exact leaving_popState c
  case dropTop => exact leaving_withCore fun core _ => .nothing (by simp)
  case forward event => exact leaving_ite trivial ((Yields.forwards event).brings rfl)
  case notify typeTag event =>
    refine leaving_ite trivial ?_
    split
    · next listed => exact (Yields.notifies typeTag event _ listed).brings rfl
    · trivial
  case deliver m event => exact leaving_deliver m event
  case drain m => exact leaving_drainMonitor m
  case defaults m => exact leaving_defaultsOfMonitor m
  case install descriptor id => exact leaving_install descriptor id
  case release | enlist => exact .nothing rfl
  case post => exact .nothing (by simp)
  case listMonitors => exact leaving_ite trivial trivial
  case readMonitor typeTag => exact leaving_readMonitor typeTag
  case engage i event =>
    simp only [engage]
    split
    · exact (Yields.engages i event _).brings (by simp)
    · exact (Yields.awaits i event _).brings (by simp)
  case collect | answer => trivial
  case await r =>
    unfold awaitReply
    split
    · exact .nothing rfl
    · exact leaving_ite trivial trivial
  case point kind =>
    split
    · trivial
    · next running =>
      refine leaving_ite (.nothing rfl) ?_
      split
      · trivial
      · exact (Yields.passes kind (by simpa using running)).brings rfl
  case turn =>
    split
    · exact leaving_follow rfl _
    · exact .nothing rfl
  case touch => split <;> trivial
  case awaitHalted => exact leaving_ite trivial (leaving_ite (.nothing rfl) trivial)
  case awaitQuiescence => exact leaving_follow rfl _
  case sleep j =>
    unfold sleep
    split
    · exact .nothing rfl
    · split
      · exact .nothing rfl
      · next running =>
        refine leaving_ite trivial ((Yields.fires j _ ?_).brings rfl)
        rw [Bool.or_eq_true, not_or] at running
        simpa using running.2
  case perform speaker program =>
    have leads := w.leaving_perform t speaker program
    cases done : w.perform t speaker program with
    | wait | answer => trivial
    | go xs w₁ =>
      rw [done] at leads
      exact ⟨leads, fun still => by cases still⟩
  case resume speaker outside shared next =>
    split
    · exact (Yields.resumes speaker outside shared next _).brings (by simp)
    · exact .nothing rfl

/-- A task that has been done. -/
theorem brings_of_exec [Strategy σ] {t : ThreadId} {xs : List Task} {w₁ : World σ}
    (executed : w.exec t x = .go xs w₁) : w.Brings x xs w₁ := by
  have brings := w.leaving_exec t x
  rwa [executed] at brings

end World

/-- What a thread has to do when its task was given up: the program that waits gets an answer. -/
inductive GivesUp (rest : List Task) : List Task → Prop where
  | resumes {speaker : Speaker} {before shared : Bool} {next : Answer → Program}
      {below : List Task} (suffix : .resume speaker before shared next :: below <:+ rest)
      (a : Answer) : GivesUp rest (.perform speaker (next a) :: below)
  | ends : GivesUp rest []
  | retires : GivesUp rest [.retire .yield]

/-- What a thread has to do after a task, in front of it what was below. -/
inductive World.Goes (w : World σ) (x : Task) (rest : List Task) : List Task → Prop where
  | does {xs : List Task} (yields : w.Yields x xs) : Goes w x rest (xs ++ rest)
  | gives {tasks : List Task} (gives : GivesUp rest tasks) : Goes w x rest tasks

/-- An answer reaches the program that waits. -/
theorem World.givesUp_of_deliverAnswer [Strategy σ] (w : World σ) {t : ThreadId} {a : Answer}
    {rest : List Task} {thread : Thread}
    (now : (w.deliverAnswer t a rest).thread? t = some thread) :
    GivesUp rest thread.tasks := by
  have unwinds := unwinds_deliverAnswer (S := fun _ => True) w t a rest
  generalize w.deliverAnswer t a rest = w' at now unwinds
  cases unwinds with
  | resumes _ suffix a =>
    rw [eq_of_thread?_setThread _ now]
    exact .resumes suffix a
  | ends =>
    rw [eq_of_thread?_setThread _ now]
    exact .ends
  | abandons =>
    rw [eq_of_thread?_setThread _ now]
    exact .retires

theorem World.goes_of_stepThread? [Strategy σ] {w w' : World σ} {t : ThreadId} {x : Task}
    {rest : List Task} {outside : Bool} (found : w.thread? t = some ⟨x :: rest, outside⟩)
    (moved : w.stepThread? t = some w') {thread : Thread} (now : w'.thread? t = some thread) :
    w.Goes x rest thread.tasks := by
  obtain ⟨x', rest', outside', found', steps⟩ := of_stepThread? moved
  cases found.symm.trans found'
  rcases steps with ⟨xs, w₁, old, executed, _, rfl⟩ | ⟨a, w₁, executed, delivered⟩
  · rw [w₁.eq_of_thread?_setThread now]
    exact .does (brings_of_exec executed).yields
  · rw [delivered] at now
    exact .gives (w₁.givesUp_of_deliverAnswer now)

/-! ## What all threads have to do -/

/-- What holds of all that a thread has to do, whatever is done. -/
structure Enduring (σ : Type) (P : List Task → Prop) : Prop where
  done : P []
  begins : ∀ i, P [.firstTurn i]
  sleeps : ∀ j, P [.sleep j]
  retires : P [.retire .yield]
  yields : ∀ {w : World σ} {x : Task} {xs rest : List Task}, w.Yields x xs → P (x :: rest) →
    P (xs ++ rest)
  resumes : ∀ {x : Task} {speaker : Speaker} {before shared : Bool} {next : Answer → Program}
    {below rest : List Task}, .resume speaker before shared next :: below <:+ rest →
      P (x :: rest) → ∀ program, P (.perform speaker program :: below)

/-- It holds of what every thread has to do. -/
def World.Everywhere (w : World σ) (P : List Task → Prop) : Prop :=
  ∀ t thread, w.thread? t = some thread → P thread.tasks

variable [Strategy σ] {P : List Task → Prop}

namespace World

variable {w w' : World σ} {t : ThreadId}

theorem Everywhere.does (everywhere : w.Everywhere P) (lasting : Enduring σ P) (orderly : w.Orderly)
    (moved : w.stepThread? t = some w') : w'.Everywhere P := by
  intro u thread now
  by_cases mine : u = t
  · subst mine
    obtain ⟨x, rest, outside, found, _⟩ := of_stepThread? moved
    have here := everywhere u _ found
    have goes := goes_of_stepThread? found moved now
    generalize thread.tasks = tasks at goes
    cases goes with
    | does yields => exact lasting.yields yields here
    | gives gives =>
      cases gives with
      | resumes suffix => exact lasting.resumes suffix here _
      | ends => exact lasting.done
      | retires => exact lasting.retires
  · rcases orderly.bystander moved mine now with ⟨old, was, same⟩ | ⟨_, k, same | same⟩
    · exact same ▸ everywhere u old was
    · exact same ▸ lasting.begins k
    · exact same ▸ lasting.sleeps k

theorem Everywhere.step (everywhere : w.Everywhere P) (lasting : Enduring σ P) (orderly : w.Orderly)
    (moved : w.step? = some w') : w'.Everywhere P := by
  rcases of_step? moved with ⟨t, _, does⟩ | ⟨_, clock, rfl⟩
  · exact everywhere.does lasting orderly does
  · intro u thread now
    exact everywhere u thread (by cases u <;> exact now)

end World

/-- In every run. -/
theorem Experiment.everywhere (e : Experiment) (accepted : e.registry.Accepted) (ids : Allocator)
    (s : σ) (lasting : Enduring σ P) (test : ∀ program, P [.perform .test program]) (n : Nat) :
    (e.iterate n ids s).Everywhere P := by
  induction n with
  | zero =>
    intro t thread found
    cases t with
    | driver =>
      obtain rfl := Option.some.inj found
      exact test _
    | actor i | sleeper j => cases found
  | succ n ih =>
    rw [e.iterate_succ]
    cases moved : (e.iterate n ids s).step? with
    | none => exact ih
    | some w => exact ih.step lasting ((e.reached n ids s).orderly accepted) moved

/-! ## What comes next -/

private theorem precedes_of_interprets {xs : List Task} (each : ∀ y ∈ xs, y.interprets = true)
    (next : Option Task) : Linked Task.Precedes xs next := by
  refine Linked.of_forall fun y mem _ => ?_
  have interprets := each y mem
  cases y <;> trivial

omit [Strategy σ] in
/-- What a task leaves may come before whatever came after the task. -/
theorem World.Yields.precedes {w : World σ} {x : Task} {xs : List Task} (yields : w.Yields x xs)
    {next : Option Task} (before : x.Precedes next) : Linked Task.Precedes xs next := by
  cases yields with
  | nothing => trivial
  | asks _ _ _ _ _ _ _ linked => exact Linked.append_iff.2 ⟨linked, trivial, trivial⟩
  | creates => exact ⟨trivial, trivial, ⟨_, _, _, _, rfl⟩, trivial, trivial⟩
  | engages | awaits => simpa [Linked, Task.Precedes] using before
  | obeys own =>
    refine Linked.append_iff.2 ⟨precedes_of_interprets (interprets_obedience _ _ _) _, ?_⟩
    rcases own with ⟨_, _, rfl, _⟩ | ⟨_, _, rfl⟩ <;> exact ⟨trivial, trivial⟩
  | enters => exact precedes_of_interprets (interprets_invocation _ _ _ _) _
  | settles => exact precedes_of_interprets (interprets_settlement _ _ _) _
  | consumes =>
    exact Linked.append_iff.2 ⟨precedes_of_interprets (interprets_consumption _ _ _ _) _,
      precedes_of_interprets (interprets_settlement _ _ _) _⟩
  | pops =>
    exact Linked.append_iff.2 ⟨precedes_of_interprets (interprets_leaving _ _ _) _,
      trivial, trivial⟩
  | forwards event =>
    refine Linked.of_forall fun y mem _ => ?_
    obtain ⟨m, _, rfl⟩ := List.mem_map.1 mem
    trivial
  | _ => simp [Linked, Task.Precedes]

omit [Strategy σ] in
/-- At all times, after each task that a thread has to do comes what has to. -/
theorem enduring_precedes : Enduring σ (Linked Task.Precedes · none) where
  done := trivial
  begins _ := ⟨trivial, trivial⟩
  sleeps _ := ⟨trivial, trivial⟩
  retires := ⟨trivial, trivial⟩
  yields yields linked := Linked.append_iff.2 ⟨yields.precedes linked.1, linked.2⟩
  resumes suffix linked _ := ⟨trivial, (linked.2.of_suffix suffix).2⟩

end SteeredActors
