import SteeredActors.Proofs.World.Errands

/-!
# Interpreters are private

An interpreter is changed by its own work only: by the tasks that interpret it, and, of an actor, by
what it does between them. Whatever else is done, in its own thread or in another one, leaves it as it
is, with its stack, its memory and its demand.
-/

set_option autoImplicit false
set_option relaxedAutoImplicit false

namespace SteeredActors

variable {σ : Type}

/-- An interpreter, and of an actor the event that it starts with. -/
def World.mind? (w : World σ) : Subject → Option (Core × Option Event)
  | .actor i => w.actors[i]?.map fun a => (a.core, a.creationEvent)
  | .monitor m => w.monitors[m]?.map fun a => (a.core, none)

/-- A task is the work of an interpreter, or what its actor does between. -/
def Task.Minds (x : Task) (c : Subject) : Prop :=
  x.subject? = some c ∨ ∃ i, c = .actor i ∧ x.worker? = some i

/-- A request that adds an actor. -/
def Request.creates : Request → Bool
  | .create _ _ _ _ | .startTimer _ _ => true
  | _ => false

/-- What a request asks of the interpreter whose action makes it. -/
def Request.demand? : Request → Option Demand
  | .raise event => some (.event event)
  | .goto state => some (.goto state)
  | .push state => some (.push state)
  | .pop => some .pop
  | _ => none

/-- The kind of the interpreter that a task may add. -/
def Task.creates? : Task → Option ActorKind
  | .perform _ (.ask _ request _) => if request.creates then some .machine else none
  | .install _ _ => some .monitor
  | _ => none

namespace World

section

variable (w : World σ) (c : Subject)

@[simp] theorem mind?_note (who text : String) : (w.note who text).mind? c = w.mind? c := by
  unfold note
  split <;> cases c <;> rfl

@[simp] theorem mind?_observe (event : LifecycleEvent) :
    (w.observe event).mind? c = w.mind? c := by
  unfold observe
  split <;> cases c <;> rfl

@[simp] theorem mind?_controller (controller : Controller σ) :
    mind? { w with controller } c = w.mind? c := by
  cases c <;> rfl

@[simp] theorem mind?_report (report : BugReport) : (w.report report).mind? c = w.mind? c :=
  w.mind?_controller c _

/-- What is changed of an actor is not its interpreter. -/
theorem mind?_modifyActor (i : Nat) {f : Actor → Actor}
    (kept : ∀ a, (f a).core = a.core ∧ (f a).creationEvent = a.creationEvent) :
    (w.modifyActor i f).mind? c = w.mind? c := by
  cases c with
  | monitor m => rfl
  | actor j =>
    simp only [mind?, modifyActor, List.getElem?_modify]
    cases w.actors[j]? with
    | none => rfl
    | some a =>
      by_cases same : i = j
      · simp [same, kept a]
      · simp [same]

theorem mind?_modifyMonitor (m : Nat) {f : Monitor → Monitor} (kept : ∀ a, (f a).core = a.core) :
    (w.modifyMonitor m f).mind? c = w.mind? c := by
  cases c with
  | actor i => rfl
  | monitor k =>
    simp only [mind?, modifyMonitor, List.getElem?_modify]
    cases w.monitors[k]? with
    | none => rfl
    | some a =>
      by_cases same : m = k
      · simp [same, kept a]
      · simp [same]

variable {c} in
theorem mind?_modifyCore {d : Subject} (other : d ≠ c) (f : Core → Core) :
    (w.modifyCore d f).mind? c = w.mind? c := by
  cases d with
  | actor i =>
    cases c with
    | monitor m => rfl
    | actor j =>
      have ne : i ≠ j := fun e => other (congrArg Subject.actor e)
      simp [mind?, modifyCore, modifyActor, ne]
  | monitor m =>
    cases c with
    | actor j => rfl
    | monitor k =>
      have ne : m ≠ k := fun e => other (congrArg Subject.monitor e)
      simp [mind?, modifyCore, modifyMonitor, ne]

/-- What an interpreter does to itself. -/
theorem mind?_modifyCore_self (f : Core → Core) :
    (w.modifyCore c f).mind? c = (w.mind? c).map fun mind => (f mind.1, mind.2) := by
  cases c with
  | actor i =>
    simp only [mind?, modifyCore, modifyActor, List.getElem?_modify_eq]
    cases w.actors[i]? <;> rfl
  | monitor m =>
    simp only [mind?, modifyCore, modifyMonitor, List.getElem?_modify_eq]
    cases w.monitors[m]? <;> rfl

variable {c} in
theorem mind?_setStack {d : Subject} (other : d ≠ c) (stack : List ActiveState) :
    (w.setStack d stack).mind? c = w.mind? c := w.mind?_modifyCore other _

@[simp] theorem mind?_setThread (t : ThreadId) (thread : Thread) :
    (w.setThread t thread).mind? c = w.mind? c := by
  cases t with
  | driver | sleeper j => cases c <;> rfl
  | actor i => exact w.mind?_modifyActor c i fun _ => ⟨rfl, rfl⟩

@[simp] theorem mind?_reply (r : Nat) (handled : Bool) :
    (w.reply r handled).mind? c = w.mind? c := by
  unfold reply
  split
  · next waiter _ => cases waiter <;> cases c <;> rfl
  · rfl

@[simp] theorem mind?_replyAll (rs : List Nat) (handled : Bool) :
    (w.replyAll rs handled).mind? c = w.mind? c := by
  unfold replyAll
  induction rs generalizing w with
  | nil => rfl
  | cons r rs ih => rw [List.foldl_cons, ih, mind?_reply]

theorem mind?_replyEach (pending : List (Nat × Bool)) :
    (pending.foldl (fun w (r, handled) => w.reply r handled) w).mind? c = w.mind? c := by
  induction pending generalizing w with
  | nil => rfl
  | cons p pending ih => exact (ih _).trans (w.mind?_reply c _ _)

@[simp] theorem mind?_discard (envelopes : List Envelope) :
    (w.discard envelopes).mind? c = w.mind? c := w.mind?_replyAll c _ _

@[simp] theorem mind?_openRendezvous (caller : Option Nat) :
    (w.openRendezvous caller).2.mind? c = w.mind? c := by
  cases c <;> rfl

@[simp] theorem mind?_blockCaller (caller : Option Nat) :
    (w.blockCaller caller).mind? c = w.mind? c := by
  unfold blockCaller
  cases caller with
  | none => rfl
  | some op =>
    simp only
    split <;> simp

@[simp] theorem mind?_enqueue (i : Nat) (envelope : Envelope) :
    (w.enqueue i envelope).mind? c = w.mind? c := by
  unfold enqueue
  split
  · rfl
  · next a _ =>
    cases a.mailbox.enqueue envelope with
    | mk arrival mailbox =>
      have same := w.mind?_modifyActor c i (f := fun a => { a with mailbox }) fun _ => ⟨rfl, rfl⟩
      cases arrival <;> simp [same]

@[simp] theorem mind?_abandon (i : Nat) : (w.abandon i).mind? c = w.mind? c := by
  unfold abandon
  split
  · rfl
  · next a _ =>
    simp only [mind?_replyAll, mind?_discard]
    exact w.mind?_modifyActor c i fun _ => ⟨rfl, rfl⟩

variable {c} in
theorem mind?_halt {d : Subject} (other : d ≠ c) : (w.halt d).mind? c = w.mind? c := by
  unfold halt
  split
  · rfl
  · split
    · rfl
    · cases d with
      | actor i =>
        simp only [mind?_observe, mind?_abandon]
        exact w.mind?_modifyCore other _
      | monitor m =>
        simp only [mind?_observe]
        exact w.mind?_modifyCore other _

end

theorem core?_eq_mind? (w : World σ) (c : Subject) : w.core? c = (w.mind? c).map (·.1) := by
  cases c with
  | actor i => cases there : w.actors[i]? <;> simp [core?, mind?, there]
  | monitor m => cases there : w.monitors[m]? <;> simp [core?, mind?, there]

/-- The actor with an interpreter. -/
theorem actor_of_mind? {w : World σ} {i : Nat} {core : Core} {event : Option Event}
    (mind : w.mind? (.actor i) = some (core, event)) :
    ∃ a, w.actors[i]? = some a ∧ a.core = core ∧ a.creationEvent = event := by
  obtain ⟨a, there, same⟩ := Option.map_eq_some_iff.1 mind
  cases same
  exact ⟨a, there, rfl, rfl⟩

theorem core?_of_mind? {w : World σ} {c : Subject} {core : Core} {event : Option Event}
    (mind : w.mind? c = some (core, event)) : w.core? c = some core := by
  cases c with
  | actor i =>
    obtain ⟨a, there, rfl, _⟩ := actor_of_mind? mind
    simp [core?, there]
  | monitor m =>
    obtain ⟨a, there, same⟩ := Option.map_eq_some_iff.1 mind
    cases same
    simp [core?, there]

/-! ## Services -/

section

variable {w : World σ} {c : Subject} {mind : Option (Core × Option Event)}
  (found : w.mind? c = mind)
include found

private theorem mind?_addActor (known : c.kind = .machine → mind.isSome = true) (id : ActorId)
    (descriptor : Descriptor) (event : Option Event) (rendezvous : Option Nat) :
    (w.addActor id descriptor event rendezvous).mind? c = mind := by
  simp only [addActor, mind?_observe]
  cases c with
  | monitor m => exact found
  | actor i =>
    obtain ⟨mind, rfl⟩ := Option.isSome_iff_exists.1 (known rfl)
    obtain ⟨a, there, same⟩ := Option.map_eq_some_iff.1 found
    have inside := (List.getElem?_eq_some_iff.1 there).1
    simp [mind?, List.getElem?_append_left inside, there, same]

private theorem mind?_create (known : c.kind = .machine → mind.isSome = true) (caller : Option Nat)
    (typeTag : String) (name : Option String) (event : Option Event) (execute : Bool) :
    (w.create caller typeTag name event execute).All fun w' => w'.mind? c = mind := by
  have numbers : ∀ ids, mind? { w with ids } c = mind := fun _ => by cases c <;> exact found
  have created := w.ofCreation caller typeTag name event execute
  generalize w.create caller typeTag name event execute = service at created
  cases created with
  | refused => exact found
  | overflows => simpa [refuse] using found
  | taken => exact numbers _
  | @populates d id ids =>
    cases execute with
    | true =>
      simp only [populate, if_true, Service.All, mind?_blockCaller]
      exact mind?_addActor ((mind?_openRendezvous _ c caller).trans (numbers ids)) known _ _ _ _
    | false => exact mind?_addActor (numbers ids) known _ _ _ _

private theorem mind?_sendAndExecute (caller : Option Nat) (target : ActorId) (event : Event) :
    (w.sendAndExecute caller target event).All fun w' => w'.mind? c = mind := by
  have sent := w.ofRendezvous caller target event
  generalize w.sendAndExecute caller target event = service at sent
  cases sent with
  | refused | brings => exact found
  | fails => simpa [refuse] using found

private theorem mind?_serveTasks (tasks : Except Refusal (List Task)) :
    (w.serveTasks tasks).All fun w' => w'.mind? c = mind := by
  cases tasks <;> exact found

private theorem mind?_serveDemand {context : Option (Subject × Phase × Core)}
    (other : ∀ d phase core, context = some (d, phase, core) → d ≠ c) (demand : Demand) :
    (w.serveDemand context demand).All fun w' => w'.mind? c = mind := by
  have demanded := w.ofDemand context demand
  generalize w.serveDemand context demand = service at demanded
  cases demanded with
  | nobody => exact found
  | fails => simpa [refuse] using found
  | kept asked => exact (w.mind?_modifyCore (other _ _ _ asked) _).trans found

variable [Strategy σ]

/-- A request changes no interpreter but that of the action that makes it, and that one only by a
demand. -/
theorem mind?_serve (caller : Option Nat) {speaker : Speaker} (voice : Voice) (request : Request)
    (other : request.demand?.isSome = true → ∀ d phase, speaker = .action d phase → d ≠ c)
    (known : request.creates = true → c.kind = .machine → mind.isSome = true) :
    (w.serve caller speaker voice request).All fun w' => w'.mind? c = mind := by
  have apart : request.demand?.isSome = true →
      ∀ d phase core, w.context? speaker voice = some (d, phase, core) → d ≠ c := by
    intro demands d phase core context
    obtain ⟨-, same, -⟩ := context?_eq_some context
    exact other demands _ _ same
  cases request <;> simp only [serve]
  case journal => simpa [Service.All] using found
  case send target event | stopTimer target =>
    split
    · exact found
    · exact mind?_serveTasks found _
  case sendAndExecute target event =>
    split
    · exact found
    · exact mind?_sendAndExecute found _ _ _
  case create typeTag name event execute =>
    split
    · exact found
    · exact mind?_create found (known rfl) _ _ _ _ _
  case raise | goto | push | pop => exact mind?_serveDemand found (apart rfl) _
  case startTimer period periodic =>
    split
    · exact found
    · exact found
    · exact mind?_create found (known rfl) _ _ _ _ _
  case assert holds message =>
    unfold World.assert
    split
    · exact found
    · split
      · exact found
      · simpa [refuse, failAssertion] using found
  case randomBool =>
    unfold randomBool
    simp only
    split <;> simpa [refuse] using found
  case randomInt max =>
    unfold randomInt
    simp only
    split <;> simpa [refuse] using found
  case monitor typeTag event => split <;> exact found
  case registerMonitor typeTag => exact mind?_serveTasks found _
  case waitForQuiescence => split <;> exact found
  case shutdown | terminate | reportBug => simpa [Service.All] using found
  case access =>
    split <;> exact found
  case startSleeper | newObject => cases c <;> exact found
  case stopSleeper =>
    unfold stopSleeper
    split <;> cases c <;> exact found
  all_goals exact found

end

/-! ## Tasks -/

section

variable {w : World σ} {c : Subject} {mind : Option (Core × Option Event)}
  (found : w.mind? c = mind)
include found

private theorem mind?_withCore {d : Subject} {f : Core → Move σ}
    (kept : ∀ core, (f core).All fun w' => w'.mind? c = mind) :
    (w.withCore d f).All fun w' => w'.mind? c = mind := by
  unfold withCore
  split
  · exact kept _
  · exact found

private theorem mind?_withActor {i : Nat} {f : Actor → Move σ}
    (kept : ∀ a, (f a).All fun w' => w'.mind? c = mind) :
    (w.withActor i f).All fun w' => w'.mind? c = mind := by
  unfold withActor
  split
  · exact kept _
  · exact found

private theorem mind?_withMonitor {m : Nat} {f : Monitor → Move σ}
    (kept : ∀ a, (f a).All fun w' => w'.mind? c = mind) :
    (w.withMonitor m f).All fun w' => w'.mind? c = mind := by
  unfold withMonitor
  split
  · exact kept _
  · exact found

private theorem mind?_unwindAssertion (core : Core) (message : String) :
    (w.unwindAssertion core message).All fun w' => w'.mind? c = mind := by
  simpa [unwindAssertion, failAssertion, unwind] using found

private theorem mind?_pushState {d : Subject} (other : d ≠ c) (core : Core) (s : StateDescriptor)
    (event : Option Event) :
    (w.pushState d core s event).All fun w' => w'.mind? c = mind :=
  (w.mind?_setStack other _).trans found

private theorem mind?_handle {d : Subject} (other : d ≠ c) (event : Event) (r : Option Nat) :
    (w.handle d event r).All fun w' => w'.mind? c = mind := by
  refine mind?_withCore found fun core => ?_
  split
  · exact (w.mind?_setStack other _).trans found
  · exact (w.mind?_setStack other _).trans found
  · simp only
    split
    · exact (mind?_halt _ other).trans ((w.mind?_setStack other _).trans found)
    · simpa [unwind] using (w.mind?_setStack other []).trans found

private theorem mind?_obey {d : Subject} (other : d ≠ c) (core : Core) (again : Task)
    {otherwise : Move σ} (kept : otherwise.All fun w' => w'.mind? c = mind) :
    (w.obey d core again otherwise).All fun w' => w'.mind? c = mind := by
  unfold obey
  split
  · exact kept
  · exact (w.mind?_modifyCore other _).trans found

/-- To select an event changes no interpreter. -/
theorem mind?_selectEvent (i : Nat) (a : Actor) :
    (w.selectEvent i a).All fun w' => w'.mind? c = mind := by
  have rests : ∀ (v : World σ), v.mind? c = mind →
      (v.comeToRest i a).All fun w' => w'.mind? c = mind := by
    intro v kept
    exact Eq.trans (mind?_modifyActor _ c i fun _ => ⟨rfl, rfl⟩)
      ((v.mind?_replyEach c a.pending).trans kept)
  unfold selectEvent
  split
  · exact rests w found
  · next top _ _ =>
    cases a.mailbox.dequeue (top.verdict w.policy) top.hasDefault with
    | mk selected rest =>
      obtain ⟨discarded, mailbox⟩ := rest
      have emptied : (w.modifyActor i fun a => { a with mailbox }).mind? c = mind :=
        Eq.trans (w.mind?_modifyActor c i fun _ => ⟨rfl, rfl⟩) found
      cases selected with
      | event envelope | default => simpa using emptied
      | idle => exact rests _ (by simpa using emptied)

private theorem mind?_follow (p : Passage) (tasks : List Task) :
    (w.follow p tasks).All fun w' => w'.mind? c = mind := by
  cases p with
  | passed => exact found
  | waits => trivial
  | canceled => exact found

private theorem mind?_finishAction {d : Subject} (other : d ≠ c) (memory : Memory)
    (ending : Ending) : (w.finishAction d memory ending).All fun w' => w'.mind? c = mind := by
  have remembers := (w.mind?_modifyCore other fun core => { core with memory }).trans found
  have reported : ∀ (w₁ : World σ) text, w₁.mind? c = mind →
      Move.All (fun w' => w'.mind? c = mind)
        (if w₁.isOver then w₁.unwind .canceled
          else w₁.withCore d fun core => (w₁.report (faultReport core text)).unwind .canceled) := by
    intro w₁ text kept
    split
    · exact kept
    · exact mind?_withCore kept fun core => by simpa [unwind] using kept
  simp only [finishAction]
  cases ending with
  | ok => exact remembers
  | panicked message => exact reported _ _ remembers
  | failed failure =>
    simp only
    split
    · exact remembers
    · exact reported _ _ remembers

private theorem mind?_finishTest (memory : Memory) (ending : Ending) :
    (w.finishTest memory ending).All fun w' => w'.mind? c = mind := by
  have same : mind? { w with test := { w.test with memory, ending := some ending } } c =
      mind := by cases c <;> exact found
  simp only [finishTest, Move.All]
  cases ending with
  | ok => exact same
  | panicked message =>
    simp only
    split
    · exact same
    · simpa using same
  | failed failure =>
    simp only
    split
    · exact same
    · split
      · exact same
      · simpa using same

variable [Strategy σ]

private theorem mind?_perform (t : ThreadId) {speaker : Speaker}
    (other : ∀ d phase, speaker = .action d phase → d ≠ c) (program : Program)
    (known : Task.creates? (.perform speaker program) = some c.kind → mind.isSome = true) :
    (w.perform t speaker program).All fun w' => w'.mind? c = mind := by
  cases program with
  | finish memory ending =>
    cases speaker with
    | action d phase => exact mind?_finishAction found (other d phase rfl) memory ending
    | test => exact mind?_finishTest found memory ending
    | sleeper j =>
      simp only [perform, finishFiring]
      split
      · split
        · cases c <;> exact found
        · exact found
      · exact found
  | ask voice request next =>
    simp only [perform]
    split
    · exact found
    · next thread _ =>
      have kept := mind?_serve found (if (thread.outside || voice == .outsider) = true then none
        else w.operation? t) voice request (fun _ => other)
        fun creates kind => known (by simp [Task.creates?, creates, kind])
      cases served : w.serve (if (thread.outside || voice == .outsider) = true then none
          else w.operation? t) speaker voice request with
      | now a w₁ =>
        rw [served] at kept
        exact kept
      | later tasks w₁ =>
        rw [served] at kept
        exact (mind?_setThread _ c t _).trans kept

/-- A task changes no interpreter but the one whose work it is. -/
theorem mind?_exec (t : ThreadId) {x : Task} (apart : ¬x.Minds c)
    (known : x.creates? = some c.kind → mind.isSome = true) :
    (w.exec t x).All fun w' => w'.mind? c = mind := by
  have other : ∀ d, x.subject? = some d → d ≠ c := by
    rintro d own rfl
    exact apart (.inl own)
  cases x <;> simp only [exec]
  case firstTurn i | rest i =>
    refine mind?_withActor found fun a => ?_
    split
    · exact found
    · trivial
    · exact (w.mind?_abandon c i).trans found
  case wake i =>
    refine mind?_withActor found fun a => ?_
    have ne : c ≠ .actor i := fun e => apart (.inr ⟨i, e, rfl⟩)
    have still : ∀ (v : World σ) (f : Actor → Actor), (v.modifyActor i f).mind? c = v.mind? c := by
      intro v f
      cases c with
      | monitor m => rfl
      | actor j =>
        have ne : i ≠ j := fun e => ne (congrArg Subject.actor e.symm)
        simp [mind?, modifyActor, ne]
    split
    · exact found
    · simp only
      split
      · exact (still _ _).trans ((still _ _).trans found)
      · exact (still _ _).trans found
  case cycle i =>
    have ne : .actor i ≠ c := fun e => apart (.inr ⟨i, e.symm, rfl⟩)
    unfold cycleActor
    split
    · exact found
    · refine mind?_withActor found fun a => ?_
      split
      · exact found
      · exact mind?_obey found ne _ _ (mind?_selectEvent found i a)
  case retire kind =>
    split
    · simpa using found
    · exact found
  case start d event => exact mind?_withCore found fun core => mind?_pushState found (other _ rfl) _ _ _
  case handle d event r => exact mind?_handle found (other _ rfl) event r
  case settle i r handled =>
    refine mind?_withActor found fun a => ?_
    simp only [Move.All]
    split
    · simpa using found
    · exact Eq.trans (w.mind?_modifyActor c i fun _ => ⟨rfl, rfl⟩) found
  case invoke d action event phase => exact mind?_withCore found fun core => found
  case switch d target event =>
    refine mind?_withCore found fun core => ?_
    split
    · exact found
    · exact (w.mind?_setStack (other _ rfl) _).trans found
  case enter d target event =>
    refine mind?_withCore found fun core => ?_
    split
    · exact mind?_pushState found (other _ rfl) _ _ _
    · exact mind?_unwindAssertion found _ _
  case pop d =>
    refine mind?_withCore found fun core => ?_
    split
    · exact mind?_unwindAssertion found _ _
    · exact found
  case dropTop d =>
    exact mind?_withCore found fun core => (w.mind?_setStack (other _ rfl) _).trans found
  case forward event =>
    split
    · trivial
    · exact found
  case notify typeTag event =>
    split
    · trivial
    · split <;> exact found
  case deliver m event =>
    refine mind?_withMonitor found fun a => ?_
    split
    · trivial
    · split
      · exact found
      · simp only
        split
        · split
          · exact found
          · exact Eq.trans (w.mind?_modifyMonitor c m fun _ => rfl) found
        · exact Eq.trans (w.mind?_modifyMonitor c m fun _ => rfl) found
  case drain m =>
    refine mind?_withMonitor found fun a => ?_
    split
    · exact found
    · exact mind?_obey found (other _ rfl) _ _ found
  case defaults m =>
    refine mind?_withMonitor found fun a => ?_
    split
    · split <;> exact found
    · exact found
  case release m | enlist m => exact Eq.trans (w.mind?_modifyMonitor c m fun _ => rfl) found
  case install d id =>
    unfold install
    split
    · trivial
    · split
      · exact found
      · cases c with
        | actor i => exact found
        | monitor m =>
          obtain ⟨mind, rfl⟩ := Option.isSome_iff_exists.1 (known rfl)
          obtain ⟨a, there, same⟩ := Option.map_eq_some_iff.1 found
          have inside := (List.getElem?_eq_some_iff.1 there).1
          simp [mind?, List.getElem?_append_left inside, there, same]
  case listMonitors =>
    split
    · trivial
    · exact found
  case readMonitor typeTag =>
    unfold readMonitor
    split
    · trivial
    · split
      · exact found
      · refine mind?_withMonitor found fun a => ?_
        split
        · trivial
        · exact found
  case post i event => exact (w.mind?_enqueue c _ _).trans found
  case engage i event =>
    simp only [engage, Move.All, mind?_enqueue, mind?_blockCaller]
    exact (w.mind?_openRendezvous c _).trans found
  case await r =>
    unfold awaitReply
    split
    · exact found
    · split
      · exact found
      · trivial
  case point kind =>
    split
    · exact found
    · split
      · exact found
      · split <;> exact found
  case pass kind =>
    split
    · simpa using found
    · exact found
  case turn =>
    split
    · exact mind?_follow found _ _
    · exact found
  case touch object operation =>
    split
    · cases c <;> exact found
    · exact found
  case awaitHalted id =>
    split
    · exact found
    · split
      · exact found
      · trivial
  case awaitQuiescence => exact mind?_follow found _ _
  case sleep j =>
    unfold sleep
    split
    · exact found
    · split
      · exact found
      · split
        · trivial
        · exact found
  case perform speaker program =>
    refine mind?_perform found t ?_ program known
    rintro d phase rfl
    exact other d rfl
  case resume speaker outside shared next =>
    split
    · exact (w.mind?_setThread c t _).trans found
    · exact found
  all_goals exact found

omit [Strategy σ] in
theorem mind?_deliverAnswer (t : ThreadId) (a : Answer) (tasks : List Task) :
    (w.deliverAnswer t a tasks).mind? c = mind := by
  induction tasks generalizing w with
  | nil => cases t <;> simpa [deliverAnswer] using found
  | cons x tasks ih =>
    cases x
    case resume => simpa [deliverAnswer] using found
    case release m | enlist m => exact ih (Eq.trans (w.mind?_modifyMonitor c m fun _ => rfl) found)
    all_goals exact ih found

/-- A step of a thread leaves every interpreter alone whose work it does not do. -/
theorem mind?_stepThread? {t : ThreadId} {w' : World σ} (moved : w.stepThread? t = some w')
    (apart : ∀ x rest outside, w.thread? t = some ⟨x :: rest, outside⟩ → ¬x.Minds c ∧
      (x.creates? = some c.kind → mind.isSome = true)) :
    w'.mind? c = mind := by
  obtain ⟨x, rest, outside, there, steps⟩ := of_stepThread? moved
  have kept := mind?_exec found t (apart x rest outside there).1 (apart x rest outside there).2
  rcases steps with ⟨xs, w₁, old, executed, _, rfl⟩ | ⟨a, w₁, executed, rfl⟩ <;>
    rw [executed] at kept
  · exact (w₁.mind?_setThread c t _).trans kept
  · exact mind?_deliverAnswer kept t a rest

end

end World

end SteeredActors
