import SteeredActors.Proofs.World.Replies

/-!
# The steps of an explored run

While decisions are explored and the run goes on, the thread that holds the turn does one of the
things listed here. Every invariant of such runs is proved by cases on this list.
-/

set_option autoImplicit false
set_option relaxedAutoImplicit false

namespace SteeredActors

variable {σ : Type}

/-- How a thread stands. -/
inductive Posture (own : Option Nat) : Thread → Prop where
  | fresh {i : Nat} (mine : own = some i) : Posture own ⟨[.firstTurn i], false⟩
  | called {i : Nat} (mine : own = some i) : Posture own ⟨[.wake i], false⟩
  | working {tasks : List Task} {outside : Bool} (works : Working own outside tasks) :
      Posture own ⟨tasks, outside⟩
  | idles {i : Nat} (mine : own = some i) : Posture own ⟨[.pass .yield, .rest i], false⟩
  | rests {i : Nat} (mine : own = some i) : Posture own ⟨[.rest i], false⟩
  | retires (kind : PointKind) : Posture own ⟨[.retire kind], false⟩
  | done : Posture own ⟨[], false⟩

/-- Tasks that carry the same replies on, with a stack no lower than needed. -/
structure Continues (tasks tasks' : List Task) : Prop where
  grounded : ∀ n, Grounded tasks n → Grounded tasks' n
  charges : charges tasks' = charges tasks
  collects : ∀ r, Task.collect r ∈ tasks' → Task.collect r ∈ tasks

/-- Those who waited for an actor to come to rest have their replies. -/
def World.rested (w : World σ) (i : Nat) (a : Actor) : World σ :=
  (a.pending.foldl (fun w (r, handled) => w.reply r handled) w).modifyActor i fun a =>
    { a with pending := [] }

/-- An actor is idle with this mailbox, and its operation has no work. -/
def World.idled (w : World σ) (i : Nat) (a : Actor) (mailbox : Mailbox) : World σ :=
  { w.modifyActor i fun a => { a with mailbox } with
    controller := w.controller.disable a.operation }

/-- What the holder of the turn may do, with the world that it leaves. -/
inductive Transition [Strategy σ] (t : ThreadId) (w : World σ) : World σ → Prop where
  /-- Something that concerns nobody else. -/
  | works {w₁ : World σ} {x : Task} {tasks tasks' : List Task} {outside outside' : Bool}
      (thread : w.thread? t = some ⟨x :: tasks, outside⟩)
      (works : Working t.own? outside (x :: tasks)) (busy : x.busy = true) (still : Still t w w₁)
      (works' : Working t.own? outside' tasks') (continues : Continues (x :: tasks) tasks')
      (plain : x.charge? = none) : Transition t w (w₁.setThread t ⟨tasks', outside'⟩)
  /-- Another stack for the actor. -/
  | shifts {i : Nat} {core : Core} {x : Task} {xs tasks : List Task} {outside : Bool}
      {stack : List ActiveState} (mine : t = .actor i) (found : w.core? (.actor i) = some core)
      (thread : w.thread? t = some ⟨x :: tasks, outside⟩)
      (works : Working t.own? outside (x :: tasks)) (busy : x.busy = true)
      (works' : Working t.own? outside (xs ++ tasks))
      (grounded : core.halted = false → Grounded (x :: tasks) core.stack.length →
        Grounded (xs ++ tasks) stack.length)
      (charges : charges (xs ++ tasks) = charges (x :: tasks))
      (collects : ∀ r, Task.collect r ∈ xs ++ tasks → Task.collect r ∈ x :: tasks)
      (plain : x.charge? = none) :
      Transition t w ((w.setStack (.actor i) stack).setThread t ⟨xs ++ tasks, outside⟩)
  /-- The end of the test. -/
  | ends {w₁ : World σ} {program : Program} (mine : t = .driver)
      (thread : w.thread? t = some ⟨[.perform .test program], false⟩) (still : Still t w w₁) :
      Transition t w (w₁.setThread t ⟨[.retire .yield], false⟩)
  /-- An action unwinds as if the run had ended, and with it the actor. -/
  | unwinds {w₁ : World σ} {i : Nat} {x : Task} {tasks : List Task} {outside : Bool}
      (mine : t = .actor i) (thread : w.thread? t = some ⟨x :: tasks, outside⟩)
      (works : Working t.own? outside (x :: tasks)) (feigns : x.Feigns)
      (alone : awaited tasks = false) (still : Still t w w₁) :
      Transition t w ((w₁.abandon i).setThread t ⟨[.retire .yield], false⟩)
  | posts {i : Nat} {event : Event} {tasks : List Task} {outside : Bool}
      (thread : w.thread? t = some ⟨.post i event :: tasks, outside⟩)
      (works : Working t.own? outside (.post i event :: tasks))
      (works' : Working t.own? outside tasks) :
      Transition t w ((w.enqueue i ⟨event, none⟩).setThread t ⟨tasks, outside⟩)
  | engages {i op : Nat} {event : Event} {tasks : List Task}
      (thread : w.thread? t = some ⟨.engage i event :: tasks, false⟩)
      (works : Working t.own? false (.engage i event :: tasks))
      (works' : Working t.own? false tasks) (waiting : awaited tasks = true)
      (asks : w.operation? t = some op) :
      Transition t w
        ((((w.openRendezvous (some op)).2.blockCaller (some op)).enqueue i
          ⟨event, some w.rendezvous.length⟩).setThread t
          ⟨.pass .rendezvous :: .turn :: .collect w.rendezvous.length :: tasks, false⟩)
  | creates {w₁ : World σ} {x : Task} {tasks tasks' : List Task} (id : ActorId)
      (descriptor : Descriptor) (event : Option Event)
      (request : ∃ speaker voice request next, x = .perform speaker (.ask voice request next))
      (thread : w.thread? t = some ⟨x :: tasks, false⟩)
      (works : Working t.own? false (x :: tasks)) (busy : x.busy = true) (still : Still t w w₁)
      (works' : Working t.own? false (.point .create :: tasks'))
      (continues : Continues (x :: tasks) (.point .create :: tasks')) (plain : x.charge? = none) :
      Transition t w ((w₁.addActor id descriptor event none).setThread t
        ⟨.point .create :: tasks', false⟩)
  | createsAndWaits {w₁ : World σ} {op : Nat} {x : Task} {tasks tasks' : List Task} (id : ActorId)
      (descriptor : Descriptor) (event : Option Event)
      (thread : w.thread? t = some ⟨x :: tasks, false⟩)
      (works : Working t.own? false (x :: tasks)) (busy : x.busy = true)
      (request : ∃ speaker voice request next, x = .perform speaker (.ask voice request next))
      (asks : w.operation? t = some op) (still : Still t w w₁)
      (works' : Working t.own? false (.pass .create :: tasks'))
      (continues : Continues (x :: tasks) (.pass .create :: tasks')) :
      Transition t w
        ((((w₁.openRendezvous (some op)).2.addActor id descriptor event
          (some w₁.rendezvous.length)).blockCaller (some op)).setThread t
          ⟨.pass .create :: tasks', false⟩)
  | passes {kind : PointKind} {op : Nat} {tasks : List Task}
      (thread : w.thread? t = some ⟨.pass kind :: tasks, false⟩)
      (works : Working t.own? false tasks ∨ ∃ i, t = .actor i ∧ tasks = [.rest i])
      (asks : w.operation? t = some op) :
      Transition t w
        (World.setThread { w with controller := (w.controller.schedule op kind).2 } t
          ⟨tasks, false⟩)
  | settles {i r : Nat} {handled : Bool} {a : Actor} (mine : t = .actor i)
      (thread : w.thread? t = some ⟨[.settle i r handled, .cycle i], false⟩)
      (found : w.actors[i]? = some a) :
      Transition t w
        ((if a.core.halted then w.reply r false
          else w.modifyActor i fun a => { a with pending := a.pending ++ [(r, handled)] }).setThread t
          ⟨[.cycle i], false⟩)
  | ignores {i : Nat} {event : Event} {r : Option Nat} {core : Core} {stack : List ActiveState}
      (mine : t = .actor i)
      (thread : w.thread? t = some ⟨[.handle (.actor i) event r, .cycle i], false⟩)
      (found : w.core? (.actor i) = some core)
      (resolved : resolveEvent event.type core.stack = .ignored stack) :
      Transition t w ((w.setStack (.actor i) stack).setThread t
        ⟨World.settlement (.actor i) r false ++ [.cycle i], false⟩)
  | consumes {i : Nat} {event : Event} {r : Option Nat} {core : Core} {binding : Binding}
      {stack : List ActiveState} (mine : t = .actor i)
      (thread : w.thread? t = some ⟨[.handle (.actor i) event r, .cycle i], false⟩)
      (found : w.core? (.actor i) = some core)
      (resolved : resolveEvent event.type core.stack = .bound binding stack) :
      Transition t w ((w.setStack (.actor i) stack).setThread t
        ⟨World.consumption (.actor i) { core with stack } event binding
          ++ World.settlement (.actor i) r true ++ [.cycle i], false⟩)
  | halts {i : Nat} {event : Event} {r : Option Nat} {core : Core} (mine : t = .actor i)
      (thread : w.thread? t = some ⟨[.handle (.actor i) event r, .cycle i], false⟩)
      (found : w.core? (.actor i) = some core)
      (resolved : resolveEvent event.type core.stack = .exhausted) :
      Transition t w (((w.setStack (.actor i) []).halt (.actor i)).setThread t
        ⟨World.settlement (.actor i) r false ++ [.cycle i], false⟩)
  | leaves {i : Nat} {x : Task} {core : Core} (mine : t = .actor i)
      (thread : w.thread? t = some ⟨[x], false⟩) (own : x = .cycle i ∨ x = .wake i)
      (found : w.core? (.actor i) = some core) (halted : core.halted = true) :
      Transition t w (w.setThread t ⟨[.retire .halt], false⟩)
  | obeys {i : Nat} {core : Core} {d : Demand} (mine : t = .actor i)
      (thread : w.thread? t = some ⟨[.cycle i], false⟩)
      (found : w.core? (.actor i) = some core) (running : core.halted = false)
      (raised : core.raised = some d) :
      Transition t w
        ((w.modifyCore (.actor i) fun core => { core with raised := none }).setThread t
          ⟨World.obedience (.actor i) core d ++ [.cycle i], false⟩)
  | selects {i : Nat} {a : Actor} {top : ActiveState} {envelope : Envelope}
      {discarded : List Envelope} {mailbox : Mailbox} (mine : t = .actor i)
      (thread : w.thread? t = some ⟨[.cycle i], false⟩) (found : w.actors[i]? = some a)
      (running : a.core.halted = false) (quiet : a.core.raised = none)
      (current : a.core.stack.head? = some top)
      (selected : a.mailbox.dequeue (top.verdict w.policy) top.hasDefault =
        (.event envelope, discarded, mailbox)) :
      Transition t w (((w.modifyActor i fun a => { a with mailbox }).discard discarded).setThread t
        ⟨[.handle (.actor i) envelope.event envelope.rendezvous, .cycle i], false⟩)
  | defaults {i : Nat} {a : Actor} {top : ActiveState} {discarded : List Envelope}
      {mailbox : Mailbox} (mine : t = .actor i)
      (thread : w.thread? t = some ⟨[.cycle i], false⟩) (found : w.actors[i]? = some a)
      (running : a.core.halted = false) (quiet : a.core.raised = none)
      (current : a.core.stack.head? = some top)
      (selected : a.mailbox.dequeue (top.verdict w.policy) top.hasDefault =
        (.default, discarded, mailbox)) :
      Transition t w (((w.modifyActor i fun a => { a with mailbox }).discard discarded).setThread t
        ⟨[.point .defaultEvent, .handle (.actor i) (.ofType .default) none, .cycle i], false⟩)
  | idles {i : Nat} {a : Actor} {top : ActiveState} {discarded : List Envelope}
      {mailbox : Mailbox} (mine : t = .actor i)
      (thread : w.thread? t = some ⟨[.cycle i], false⟩) (found : w.actors[i]? = some a)
      (running : a.core.halted = false) (quiet : a.core.raised = none)
      (current : a.core.stack.head? = some top)
      (selected : a.mailbox.dequeue (top.verdict w.policy) top.hasDefault =
        (.idle, discarded, mailbox)) :
      Transition t w
        ((((w.idled i a mailbox).discard discarded).rested i a).setThread t
          ⟨[.pass .yield, .rest i], false⟩)
  | starves {i : Nat} {a : Actor} (mine : t = .actor i)
      (thread : w.thread? t = some ⟨[.cycle i], false⟩) (found : w.actors[i]? = some a)
      (running : a.core.halted = false) (quiet : a.core.raised = none)
      (empty : a.core.stack = []) :
      Transition t w ((w.rested i a).setThread t ⟨[.pass .yield, .rest i], false⟩)
  | rises {i : Nat} {x : Task} (mine : t = .actor i)
      (thread : w.thread? t = some ⟨[x], false⟩) (own : x = .firstTurn i ∨ x = .rest i) :
      Transition t w (w.setThread t ⟨[.wake i], false⟩)
  | starts {i : Nat} {a : Actor} (mine : t = .actor i)
      (thread : w.thread? t = some ⟨[.wake i], false⟩) (found : w.actors[i]? = some a)
      (running : a.core.halted = false) (first : a.mailbox.status = .uninitialized) :
      Transition t w
        ((w.modifyActor i fun a =>
          { a with
            mailbox := a.mailbox.start.2
            pending := a.pending ++ a.creationRendezvous.toList.map (·, true)
            creationRendezvous := none
            creationEvent := none }).setThread t
          ⟨[.start (.actor i) a.creationEvent, .cycle i], false⟩)
  | resumes {i : Nat} {a : Actor} (mine : t = .actor i)
      (thread : w.thread? t = some ⟨[.wake i], false⟩) (found : w.actors[i]? = some a)
      (running : a.core.halted = false) (again : a.mailbox.status ≠ .uninitialized) :
      Transition t w
        ((w.modifyActor i fun a => { a with mailbox := a.mailbox.start.2 }).setThread t
          ⟨[.cycle i], false⟩)
  | retires {kind : PointKind} {op : Nat} (thread : w.thread? t = some ⟨[.retire kind], false⟩)
      (asks : w.operation? t = some op) :
      Transition t w
        (World.setThread { w with controller := w.controller.complete op kind } t ⟨[], false⟩)

namespace Continues

variable {own : Option Nat} {outside : Bool}

/-- Tasks that fit may stand for one that fits. -/
theorem of_fits {x : Task} {xs tasks : List Task} (fits : x.Fits own outside (awaited tasks))
    (level : x.shifts = false)
    (more : ∀ y ∈ xs, y.Fits own outside (awaited tasks) ∧ y.shifts = false) :
    Continues (x :: tasks) (xs ++ tasks) := by
  refine ⟨?_, ?_, ?_⟩
  · intro n h
    rw [grounded_append fun y hy => (more y hy).2]
    rwa [grounded_cons level] at h
  · rw [charges_append_of_fits fun y hy => (more y hy).1, charges_cons_of_fits fits]
  · intro r hr
    rcases List.mem_append.1 hr with hr | hr
    · exact (more _ hr).1.elim
    · exact List.mem_cons_of_mem _ hr

theorem trans {xs ys zs : List Task} (h : Continues xs ys) (k : Continues ys zs) :
    Continues xs zs :=
  ⟨fun n hn => k.grounded n (h.grounded n hn), k.charges.trans h.charges,
    fun r hr => h.collects r (k.collects r hr)⟩

theorem carried {tasks tasks' : List Task} (h : Continues tasks tasks') :
    carried tasks' = carried tasks := by
  rw [SteeredActors.carried, h.charges, SteeredActors.carried]

/-- A program may stand for a waiting one, and the other way round. -/
theorem swap {x y : Task} (hx : x.shifts = false) (hy : y.shifts = false) (cx : x.charge? = none)
    (cy : y.charge? = none) (other : ∀ r, Task.collect r ≠ y) (rest : List Task) :
    Continues (x :: rest) (y :: rest) := by
  refine ⟨?_, ?_, ?_⟩
  · intro n h
    rw [grounded_cons hy]
    rwa [grounded_cons hx] at h
  · simp [SteeredActors.charges, cx, cy]
  · intro r hr
    rcases List.mem_cons.1 hr with e | hr
    · exact absurd e (other r)
    · exact List.mem_cons_of_mem _ hr

end Continues

namespace World

variable {t : ThreadId} {w : World σ}

/-! ## Answers -/

/-- An answer reaches the program that waits. -/
theorem deliverAnswer_of_awaited (w : World σ) (a : Answer) {tasks : List Task} {outside : Bool}
    (works : Working t.own? outside tasks) (waiting : awaited tasks = true) :
    ∃ w₁ tasks' outside', w.deliverAnswer t a tasks = w₁.setThread t ⟨tasks', outside'⟩ ∧
      Still t w w₁ ∧ Working t.own? outside' tasks' ∧ Continues tasks tasks' := by
  induction works generalizing w with
  | cycle | settle | handle | test => simp [Task.waits] at waiting
  | testWaits none outside shared next =>
    exact ⟨w, _, _, rfl, .refl t w, .test none _, fun _ h => h, rfl, by simp⟩
  | waits mine phase outside shared next rest below ih =>
    refine ⟨w, _, _, rfl, .refl t w, .cons mine rest below, fun _ h => h, rfl, ?_⟩
    intro r hr
    simpa using hr
  | @collect tasks r waiting' rest ih =>
    obtain ⟨w₁, tasks', outside', delivered, still, works', continues⟩ := ih w waiting'
    exact ⟨w₁, tasks', outside', delivered, still, works', continues.grounded, continues.charges,
      fun r hr => List.mem_cons_of_mem _ (continues.collects r hr)⟩
  | @cons outside x tasks fits rest below ih =>
    have waiting' : awaited tasks = true := by
      simpa [fits.waits] using waiting
    rw [waiting'] at fits
    have skipped : Continues (x :: tasks) tasks :=
      ⟨fun n h => (grounded_cons fits.not_shifts tasks n).1 h, (charges_cons_of_fits fits tasks).symm,
        fun r hr => List.mem_cons_of_mem _ hr⟩
    have next : ∀ w₀ : World σ, Still t w w₀ →
        w.deliverAnswer t a (x :: tasks) = w₀.deliverAnswer t a tasks →
        ∃ w₁ tasks' outside', w.deliverAnswer t a (x :: tasks) = w₁.setThread t ⟨tasks', outside'⟩ ∧
          Still t w w₁ ∧ Working t.own? outside' tasks' ∧ Continues (x :: tasks) tasks' := by
      intro w₀ still same
      obtain ⟨w₁, tasks', outside', delivered, still₁, works', continues⟩ := ih w₀ waiting'
      exact ⟨w₁, tasks', outside', same.trans delivered, still.trans still₁, works',
        skipped.trans continues⟩
    cases x
    case resume => exact fits.elim
    case release m => exact next _ (.modifyMonitor w m _) rfl
    case enlist m => exact next _ (.modifyMonitor w m _) rfl
    all_goals exact next w (.refl t w) rfl

/-- Without a program that waits, an answer abandons the actor. -/
theorem deliverAnswer_of_alone (w : World σ) {i : Nat} (a : Answer) {tasks : List Task}
    (alone : awaited tasks = false) :
    ∃ w₁, w.deliverAnswer (.actor i) a tasks =
      (w₁.abandon i).setThread (.actor i) ⟨[.retire .yield], false⟩ ∧ Still (.actor i) w w₁ := by
  induction tasks generalizing w with
  | nil => exact ⟨w, rfl, .refl _ w⟩
  | cons x tasks ih =>
    have alone' : x.waits = false ∧ awaited tasks = false := by simpa using alone
    have next : ∀ w₀ : World σ, Still (.actor i) w w₀ →
        w.deliverAnswer (.actor i) a (x :: tasks) = w₀.deliverAnswer (.actor i) a tasks →
        ∃ w₁, w.deliverAnswer (.actor i) a (x :: tasks) =
          (w₁.abandon i).setThread (.actor i) ⟨[.retire .yield], false⟩ ∧
            Still (.actor i) w w₁ := by
      intro w₀ still same
      obtain ⟨w₁, delivered, still₁⟩ := ih w₀ alone'.2
      exact ⟨w₁, same.trans delivered, still.trans still₁⟩
    cases x
    case resume => cases alone'.1
    case release m => exact next _ (.modifyMonitor w m _) rfl
    case enlist m => exact next _ (.modifyMonitor w m _) rfl
    all_goals exact next w (.refl _ w) rfl

/-! ## One step -/

variable [Strategy σ]

theorem stepThread?_cons {x : Task} {rest : List Task} {outside : Bool}
    (found : w.thread? t = some ⟨x :: rest, outside⟩) :
    w.stepThread? t =
      match w.exec t x with
      | .wait => none
      | .go tasks w₁ =>
        match w₁.thread? t with
        | some thread => some (w₁.setThread t { thread with tasks := tasks ++ rest })
        | none => none
      | .answer a w₁ => some (w₁.deliverAnswer t a rest) := by
  cases executed : w.exec t x with
  | wait => simp only [stepThread?, found, executed]
  | answer a w₁ => simp only [stepThread?, found, executed]
  | go xs w₁ =>
    cases kept : w₁.thread? t with
    | none => simp only [stepThread?, found, executed, kept]
    | some thread => simp only [stepThread?, found, executed, kept]

/-- A task that is replaced by others in a world with the same thread. -/
theorem stepThread?_go {w₁ w' : World σ} {x : Task} {xs rest tasks : List Task}
    {outside outside' : Bool} (found : w.thread? t = some ⟨x :: rest, outside⟩)
    (executed : w.exec t x = .go xs w₁) (kept : w₁.thread? t = some ⟨tasks, outside'⟩)
    (moved : w.stepThread? t = some w') : w' = w₁.setThread t ⟨xs ++ rest, outside'⟩ := by
  rw [stepThread?_cons found, executed] at moved
  simp only [kept] at moved
  exact (Option.some.inj moved).symm

theorem stepThread?_answer {w₁ w' : World σ} {x : Task} {rest : List Task} {a : Answer}
    {outside : Bool} (found : w.thread? t = some ⟨x :: rest, outside⟩)
    (executed : w.exec t x = .answer a w₁) (moved : w.stepThread? t = some w') :
    w' = w₁.deliverAnswer t a rest := by
  rw [stepThread?_cons found, executed] at moved
  exact (Option.some.inj moved).symm

theorem stepThread?_wait {x : Task} {rest : List Task} {outside : Bool}
    (found : w.thread? t = some ⟨x :: rest, outside⟩) (executed : w.exec t x = .wait) :
    w.stepThread? t = none := by
  rw [stepThread?_cons found, executed]

/-- Whoever calls an actor opens a rendezvous, posts the event and waits. -/
theorem exec_engage {i op : Nat} {event : Event} {rest : List Task}
    (found : w.thread? t = some ⟨.engage i event :: rest, false⟩) (explores : w.explores = true)
    (turn : w.operation? t = some op) :
    w.exec t (.engage i event) =
      .go [.pass .rendezvous, .turn, .collect w.rendezvous.length]
        (((w.openRendezvous (some op)).2.blockCaller (some op)).enqueue i
          ⟨event, some w.rendezvous.length⟩) := by
  have caller : w.caller? t = some op := by simp [caller?, found, turn]
  have still : (((w.openRendezvous (some op)).2.blockCaller (some op)).enqueue i
      ⟨event, some w.rendezvous.length⟩).explores = true := by
    rw [explores_enqueue, explores_blockCaller]
    exact explores
  simp only [exec, caller, engage]
  exact congrArg (Move.go · _) (if_pos still)

omit [Strategy σ] in
theorem thread?_rested (w : World σ) (t : ThreadId) (i : Nat) (a : Actor) :
    (w.rested i a).thread? t = w.thread? t := by
  unfold rested
  rw [thread?_modifyActor]
  · exact w.thread?_replyEach t a.pending
  · intro b
    rfl

omit [Strategy σ] in
theorem setStack_self {i : Nat} {a : Actor} (found : w.actors[i]? = some a) :
    w.setStack (.actor i) a.core.stack = w := modifyActor_self found rfl

omit [Strategy σ] in
theorem isOver_report (w : World σ) (report : BugReport) : (w.report report).isOver = true :=
  Controller.isOver_finish _ _

private theorem still_finishTest (w : World σ) (memory : Memory) (ending : Ending) :
    ∃ w₁, w.exec .driver (.perform .test (.finish memory ending)) = .go [.retire .yield] w₁ ∧
      Still .driver w w₁ := by
  have ended : Still .driver w { w with test := { w.test with memory, ending := some ending } } :=
    .of_parts rfl rfl rfl rfl rfl rfl
  simp only [exec, perform, finishTest]
  cases ending with
  | ok => exact ⟨_, rfl, ended⟩
  | failed failure =>
    refine ⟨_, rfl, ?_⟩
    simp only
    split
    · exact ended
    · split
      · exact ended
      · exact ended.trans (.report _ _)
  | panicked message =>
    refine ⟨_, rfl, ?_⟩
    simp only
    split
    · exact ended
    · exact ended.trans (.report _ _)

section Steps

variable {w' : World σ} {x : Task} {rest : List Task} {outside : Bool}
  (known : ∀ j, t ≠ .sleeper j) (found : w.thread? t = some ⟨x :: rest, outside⟩)
  (moved : w.stepThread? t = some w')
include known found moved

omit [Strategy σ] known moved in
private theorem actor_of_thread {i : Nat} (mine : t = .actor i) :
    ∃ a, w.actors[i]? = some a := by
  subst mine
  obtain ⟨a, ha, _⟩ := Option.map_eq_some_iff.1 found
  exact ⟨a, ha⟩

/-- A request of a program that belongs to the thread. -/
private theorem transition_ask (explores : w.explores = true) {speaker : Speaker} {voice : Voice}
    {request : Request} {next : Answer → Program}
    (asks : x = .perform speaker (.ask voice request next))
    (mine : speaker.OwnedBy t.own? (awaited rest)) (works : Working t.own? outside (x :: rest))
    (performs : ∀ program, Working t.own? outside (.perform speaker program :: rest))
    (waits : ∀ outside' shared next,
      Working t.own? outside' (.resume speaker outside shared next :: rest)) :
    Transition t w w' := by
  subst asks
  generalize left : (outside || voice == .outsider) = outside'
  have inside : outside' = false → outside = false := by
    intro e
    rw [← left, Bool.or_eq_false_iff] at e
    exact e.1
  obtain ⟨caller, hc⟩ : ∃ c, c = if outside' then none else w.operation? t := ⟨_, rfl⟩
  have known' : caller.isSome = true → outside' = false := by
    intro h
    cases outside' with
    | false => rfl
    | true => simp [hc] at h
  have answered : ∀ a w₁, w.serve caller speaker voice request = .now a w₁ →
      w.exec t (.perform speaker (.ask voice request next)) =
        .go [.perform speaker (next a)] w₁ := by
    intro a w₁ hs
    simp only [exec, perform, found, left, ← hc, hs]
  have mild := mild_serve w explores known' mine voice request
  cases hs : w.serve caller speaker voice request with
  | now a w₁ =>
    rw [hs] at mild
    cases mild with
    | quiet still =>
      have kept : w₁.thread? t = w.thread? t := still.thread? known
      rw [stepThread?_go found (answered a w₁ hs) (kept.trans found) moved]
      exact .works found works rfl still (performs _)
        (.swap rfl rfl rfl rfl (by simp) rest) rfl
  | later tasks w₁ =>
    rw [hs] at mild
    obtain ⟨shared, executed⟩ : ∃ shared,
        w.exec t (.perform speaker (.ask voice request next)) =
          .go (tasks ++ [.resume speaker outside shared next])
            (w₁.setThread t ⟨.perform speaker (.ask voice request next) :: rest, outside'⟩) := by
      simp only [exec, perform, found, left, ← hc, hs]
      exact ⟨_, rfl⟩
    have resumed : Continues (.perform speaker (.ask voice request next) :: rest)
        (.resume speaker outside shared next :: rest) :=
      .swap rfl rfl rfl rfl (by simp) rest
    -- The tasks of a service stand above the program that now waits.
    have served : ∀ tasks : List Task, (∀ y ∈ tasks, y.Fits t.own? outside' true) →
        Working t.own? outside' (tasks ++ .resume speaker outside shared next :: rest) ∧
          Continues (.perform speaker (.ask voice request next) :: rest)
            (tasks ++ .resume speaker outside shared next :: rest) := by
      intro tasks fits
      have waiting : awaited (.resume speaker outside shared next :: rest) = true := rfl
      refine ⟨(waits outside' shared next).append (by rwa [waiting]) fun _ => waiting, ?_⟩
      refine resumed.trans ⟨?_, ?_, ?_⟩
      · intro n h
        exact (grounded_append (fun y hy => (fits y hy).not_shifts) _ n).2 h
      · exact charges_append_of_fits fits _
      · intro r hr
        rcases List.mem_append.1 hr with hr | hr
        · exact (fits _ hr).elim
        · exact hr
    have later : ∀ thread, w₁.thread? t = some thread →
        w' = w₁.setThread t ⟨tasks ++ .resume speaker outside shared next :: rest, outside'⟩ := by
      intro thread kept
      have step := stepThread?_go found executed (thread?_setThread _ kept _) moved
      rw [setThread_setThread] at step
      simpa using step
    cases mild with
    | quiet h =>
      obtain ⟨still, fits⟩ := h
      have kept : w₁.thread? t = w.thread? t := still.thread? known
      rw [later _ (kept.trans found)]
      exact .works found works rfl still (served tasks fits).1 (served tasks fits).2 rfl
    | @creates w₂ still id descriptor event op asks =>
      have out : outside' = false := known' (by simp [asks])
      have out₀ : outside = false := inside out
      subst out out₀ asks
      have kept : w₂.thread? t = w.thread? t := still.thread? known
      have added := thread?_addActor w₂ (kept.trans found) id descriptor event none
      rw [later _ added]
      have both := served [.point .create, .answer (.actor id)] (by simp [Task.Fits])
      exact .creates id descriptor event ⟨_, _, _, _, rfl⟩ found works rfl still both.1 both.2 rfl
    | @createsAndWaits w₂ still id descriptor event op asks =>
      have out : outside' = false := known' (by simp [asks])
      have out₀ : outside = false := inside out
      subst out out₀ asks
      have kept : w₂.thread? t = w.thread? t := still.thread? known
      have opened : (w₂.openRendezvous (some op)).2.thread? t = _ :=
        (w₂.thread?_openRendezvous t _).trans (kept.trans found)
      have added := thread?_addActor _ opened id descriptor event (some w₂.rendezvous.length)
      rw [later _ ((thread?_blockCaller _ t _).trans added)]
      have both := served [.pass .create, .turn, .answer (.actor id)] (by simp [Task.Fits])
      exact .createsAndWaits id descriptor event found works rfl ⟨_, _, _, _, rfl⟩
        (by simpa using hc.symm) still both.1 both.2

omit known in
private theorem goesOn_of_answer {w₁ : World σ} {a : Answer} (executed : w.exec t x = .answer a w₁)
    (goesOn : w'.isOver = false) : w₁.isOver = false := by
  rw [stepThread?_answer found executed moved] at goesOn
  rw [isOver, Controller.isOver, outcome_deliverAnswer] at goesOn
  exact goesOn

/-- An actor changes its stack. -/
private theorem transition_shift {i : Nat} (mine : t = .actor i)
    (fits : x.Fits t.own? outside (awaited rest)) (shifts : x.shifts = true)
    (works : Working t.own? outside (x :: rest)) (works' : Working t.own? outside rest)
    (goesOn : w'.isOver = false) : Transition t w w' := by
  obtain ⟨a, ha⟩ := actor_of_thread found mine
  have core : w.core? (.actor i) = some a.core := by simp [core?, ha]
  have busy : x.busy = true := fits.busy (by cases x <;> first | rfl | cases shifts)
  have stacked : ∀ stack, (w.setStack (.actor i) stack).thread? t = some ⟨x :: rest, outside⟩ :=
    fun stack => (w.thread?_setStack t _ stack).trans found
  have unchanged : w.setStack (.actor i) a.core.stack = w := setStack_self ha
  have own : ∀ j, (Subject.actor j).OwnedBy t.own? (awaited rest) → i = j := by
    subst mine
    exact fun j h => Option.some.inj h.1
  -- Each of these tasks puts level tasks in front and leaves a stack that is high enough.
  have shift : ∀ (xs : List Task) (stack : List ActiveState),
      w.exec t x = .go xs (w.setStack (.actor i) stack) →
      (∀ y ∈ xs, y.Fits t.own? outside (awaited rest)) →
      (a.core.halted = false → Grounded (x :: rest) a.core.stack.length →
        Grounded (xs ++ rest) stack.length) → Transition t w w' := by
    intro xs stack executed more grounded
    rw [stepThread?_go found executed (stacked stack) moved]
    refine .shifts mine core found works busy (works'.append more ?_) grounded ?_ ?_ fits.charge?
    · subst mine
      intro h
      cases h
    · rw [charges_append_of_fits more, charges_cons_of_fits fits]
    · intro r hr
      rcases List.mem_append.1 hr with hr | hr
      · exact (more _ hr).elim
      · exact List.mem_cons_of_mem _ hr
  have pushed : ∀ (s : StateDescriptor) (event : Option Event),
      w.exec t x = w.pushState (.actor i) a.core s event →
      (.actor i : Subject).OwnedBy t.own? (awaited rest) →
      (Grounded (x :: rest) a.core.stack.length → Grounded rest (a.core.stack.length + 1)) →
      Transition t w w' := by
    intro s event executed mine' grounded
    have level : ∀ y ∈ invocation (.actor i) event .entry s.entry,
        y.Fits t.own? outside (awaited rest) ∧ y.shifts = false :=
      fits_invocation mine' event .entry s.entry
    refine shift _ _ executed (fun y hy => (level y hy).1) ?_
    intro _ h
    rw [grounded_append fun y hy => (level y hy).2]
    exact grounded h
  have failed : ∀ message, w.exec t x = w.unwindAssertion a.core message →
      Transition t w w' := by
    intro message executed
    have running := goesOn_of_answer found moved executed goesOn
    rw [isOver_report] at running
    cases running
  cases x <;> simp only [Task.shifts, Bool.false_eq_true] at shifts
  case handle c event r =>
    cases c with
    | actor i => cases r <;> exact fits.elim
    | monitor m => cases shifts
  case cycle => exact fits.elim
  case start c event =>
    cases c with
    | monitor m => cases shifts
    | actor j =>
      obtain rfl := own j fits
      refine pushed a.core.descriptor.initial event ?_ fits fun h => h
      simp [exec, withCore, core]
  case switch c target event =>
    cases c with
    | monitor m => cases shifts
    | actor j =>
      obtain rfl := own j fits
      cases halted : a.core.halted with
      | true =>
        refine shift [] a.core.stack ?_ (by simp) (by simp [halted])
        simp [exec, withCore, core, halted, unchanged]
      | false =>
        refine shift [.enter (.actor i) target event] a.core.stack.tail ?_ ?_ ?_
        · simp [exec, withCore, core, halted]
        · intro y hy
          obtain rfl := List.mem_singleton.1 hy
          exact fits
        · intro _ h
          simpa [Grounded] using h
  case enter c target event =>
    cases c with
    | monitor m => cases shifts
    | actor j =>
      obtain rfl := own j fits
      cases exists_ : a.core.descriptor.state? target with
      | some s =>
        refine pushed s event ?_ fits fun h => h
        simp [exec, enter, withCore, core, exists_]
      | none =>
        refine failed s!"{a.core.label} has no state '{target}'." ?_
        simp [exec, enter, withCore, core, exists_]
  case pop c =>
    cases c with
    | monitor m => cases shifts
    | actor j =>
      obtain rfl := own j fits
      by_cases shallow : a.core.stack.length ≤ 1
      · refine failed s!"{a.core.label} popped with no matching push." ?_
        simp [exec, popState, withCore, core, shallow]
      · have level : ∀ y ∈ leaving (.actor i) a.core none,
            y.Fits t.own? outside (awaited rest) ∧ y.shifts = false :=
          fits_leaving (c := .actor i) fits a.core none
        refine shift (leaving (.actor i) a.core none ++ [.dropTop (.actor i)]) a.core.stack ?_ ?_ ?_
        · simp [exec, popState, withCore, core, shallow, unchanged]
        · intro y hy
          rcases List.mem_append.1 hy with hy | hy
          · exact (level y hy).1
          · obtain rfl := List.mem_singleton.1 hy
            exact fits
        · intro _ h
          rw [List.append_assoc, grounded_append fun y hy => (level y hy).2]
          exact h _ (by omega)
  case dropTop c =>
    cases c with
    | monitor m => cases shifts
    | actor j =>
      obtain rfl := own j fits
      refine shift [] a.core.stack.tail ?_ (by simp) ?_
      · simp [exec, withCore, core]
      · intro _ h
        simpa [Grounded] using h

omit known in
/-- A task that concerns nobody else. -/
private theorem transition_quiet (known : ∀ j, t ≠ .sleeper j)
    (quiet : (w.exec t x).Quiet t outside (awaited rest) x.Feigns w)
    (fits : x.Fits t.own? outside (awaited rest)) (modest : x.acts = false)
    (level : x.shifts = false) (works : Working t.own? outside (x :: rest))
    (works' : Working t.own? outside rest) (below : t.own? = none → awaited rest = true)
    (goesOn : w'.isOver = false) : Transition t w w' := by
  cases executed : w.exec t x with
  | wait =>
    rw [stepThread?_wait found executed] at moved
    cases moved
  | go xs w₁ =>
    rw [executed] at quiet
    obtain ⟨still, more⟩ := quiet
    rw [stepThread?_go found executed ((still.thread? known).trans found) moved]
    exact .works found works (fits.busy modest) still (works'.append (fun y hy => (more y hy).1) below)
      (.of_fits fits level more) fits.charge?
  | answer a w₁ =>
    rw [executed] at quiet
    obtain ⟨still, why⟩ := quiet
    have running := goesOn_of_answer found moved executed goesOn
    rw [stepThread?_answer found executed moved]
    by_cases waiting : awaited rest = true
    · obtain ⟨w₂, tasks', outside', delivered, still', works₂, continues⟩ :=
        deliverAnswer_of_awaited w₁ a works' waiting
      rw [delivered]
      refine .works found works (fits.busy modest) (still.trans still') works₂ ⟨?_, ?_, ?_⟩ fits.charge?
      · intro n h
        exact continues.grounded n ((grounded_cons level rest n).1 h)
      · exact continues.charges.trans (charges_cons_of_fits fits rest).symm
      · exact fun r hr => List.mem_cons_of_mem _ (continues.collects r hr)
    · have alone : awaited rest = false := by simpa using waiting
      have feigns : x.Feigns := by
        rcases why with h | h | h
        · exact absurd h waiting
        · rw [running] at h
          cases h
        · exact h
      obtain ⟨i, rfl⟩ : ∃ i, t = .actor i := by
        cases t with
        | driver => exact absurd (below rfl) waiting
        | sleeper j => exact absurd rfl (known j)
        | actor i => exact ⟨i, rfl⟩
      obtain ⟨w₂, delivered, still'⟩ := deliverAnswer_of_alone w₁ (i := i) a alone
      rw [delivered]
      exact .unwinds rfl found works feigns alone (still.trans still')

/-- A task that fits above those of a thread at work. -/
private theorem transition_fits (explores : w.explores = true) {op : Nat}
    (turn : w.operation? t = some op)
    (fits : x.Fits t.own? outside (awaited rest)) (works : Working t.own? outside (x :: rest))
    (works' : Working t.own? outside rest) (below : t.own? = none → awaited rest = true)
    (goesOn : w'.isOver = false) : Transition t w w' := by
  cases level : x.shifts with
  | true =>
    obtain ⟨i, rfl⟩ : ∃ i, t = .actor i := by
      cases t with
      | actor i => exact ⟨i, rfl⟩
      | sleeper j => exact absurd rfl (known j)
      | driver =>
        rw [below rfl] at fits
        rw [fits.not_shifts] at level
        cases level
    exact transition_shift known found moved rfl fits level works works' goesOn
  | false =>
    cases acts : x.acts with
    | false =>
      refine transition_quiet found moved known ?_ fits acts level works works' below goesOn
      exact quiet_exec w explores fits acts level found fun _ => by rw [turn]; rfl
    | true =>
      have caller : w.caller? t = if outside then none else some op := by
        simp [caller?, found, turn]
      cases x <;> simp only [Task.acts, Bool.false_eq_true] at acts
      case post i event =>
        have kept : (w.enqueue i ⟨event, none⟩).thread? t = _ :=
          (w.thread?_enqueue t i _).trans found
        rw [stepThread?_go found rfl kept moved]
        exact .posts found works works'
      case engage i event =>
        obtain ⟨rfl, waiting⟩ := fits
        have executed := exec_engage found explores turn
        have kept := (((w.openRendezvous (some op)).2.blockCaller (some op)).thread?_enqueue t i
            ⟨event, some w.rendezvous.length⟩).trans
          (((w.openRendezvous (some op)).2.thread?_blockCaller t (some op)).trans
            ((w.thread?_openRendezvous t (some op)).trans found))
        rw [stepThread?_go found executed kept moved]
        exact .engages found works works' waiting turn
      case pass kind =>
        obtain rfl : outside = false := fits
        simp only [Bool.false_eq_true, if_false] at caller
        have executed : w.exec t (.pass kind) =
            .go [] { w with controller := (w.controller.schedule op kind).2 } := by
          simp [exec, caller]
        have kept : thread? { w with controller := (w.controller.schedule op kind).2 } t = _ :=
          (w.thread?_setController t _).trans found
        rw [stepThread?_go found executed kept moved]
        exact .passes found (.inl works') turn
      case perform speaker program =>
        cases program with
        | finish memory ending => cases acts
        | ask voice request next =>
          cases speaker with
          | test | sleeper j => exact fits.elim
          | action c phase =>
            refine transition_ask known found moved explores rfl (by exact fits) works ?_ ?_
            · exact fun program => .cons (by exact fits) works' below
            · exact fun outside' shared next => .waits fits phase outside' shared next works' below

omit known in
/-- One cycle of an actor. -/
private theorem transition_cycle {i : Nat} (mine : t = .actor i) (own : x = .cycle i)
    (last : rest = []) (inside : outside = false) (running : w.isOver = false) :
    Transition t w w' := by
  subst own last inside
  obtain ⟨a, ha⟩ := actor_of_thread found mine
  have core : w.core? (.actor i) = some a.core := by simp [core?, ha]
  have go : ∀ xs w₁, w.exec t (.cycle i) = .go xs w₁ → w₁.thread? t = w.thread? t →
      w' = w₁.setThread t ⟨xs, false⟩ := by
    intro xs w₁ executed kept
    have := stepThread?_go found executed (kept.trans found) moved
    simpa using this
  have cycled : w.exec t (.cycle i) =
      if a.core.halted then .go [.retire .halt] w
      else w.obey (.actor i) a.core (.cycle i) (w.selectEvent i a) := by
    simp [exec, cycleActor, running, withActor, ha]
  cases halted : a.core.halted with
  | true =>
    simp only [halted, if_true] at cycled
    rw [go _ _ cycled rfl]
    exact .leaves mine found (.inl rfl) core halted
  | false =>
    simp only [halted, Bool.false_eq_true, if_false] at cycled
    cases raised : a.core.raised with
    | some d =>
      simp only [obey, raised] at cycled
      rw [go _ _ cycled (w.thread?_modifyCore t _ _)]
      exact .obeys mine found core halted raised
    | none =>
      simp only [obey, raised, selectEvent] at cycled
      cases stack : a.core.stack with
      | nil =>
        simp only [stack] at cycled
        rw [go _ _ cycled (w.thread?_rested t i a)]
        exact .starves mine found ha halted raised stack
      | cons top below =>
        simp only [stack] at cycled
        have current : a.core.stack.head? = some top := by rw [stack]; rfl
        rcases selected : a.mailbox.dequeue (top.verdict w.policy) top.hasDefault with
          ⟨s, discarded, mailbox⟩
        simp only [selected] at cycled
        have kept : (w.modifyActor i fun a => { a with mailbox }).thread? t = w.thread? t :=
          w.thread?_modifyActor t i fun _ => rfl
        have dropped := (thread?_discard (w.modifyActor i fun a => { a with mailbox }) t
          discarded).trans kept
        cases s with
        | event envelope =>
          rw [go _ _ cycled dropped]
          exact .selects mine found ha halted raised current selected
        | default =>
          rw [go _ _ cycled dropped]
          exact .defaults mine found ha halted raised current selected
        | idle =>
          have idle := (((w.idled i a mailbox).discard discarded).thread?_rested t i a).trans
            ((thread?_discard _ t discarded).trans ((thread?_setController _ t _).trans kept))
          rw [go _ _ cycled idle]
          exact .idles mine found ha halted raised current selected

/-- A thread at work. -/
private theorem transition_working (explores : w.explores = true) {op : Nat}
    (turn : w.operation? t = some op) (works : Working t.own? outside (x :: rest))
    (running : w.isOver = false) (goesOn : w'.isOver = false) : Transition t w w' := by
  have mine_of : ∀ i, t.own? = some i → t = .actor i := by
    intro i h
    cases t with
    | actor j => exact congrArg ThreadId.actor (Option.some.inj h)
    | driver | sleeper => cases h
  have continued : ∀ speaker out shared next, x = .resume speaker out shared next →
      Working t.own? out (.perform speaker (next (.ok .null)) :: rest) → Transition t w w' := by
    intro speaker out shared next own works'
    subst own
    have executed : w.exec t (.resume speaker out shared next) =
        .go [.perform speaker (next (.ok .null))]
          (w.setThread t ⟨.resume speaker out shared next :: rest, out⟩) := by
      simp [exec, found]
    have := stepThread?_go found executed (w.thread?_setThread found _) moved
    rw [setThread_setThread] at this
    rw [this]
    exact .works found works rfl (.refl t w) works' (.swap rfl rfl rfl rfl (by simp) rest) rfl
  have original := works
  cases works with
  | cycle mine => exact transition_cycle found moved (mine_of _ mine) rfl rfl rfl running
  | settle mine r handled =>
    next i =>
    have mine := mine_of i mine
    obtain ⟨a, ha⟩ := actor_of_thread found mine
    have executed : w.exec t (.settle i r handled) = .go [] (if a.core.halted then w.reply r false
        else w.modifyActor i fun a => { a with pending := a.pending ++ [(r, handled)] }) := by
      simp [exec, withActor, ha]
    have kept : (if a.core.halted then w.reply r false
        else w.modifyActor i fun a => { a with pending := a.pending ++ [(r, handled)] }).thread? t
        = w.thread? t := by
      split
      · exact w.thread?_reply t r false
      · exact w.thread?_modifyActor t i fun _ => rfl
    rw [stepThread?_go found executed (kept.trans found) moved]
    exact .settles mine found ha
  | handle mine event r =>
    next i =>
    have mine := mine_of i mine
    obtain ⟨a, ha⟩ := actor_of_thread found mine
    have core : w.core? (.actor i) = some a.core := by simp [core?, ha]
    have stacked : ∀ stack, (w.setStack (.actor i) stack).thread? t = _ :=
      fun stack => (w.thread?_setStack t _ stack).trans found
    cases resolved : resolveEvent event.type a.core.stack with
    | ignored stack =>
      have executed : w.exec t (.handle (.actor i) event r) =
          .go (settlement (.actor i) r false) (w.setStack (.actor i) stack) := by
        simp [exec, handle, withCore, core, resolved]
      rw [stepThread?_go found executed (stacked stack) moved]
      exact .ignores mine found core resolved
    | bound binding stack =>
      have executed : w.exec t (.handle (.actor i) event r) =
          .go (consumption (.actor i) { a.core with stack } event binding
            ++ settlement (.actor i) r true) (w.setStack (.actor i) stack) := by
        simp [exec, handle, withCore, core, resolved]
      rw [stepThread?_go found executed (stacked stack) moved]
      exact .consumes mine found core resolved
    | exhausted =>
      by_cases reserved : event.type = .halt
      · have executed : w.exec t (.handle (.actor i) event r) =
            .go (settlement (.actor i) r false) ((w.setStack (.actor i) []).halt (.actor i)) := by
          simp only [exec, handle, withCore, core]
          rw [resolved]
          simp [reserved]
        rw [stepThread?_go found executed ((thread?_halt _ t _).trans (stacked [])) moved]
        exact .halts mine found core resolved
      · have executed : w.exec t (.handle (.actor i) event r) =
            ((w.setStack (.actor i) []).report (unhandledReport a.core event.type)).unwind
              .canceled := by
          simp [exec, handle, withCore, core, resolved, reserved]
        have := goesOn_of_answer found moved executed goesOn
        rw [isOver_report] at this
        cases this
  | test none program =>
    obtain rfl : t = .driver := by
      cases t with
      | driver => rfl
      | actor i => cases none
      | sleeper j => exact absurd rfl (known j)
    cases program with
    | ask voice request next =>
      exact transition_ask known found moved explores rfl none original (fun _ => .test none _)
        fun outside' shared next => .testWaits none outside' shared next
    | finish memory ending =>
      obtain ⟨w₁, executed, still⟩ : ∃ w₁, w.exec .driver (.perform .test (.finish memory ending)) =
          .go [.retire .yield] w₁ ∧ Still .driver w w₁ := still_finishTest w memory ending
      rw [stepThread?_go found executed ((still.thread? known).trans found) moved]
      exact .ends rfl found still
  | testWaits none _ shared next => exact continued _ _ _ _ rfl (.test none _)
  | collect r waiting works' =>
    obtain ⟨w₂, tasks', outside', delivered, still, works₂, continues⟩ :=
      deliverAnswer_of_awaited w (.ok (.bool (w.collected r))) works' waiting
    rw [stepThread?_answer found rfl moved, delivered]
    exact .works found original rfl still works₂ ⟨continues.grounded, continues.charges,
      fun r hr => List.mem_cons_of_mem _ (continues.collects r hr)⟩ rfl
  | waits mine phase _ shared next works' below =>
    exact continued _ _ _ _ rfl (.cons mine works' below)
  | cons fits works' below =>
    exact transition_fits known found moved explores turn fits original works' below goesOn

end Steps

omit [Strategy σ] in
theorem mode_of_explores {w : World σ} (explores : w.explores = true) :
    w.controller.mode = .exploration := by
  simpa [World.explores, Controller.explores] using explores

/-- A thread may only go on in a run that goes on. -/
theorem running_of_stepThread? {w' : World σ} (moved : w.stepThread? t = some w')
    (goesOn : w'.isOver = false) : w.isOver = false := by
  by_contra ceased
  have kept := outcome_stepThread? (by simpa using ceased) moved
  rw [isOver, Controller.isOver, kept] at goesOn
  exact ceased goesOn

/-- An actor starts. -/
private theorem exec_wake_first (t : ThreadId) {i : Nat} {a : Actor}
    (found : w.actors[i]? = some a) (running : a.core.halted = false)
    (first : a.mailbox.status = .uninitialized) :
    w.exec t (.wake i) = .go [.start (.actor i) a.creationEvent, .cycle i]
      (w.modifyActor i fun a =>
        { a with
          mailbox := a.mailbox.start.2
          pending := a.pending ++ a.creationRendezvous.toList.map (·, true)
          creationRendezvous := none
          creationEvent := none }) := by
  have before : a.mailbox.start = (.uninitialized, { a.mailbox with status := .running }) := by
    simp [Mailbox.start, first]
  simp only [exec, wakeActor, withActor, found, running, Bool.false_eq_true, if_false, before,
    if_true, modifyActor, List.modify_modify_eq]
  refine congrArg (Move.go _) (modifyActor_congr found ?_)
  simp only [Function.comp_apply, before]

/-- An actor runs again. -/
private theorem exec_wake_again (t : ThreadId) {i : Nat} {a : Actor}
    (found : w.actors[i]? = some a) (running : a.core.halted = false)
    (again : a.mailbox.status ≠ .uninitialized) :
    w.exec t (.wake i) =
      .go [.cycle i] (w.modifyActor i fun a => { a with mailbox := a.mailbox.start.2 }) := by
  have before : a.mailbox.start.1 = a.mailbox.status := by
    unfold Mailbox.start
    split <;> simp_all
  rcases started : a.mailbox.start with ⟨status, mailbox⟩
  rw [started] at before
  obtain rfl : status = a.mailbox.status := before
  simp only [exec, wakeActor, withActor, found, running, Bool.false_eq_true, if_false, started,
    if_neg again]
  exact congrArg (Move.go _) (modifyActor_congr found (by simp [started]))

/-- What the holder of the turn does. -/
theorem transition_of_stepThread? {w' : World σ} (explores : w.explores = true)
    (known : ∀ j, t ≠ .sleeper j) (turn : w.operation? t = some w.controller.scheduled)
    {thread : Thread} (found : w.thread? t = some thread) (posture : Posture t.own? thread)
    (moved : w.stepThread? t = some w') (goesOn : w'.isOver = false) : Transition t w w' := by
  have running : w.isOver = false := running_of_stepThread? moved goesOn
  have mode := mode_of_explores explores
  have mine_of : ∀ i, t.own? = some i → t = .actor i := by
    intro i h
    cases t with
    | actor j => exact congrArg ThreadId.actor (Option.some.inj h)
    | driver | sleeper => cases h
  have passage : ∀ i a, t = .actor i → w.actors[i]? = some a →
      w.controller.passage a.operation = .passed := by
    intro i a mine ha
    subst mine
    have same : a.operation = w.controller.scheduled := by simpa [operation?, ha] using turn
    rw [Controller.passage_eq mode running, same, if_pos rfl]
  cases posture with
  | fresh own =>
    next i =>
    have mine := mine_of i own
    obtain ⟨a, ha⟩ := actor_of_thread found mine
    have executed : w.exec t (.firstTurn i) = .go [.wake i] w := by
      have ceased : w.controller.isOver = false := running
      simp [exec, withActor, ha, Controller.waitForTurn, ceased, mode, passage i a mine ha]
    rw [stepThread?_go found executed found moved]
    exact .rises mine found (.inl rfl)
  | rests own =>
    next i =>
    have mine := mine_of i own
    obtain ⟨a, ha⟩ := actor_of_thread found mine
    have executed : w.exec t (.rest i) = .go [.wake i] w := by
      simp [exec, withActor, ha, passage i a mine ha]
    rw [stepThread?_go found executed found moved]
    exact .rises mine found (.inr rfl)
  | called own =>
    next i =>
    have mine := mine_of i own
    obtain ⟨a, ha⟩ := actor_of_thread found mine
    have core : w.core? (.actor i) = some a.core := by simp [core?, ha]
    cases halted : a.core.halted with
    | true =>
      have executed : w.exec t (.wake i) = .go [.retire .halt] w := by
        simp [exec, wakeActor, withActor, ha, halted]
      rw [stepThread?_go found executed found moved]
      exact .leaves mine found (.inr rfl) core halted
    | false =>
      by_cases first : a.mailbox.status = .uninitialized
      · have kept := fun f kept => (w.thread?_modifyActor t i (f := f) kept).trans found
        rw [stepThread?_go found (exec_wake_first t ha halted first) (kept _ fun _ => rfl) moved]
        exact .starts mine found ha halted first
      · have kept := fun f kept => (w.thread?_modifyActor t i (f := f) kept).trans found
        rw [stepThread?_go found (exec_wake_again t ha halted first) (kept _ fun _ => rfl) moved]
        exact .resumes mine found ha halted first
  | working works =>
    next tasks outside =>
    cases tasks with
    | nil => exact absurd rfl works.ne_nil
    | cons x rest => exact transition_working known found moved explores turn works running goesOn
  | idles own =>
    next i =>
    have mine := mine_of i own
    have caller : w.caller? t = some w.controller.scheduled := by simp [caller?, found, turn]
    have executed : w.exec t (.pass .yield) =
        .go [] { w with controller := (w.controller.schedule w.controller.scheduled .yield).2 } := by
      simp [exec, caller]
    rw [stepThread?_go found executed ((w.thread?_setController t _).trans found) moved]
    exact .passes found (.inr ⟨i, mine, rfl⟩) turn
  | retires kind =>
    have executed : w.exec t (.retire kind) =
        .go [] { w with controller := w.controller.complete w.controller.scheduled kind } := by
      simp [exec, turn]
    rw [stepThread?_go found executed ((w.thread?_setController t _).trans found) moved]
    exact .retires found turn
  | done =>
    unfold stepThread? at moved
    rw [found] at moved
    cases moved

end World

end SteeredActors
