import SteeredActors.Proofs.World.Levels
import SteeredActors.Proofs.World.Traffic

/-!
# What accepted descriptors assure

In an explored run of descriptors that were accepted, as long as it goes on, an interpreter that is to
find its next event or gets one has a state, a monitor exactly one; an event has at most one role in
every state of a stack; every state that is to be entered is there; and the reserved event that stands
for nothing to select is consumed by the current state.
-/

set_option autoImplicit false
set_option relaxedAutoImplicit false

namespace SteeredActors

variable {σ : Type}

/-! ## The reserved event -/

/-- A state that handles the reserved event consumes it. -/
theorem Core.Fit.consumes_default {kind : ActorKind} {core : Core} (fit : core.Fit kind)
    {top : ActiveState} (current : core.stack.head? = some top) (handles : top.hasDefault = true) :
    ∃ binding, resolveEvent .default core.stack = .bound binding core.stack := by
  obtain ⟨binding, binds⟩ := Option.isSome_iff_exists.1 handles
  obtain ⟨r, consuming, plays⟩ := ActiveState.exists_plays_of_binding? binds
  cases stack : core.stack with
  | nil => simp [stack] at current
  | cons first below =>
    obtain rfl : first = top := by simpa [stack] using current
    have kept : first.ignores .default = false := by
      by_contra drops
      have ignored : first.Plays .default .ignored :=
        List.contains_iff_mem.1 (by simpa [ActiveState.ignores] using drops)
      have mem : first ∈ mergedStack (core.stack.map (·.state)) := by
        rw [← fit.stack_eq, stack]
        exact List.mem_cons_self
      exact consuming (role_unique fit.distinct mem plays ignored)
    exact ⟨binding, by simp [resolveEvent, kept, binds]⟩

/-! ## Own threads -/

/-- Whoever works on the stack of an actor does so in its own thread. -/
theorem Posture.own_of_restacks {own : Option Nat} {w : World σ} {x : Task} {rest : List Task}
    {outside : Bool} {i : Nat} (posture : Posture own ⟨x :: rest, outside⟩)
    (moves : x.restacks? w = some (.actor i)) : own = some i := by
  cases posture with
  | fresh | called | idles | rests | retires => cases moves
  | working works =>
    cases works with
    | cycle | settle | test | testWaits | collect | waits => cases moves
    | handle mine => cases moves; exact mine
    | cons fits =>
      cases x <;> cases moves
      case start.refl | switch.refl | enter.refl | dropTop.refl => exact fits.1
      case handle.refl => exact fits.elim

/-- An actor begins a cycle with nothing else to do. -/
theorem Posture.of_cycle {own : Option Nat} {i : Nat} {rest : List Task} {outside : Bool}
    (posture : Posture own ⟨.cycle i :: rest, outside⟩) :
    own = some i ∧ rest = [] ∧ outside = false := by
  cases posture with
  | working works =>
    cases works with
    | cycle mine => exact ⟨mine, rfl, rfl⟩
    | cons fits => exact fits.elim

/-- The holder of the turn, if it is an actor. -/
private theorem eq_actor_of_own {t : ThreadId} {i : Nat} (own : t.own? = some i) :
    t = .actor i := by
  cases t with
  | actor j => exact congrArg _ (Option.some.inj own)
  | driver | sleeper j => cases own

namespace World

variable {w : World σ}

/-- An actor that is about to find its next event has a state. -/
theorem stack_ne_nil_of_cycle (sound : Sound w) (poised : Poised w) {i : Nat}
    (next : w.next? = some (.cycle i)) {core : Core} (there : w.core? (.actor i) = some core)
    (running : core.halted = false) : core.stack ≠ [] := by
  obtain ⟨rest, outside, found⟩ := thread_of_next? next
  obtain ⟨thread, found', posture, _⟩ := sound.holder poised
  obtain rfl := Option.some.inj (found.symm.trans found')
  obtain ⟨own, rfl, rfl⟩ := posture.of_cycle
  rw [eq_actor_of_own own] at found
  obtain ⟨a, exists_, thread⟩ := Option.map_eq_some_iff.1 found
  obtain rfl : a.core = core := by simpa [core?, exists_] using there
  obtain ⟨s, _, stage⟩ := (sound.actors i a exists_).stage
  cases stage with
  | working thread' _ grounded =>
    rw [thread] at thread'
    obtain ⟨rfl, _⟩ := Thread.mk.inj thread'
    exact List.ne_nil_of_length_pos grounded
  | halting _ _ _ _ halted =>
    rw [running] at halted
    cases halted
  | fresh thread' | resting thread' | gone thread' | called _ thread' | pausing _ thread'
    | retiring _ _ thread' => cases thread.symm.trans thread'

end World

/-! ## Nothing to select -/

/-- What is left of the tasks by which an actor handles the reserved event, with nothing to select. -/
inductive Reserving (i : Nat) : List Task → Prop where
  | point : Reserving i
      [.point .defaultEvent, .handle (.actor i) (.ofType .default) none, .cycle i]
  | pass : Reserving i
      [.pass .defaultEvent, .turn, .handle (.actor i) (.ofType .default) none, .cycle i]
  | turn : Reserving i [.turn, .handle (.actor i) (.ofType .default) none, .cycle i]
  | handle : Reserving i [.handle (.actor i) (.ofType .default) none, .cycle i]

/-- An actor is about to handle the reserved event with such a stack. -/
structure World.Reserves (w : World σ) (i : Nat) (stack : List ActiveState) : Prop where
  thread : ∃ tasks, w.thread? (.actor i) = some ⟨tasks, false⟩ ∧ Reserving i tasks
  stack : ∃ core, w.core? (.actor i) = some core ∧ core.stack = stack

namespace World

variable {w : World σ}

variable [Strategy σ]

/-- A step of the actor itself, unless it handles the event. -/
private theorem Reserves.own {w' : World σ} {i : Nat} {stack : List ActiveState}
    (h : w.Reserves i stack) (explores : w.explores = true) (running : w.isOver = false)
    (asks : w.operation? (.actor i) = some w.controller.scheduled)
    (moved : w.stepThread? (.actor i) = some w')
    (early : ∀ event r, ∀ tasks outside,
      w.thread? (.actor i) ≠ some ⟨.handle (.actor i) event r :: tasks, outside⟩) :
    w'.Reserves i stack := by
  obtain ⟨⟨tasks, found, reserving⟩, core, there, same⟩ := h
  have caller : w.caller? (.actor i) = some w.controller.scheduled := by
    simp only [caller?, found, asks]
    rfl
  have next : ∀ (c : Controller σ) tasks, Reserving i tasks →
      (World.setThread { w with controller := c } (.actor i) ⟨tasks, false⟩).Reserves i stack := by
    intro c tasks reserving
    have found' : World.thread? { w with controller := c } (.actor i) = some ⟨_, false⟩ := found
    exact ⟨⟨tasks, thread?_setThread _ found' _, reserving⟩, core,
      (core?_setThread _ _ _ _).trans there, same⟩
  cases reserving with
  | handle => exact absurd found (early _ _ _ _)
  | point =>
    have executed : w.exec (.actor i) (.point .defaultEvent) =
        .go [.pass .defaultEvent, .turn] w := by
      simp [exec, running, explores, caller, ensureKnown]
    rw [stepThread?_go found executed found moved]
    exact next w.controller _ .pass
  | pass =>
    have executed : w.exec (.actor i) (.pass .defaultEvent) =
        .go [] { w with
          controller := (w.controller.schedule w.controller.scheduled .defaultEvent).2 } := by
      simp [exec, caller]
    rw [stepThread?_go found executed found moved]
    exact next _ _ .turn
  | turn =>
    have passes : w.controller.passage w.controller.scheduled = .passed := by
      have mode : w.controller.mode = .exploration := by
        simpa [World.explores, Controller.explores] using explores
      have goesOn : w.controller.isOver = false := running
      simp [Controller.passage, goesOn, mode]
    have executed : w.exec (.actor i) .turn = .go [] w := by
      simp [exec, caller, follow, passes]
    rw [stepThread?_go found executed found moved]
    exact next w.controller _ .handle

/-- A step of somebody else. -/
private theorem Reserves.others {w' : World σ} {i : Nat} {stack : List ActiveState}
    (h : w.Reserves i stack) (orderly : w.Orderly)
    (posture : ∀ thread, w.thread? (threadOf w.controller.scheduled) = some thread →
      Posture (threadOf w.controller.scheduled).own? thread)
    (other : threadOf w.controller.scheduled ≠ .actor i)
    (moved : w.stepThread? (threadOf w.controller.scheduled) = some w')
    (step : Transition (threadOf w.controller.scheduled) w w') : w'.Reserves i stack := by
  obtain ⟨⟨tasks, reserved, reserving⟩, core, there, same⟩ := h
  obtain ⟨x, rest, outside, w₁, next, outside', found, acts, _, rfl⟩ := orderly.step moved
  refine ⟨⟨tasks, ?_, reserving⟩, ?_⟩
  · obtain ⟨thread, kept, sameTasks⟩ := acts.kept _ _ reserved
    have kept' := (w₁.thread?_setThread_ne (Ne.symm other) ⟨next, outside'⟩).trans kept
    rcases step.thread?_of_ne (Ne.symm other) (by simp) kept' with before | ⟨j, rfl⟩
    · rw [kept', ← before, reserved]
    · obtain rfl : [.firstTurn j] = tasks := sameTasks
      cases reserving
  · obtain ⟨core', found', becomes⟩ := acts.cores _ core there
    have rests : ¬x.Restacks w (.actor i) := fun moves =>
      other (eq_actor_of_own ((posture _ found).own_of_restacks moves))
    exact ⟨core', (core?_setThread _ _ _ _).trans found', (becomes.still rests).1.trans same⟩

/-- Only a state that handles the reserved event has it selected. -/
theorem hasDefault_of_dequeue {m m' : Mailbox} {verdict : EventType → Verdict} {hasDefault : Bool}
    {discarded : List Envelope} (found : m.dequeue verdict hasDefault = (.default, discarded, m')) :
    hasDefault = true := by
  simp only [Mailbox.dequeue] at found
  cases taken : (Mailbox.scan verdict m.queue).taken <;> simp only [taken] at found
  · split at found
    · assumption
    · cases found
  · cases found

/-- With nothing to select, an actor whose state handles the reserved event begins to do so. -/
private theorem reserves_of_selection {w' : World σ} {i : Nat} {discarded : List Envelope}
    (found : w.thread? (.actor i) = some ⟨[.cycle i], false⟩)
    (chosen : w.selection? i (.cycle i) = some (.default, discarded))
    (moved : w.stepThread? (.actor i) = some w') :
    ∃ core top, w.core? (.actor i) = some core ∧ core.stack.head? = some top ∧
      top.hasDefault = true ∧ w'.Reserves i core.stack := by
  simp only [selection?] at chosen
  split at chosen
  case isFalse => cases chosen
  next awake =>
  obtain ⟨a, there, chosen⟩ := Option.bind_eq_some_iff.1 chosen
  split at chosen
  case isTrue => cases chosen
  next free =>
  obtain ⟨top, current, selected⟩ := Option.map_eq_some_iff.1 chosen
  simp only [Bool.or_eq_true, not_or, Bool.not_eq_true, Option.isSome_eq_false_iff,
    Option.isNone_iff_eq_none] at free
  cases dequeued : a.mailbox.dequeue (top.verdict w.policy) top.hasDefault with
  | mk first second =>
    obtain ⟨dropped, mailbox⟩ := second
    simp only [dequeued, Prod.mk.injEq] at selected
    obtain ⟨rfl, rfl⟩ := selected
    obtain ⟨below, stack⟩ : ∃ below, a.core.stack = top :: below := by
      cases stack : a.core.stack with
      | nil => simp [stack] at current
      | cons first below => exact ⟨below, by simpa [stack] using current⟩
    have there' : w.core? (.actor i) = some a.core := by simp [core?, there]
    have executed : w.exec (.actor i) (.cycle i) =
        .go [.point .defaultEvent, .handle (.actor i) (.ofType .default) none, .cycle i]
          ((w.modifyActor i fun a => { a with mailbox }).discard dropped) := by
      simp [exec, cycleActor, awake.2, withActor, there, free.1, obey, free.2, selectEvent, stack,
        dequeued]
    have evolves : w.Evolves (fun _ => False)
        ((w.modifyActor i fun a => { a with mailbox }).discard dropped) :=
      Evolves.trans (.modifyActor w i (f := fun a => { a with mailbox }) fun a _ => .refl a.core)
        (Works.discard _ dropped).toEvolves
    obtain ⟨core, now, becomes⟩ := evolves.cores _ _ there'
    have found' :
        ((w.modifyActor i fun a => { a with mailbox }).discard dropped).thread? (.actor i) =
        some ⟨[.cycle i], false⟩ := by
      rw [thread?_discard]
      exact (w.thread?_modifyActor _ i (by exact fun _ => rfl)).trans found
    rw [stepThread?_go found executed found' moved]
    exact ⟨a.core, top, there', current, hasDefault_of_dequeue dequeued,
      ⟨_, thread?_setThread _ found' _, .point⟩, core, (core?_setThread _ _ _ _).trans now,
      (becomes.still id).1⟩

/-- With the reserved event to be handled by its state, a monitor begins to do so. -/
private theorem handles_of_defaults {w' : World σ} {m : Nat} {core : Core} {top : ActiveState}
    (next : w.next? = some (.defaults m)) (there : w.core? (.monitor m) = some core)
    (awake : core.halted = false) (current : core.stack.head? = some top)
    (handles : top.hasDefault = true)
    (moved : w.stepThread? (threadOf w.controller.scheduled) = some w') :
    w'.next? = some (.handle (.monitor m) (.ofType .default) none) ∧
      w'.core? (.monitor m) = some core := by
  obtain ⟨rest, outside, found⟩ := thread_of_next? next
  obtain ⟨a, present, rfl⟩ := Option.map_eq_some_iff.1 there
  obtain ⟨below, stack⟩ : ∃ below, a.core.stack = top :: below := by
    cases stack : a.core.stack with
    | nil => simp [stack] at current
    | cons first below => exact ⟨below, by simpa [stack] using current⟩
  have executed : w.exec (threadOf w.controller.scheduled) (.defaults m) =
      .go [.handle (.monitor m) (.ofType .default) none, .drain m, .defaults m] w := by
    simp [exec, defaultsOfMonitor, withMonitor, present, stack, awake, handles]
  rw [stepThread?_go found executed found moved]
  refine ⟨?_, (core?_setThread _ _ _ _).trans there⟩
  exact next?_of_thread (by rw [controller_setThread]; exact thread?_setThread _ found _)

end World

/-! ## Explored iterations -/

namespace Experiment

variable [Strategy σ] (e : Experiment) {ids : Allocator} {s : σ} {n : Nat}

/-- Monitors have as many states as they should as long as there is no outcome. -/
theorem level (accepted : e.registry.Accepted) (running : (e.iterate n ids s).isOver = false) :
    (e.iterate n ids s).Level := by
  induction n with
  | zero =>
    refine ⟨fun t x rest outside found y mem => ?_, fun t x rest outside found opens => ?_,
      fun m core there => ?_⟩
    · cases t with
      | driver => cases found; cases mem
      | actor i | sleeper j => cases found
    · cases t with
      | driver => cases found; cases opens
      | actor i | sleeper j => cases found
    · cases there
  | succ n ih =>
    have before := e.running_of_succ ids s running
    cases moved : (e.iterate n ids s).step? with
    | none =>
      rw [iterate_succ, moved, Option.getD_none]
      exact ih before
    | some w =>
      have same : e.iterate (n + 1) ids s = w := by rw [iterate_succ, moved, Option.getD_some]
      rw [World.step?_of_running (e.sound before).explores before] at moved
      rw [same] at running ⊢
      exact (ih before).step ((e.reached n ids s).orderly accepted) moved running

/-- Until it handles an event, an actor with nothing to select remains about to handle the reserved
one. -/
private theorem reserves_of_le (accepted : e.registry.Accepted) {i m : Nat}
    {stack : List ActiveState} (le : m ≤ n) (running : (e.iterate n ids s).isOver = false)
    (start : (e.iterate m ids s).Reserves i stack)
    (early : ∀ k, m ≤ k → k < n → ∀ event r,
      (e.iterate k ids s).next? ≠ some (.handle (.actor i) event r)) :
    (e.iterate n ids s).Reserves i stack := by
  induction le with
  | refl => exact start
  | @step n le ih =>
    have before := e.running_of_succ ids s running
    have reserves := ih before fun k ge lt => early k ge (Nat.lt_succ_of_lt lt)
    cases moved : (e.iterate n ids s).step? with
    | none => rwa [iterate_succ, moved, Option.getD_none]
    | some w =>
      have step := e.transition_of_step? running moved
      have same : e.iterate (n + 1) ids s = w := by rw [iterate_succ, moved, Option.getD_some]
      rw [same] at step ⊢
      rw [World.step?_of_running (e.sound before).explores before] at moved
      obtain ⟨thread, found, posture, asks⟩ := (e.sound before).holder (e.poised before)
      by_cases mine : World.threadOf (e.iterate n ids s).controller.scheduled = .actor i
      · rw [mine] at asks moved
        refine reserves.own (e.sound before).explores before asks moved
          fun event r tasks outside found => early n le (Nat.lt_succ_self n) event r ?_
        exact World.next?_of_thread (mine ▸ found)
      · refine reserves.others ((e.reached n ids s).orderly accepted) (fun thread' found' => ?_)
          mine moved step
        obtain rfl := Option.some.inj (found.symm.trans found')
        exact posture

end Experiment

/-! ## Nothing goes wrong -/

/-- What accepted descriptors assure of a world. -/
structure World.Assured (w : World σ) : Prop where
  /-- An actor that is to find its next event has a state. -/
  cycle : ∀ i core, w.next? = some (.cycle i) → w.core? (.actor i) = some core →
    core.halted = false → core.stack ≠ []
  /-- A monitor that an event is delivered to has exactly one. -/
  delivery : ∀ m event core, w.next? = some (.deliver m event) →
    w.core? (.monitor m) = some core → core.halted = false → core.stack.length = 1
  /-- In every state on a stack an event has one role at most. -/
  role : ∀ c core, w.core? c = some core → ∀ top ∈ core.stack, ∀ e r r',
    top.Plays e r → top.Plays e r' → r = r'
  /-- A state that is to be entered is there. -/
  target : ∀ t thread, w.thread? t = some thread → ∀ c target event,
    .enter c target event ∈ thread.tasks →
      ∃ core s, w.core? c = some core ∧ core.descriptor.state? target = some s

/-- The holder of the turn finds that an interpreter has nothing to do but handle the reserved event:
nothing is selected from the mailbox of an actor, or the monitor is done with what it has raised. -/
def World.Defaults (w : World σ) : Subject → Prop
  | .actor i => w.next? = some (.cycle i) ∧
      ∃ discarded, w.selection? i (.cycle i) = some (.default, discarded)
  | .monitor m => w.next? = some (.defaults m) ∧
      ∃ core top, w.core? (.monitor m) = some core ∧ core.halted = false ∧
        core.stack.head? = some top ∧ top.hasDefault = true

namespace Experiment

variable [Strategy σ] (e : Experiment) {ids : Allocator} {s : σ} {n : Nat}

/-- Once the reserved event is made up for an interpreter, that is what it handles next, in a state
that handles it. -/
private theorem handle_of_defaults (accepted : e.registry.Accepted)
    (running : (e.iterate n ids s).isOver = false) {c : Subject} {m : Nat} (lt : m < n)
    (defaults : (e.iterate m ids s).Defaults c)
    (early : ∀ k, m < k → k < n → ∀ event r,
      (e.iterate k ids s).next? ≠ some (.handle c event r)) {event : Event} {r : Option Nat}
    (next : (e.iterate n ids s).next? = some (.handle c event r)) :
    event = .ofType .default ∧ r = none ∧ ∃ core top, (e.iterate n ids s).core? c = some core ∧
      core.stack.head? = some top ∧ top.hasDefault = true := by
  have before := e.running_of_le ids s (Nat.le_of_lt lt) running
  cases moved : (e.iterate m ids s).step? with
  | none =>
    rw [e.iterate_of_stuck moved (Nat.le_of_lt lt)] at next
    cases c <;> cases next.symm.trans defaults.1
  | some w =>
    have same : e.iterate (m + 1) ids s = w := by rw [iterate_succ, moved, Option.getD_some]
    rw [World.step?_of_running (e.sound before).explores before] at moved
    cases c with
    | monitor k =>
      obtain ⟨begins, core, top, there, awake, current, handles⟩ := defaults
      obtain ⟨handle, kept⟩ := World.handles_of_defaults begins there awake current handles moved
      rw [← same] at handle kept
      obtain rfl : m + 1 = n := by
        by_contra other
        exact early (m + 1) (Nat.lt_succ_self m) (Nat.lt_of_le_of_ne lt other) _ _ handle
      cases next.symm.trans handle
      exact ⟨rfl, rfl, core, top, kept, current, handles⟩
    | actor i =>
      obtain ⟨begins, discarded, chosen⟩ := defaults
      obtain ⟨rest, outside, found⟩ := World.thread_of_next? begins
      obtain ⟨thread, found', posture, _⟩ := (e.sound before).holder (e.poised before)
      obtain rfl := Option.some.inj (found.symm.trans found')
      obtain ⟨own, rfl, rfl⟩ := posture.of_cycle
      rw [eq_actor_of_own own] at found moved
      obtain ⟨core, top, _, current, handles, reserves⟩ :=
        World.reserves_of_selection found chosen moved
      rw [← same] at reserves
      obtain ⟨⟨tasks, reserved, reserving⟩, core', there, stack⟩ :=
        e.reserves_of_le accepted lt running reserves fun k ge lt => early k ge lt
      obtain ⟨rest, outside, turn⟩ := World.thread_of_next? next
      obtain ⟨thread, found', posture, _⟩ := (e.sound running).holder (e.poised running)
      obtain rfl := Option.some.inj (turn.symm.trans found')
      rw [eq_actor_of_own (posture.own_of_restacks (w := e.iterate n ids s) rfl), reserved] at turn
      cases turn
      cases reserving
      exact ⟨rfl, rfl, core', top, there, stack ▸ current, handles⟩

/-- In an iteration of accepted descriptors that goes on, interpreters have the states that they need,
events one role, and transitions targets. The reserved event that is made up for an interpreter is the
next one that it handles, and its current state consumes it. -/
theorem assured_of_accepted (accepted : e.registry.Accepted)
    (running : (e.iterate n ids s).isOver = false) :
    (e.iterate n ids s).Assured ∧
      ∀ c m event r, m < n → (e.iterate m ids s).Defaults c →
        (∀ k, m < k → k < n → ∀ event r,
          (e.iterate k ids s).next? ≠ some (.handle c event r)) →
        (e.iterate n ids s).next? = some (.handle c event r) →
        event = .ofType .default ∧ r = none ∧ ∃ core binding,
          (e.iterate n ids s).core? c = some core ∧
            resolveEvent .default core.stack = .bound binding core.stack := by
  have orderly := fun k => (e.reached k ids s).orderly accepted
  refine ⟨⟨?_, ?_, ?_, ?_⟩, ?_⟩
  · intro i core next there awake
    exact World.stack_ne_nil_of_cycle (e.sound running) (e.poised running) next there awake
  · intro m event core next there awake
    rw [(e.level accepted running).depth m core there awake, if_neg]
    simp [World.opening?, next, Task.opens?]
  · intro c core there top mem event r r' plays plays'
    have fit := (orderly n).fit.cores c core there
    rw [fit.stack_eq] at mem
    exact role_unique fit.distinct mem plays plays'
  · intro t thread found c target event mem
    obtain ⟨core, there, known⟩ := (orderly n).founded t thread found _ mem
    obtain ⟨s, known⟩ := Option.isSome_iff_exists.1 known
    exact ⟨core, s, there, known⟩
  · intro c m event r lt defaults early next
    obtain ⟨same, none, core, top, there, current, handles⟩ :=
      e.handle_of_defaults accepted running lt defaults early next
    obtain ⟨binding, bound⟩ := ((orderly n).fit.cores c core there).consumes_default current handles
    exact ⟨same, none, core, binding, there, bound⟩

private def hummed : Action := fun o => .finish o.memory .ok

private def hum : StateDescriptor := ⟨"Hum", true, none, none, none, [(.default, .action hummed)]⟩

/-- A machine that does nothing but handle the reserved event. -/
private def hummer : Declaration :=
  { typeTag := "Hummer", kind := .machine, inherited := [], observes := [], derived := [hum] }

private def calm : StateDescriptor :=
  ⟨"Calm", true, none, none, none, [(⟨"Noise"⟩, .goto "Upset" none)]⟩

private def upset : StateDescriptor :=
  ⟨"Upset", false, none, none, none, [(.default, .goto "Calm" none)]⟩

/-- A monitor that calms down by the reserved event. -/
private def mood : Declaration :=
  { typeTag := "Mood", kind := .monitor, inherited := [], observes := [], derived := [calm, upset] }

private def hummerDescriptor : Descriptor := ⟨"Hummer", .machine, [hum], hum, []⟩

private def moodDescriptor : Descriptor := ⟨"Mood", .monitor, [calm, upset], calm, []⟩

/-- The test upsets the monitor and creates the machine. -/
def calming : Experiment where
  settings := .exploration
  registry := ⟨Timer.descriptors ++ [hummerDescriptor, moodDescriptor]⟩
  test :=
    .ask .own (.registerMonitor "Mood") fun _ =>
      .ask .own (.monitor "Mood" (.ofType ⟨"Noise"⟩)) fun _ =>
        .ask .own (.create "Hummer" none none false) fun _ => .finish {} .ok

private def turnsOfCalming : ScriptedStrategy := .ofAnswers [.ok 1, .ok 1]

private theorem build_hummer : hummer.build = .ok hummerDescriptor :=
  Declaration.build_of_plain (by decide) rfl rfl rfl rfl rfl

private theorem build_mood : mood.build = .ok moodDescriptor :=
  Declaration.build_of_plain (by decide) rfl rfl rfl rfl rfl

private theorem accepted_calming : calming.registry.Accepted :=
  ⟨[hummerDescriptor, moodDescriptor],
    by simpa using ⟨⟨hummer, build_hummer⟩, mood, build_mood⟩, rfl⟩

private def calmed (n : Nat) : World ScriptedStrategy := calming.iterate n ⟨0, 0⟩ turnsOfCalming

/-- The monitor has one state when it gets the event, and its next one consumes the reserved event.
The machine has a state when it finds nothing to select, and it consumes the reserved event when it
has its turn again. -/
theorem assured_of_accepted_calming :
    ((calmed 9).next? = some (.deliver 0 (.ofType ⟨"Noise"⟩)) ∧
      ∀ core, (calmed 9).core? (.monitor 0) = some core → core.stack.length = 1) ∧
    (∃ core binding, (calmed 15).core? (.monitor 0) = some core ∧
      resolveEvent .default core.stack = .bound binding core.stack) ∧
    ((calmed 28).next? = some (.cycle 0) ∧
      ∀ core, (calmed 28).core? (.actor 0) = some core → core.stack ≠ []) ∧
    ∃ core binding, (calmed 32).core? (.actor 0) = some core ∧
      resolveEvent .default core.stack = .bound binding core.stack := by
  have assured := fun n (running : (calmed n).isOver = false) =>
    calming.assured_of_accepted accepted_calming running
  have defaults : ∀ c m n event r, m < n → (calmed m).Defaults c →
      (∀ k, m < k → k < n → ∀ event r, (calmed k).next? ≠ some (.handle c event r)) →
      (calmed n).isOver = false → (calmed n).next? = some (.handle c event r) →
      ∃ core binding, (calmed n).core? c = some core ∧
        resolveEvent .default core.stack = .bound binding core.stack :=
    fun c m n event r lt defaults early running next =>
      ((assured n running).2 c m event r lt defaults early next).2.2
  refine ⟨⟨rfl, fun core there => ?_⟩, ?_, ⟨rfl, fun core there => ?_⟩, ?_⟩
  · exact (assured 9 rfl).1.delivery 0 _ core rfl there (by cases there; rfl)
  · refine defaults (.monitor 0) 14 15 _ none (by decide) ⟨rfl, _, _, rfl, rfl, rfl, rfl⟩ ?_ rfl rfl
    omega
  · exact (assured 28 rfl).1.cycle 0 core rfl there (by cases there; rfl)
  · refine defaults (.actor 0) 28 32 _ none (by decide) ⟨rfl, _, rfl⟩ ?_ rfl rfl
    intro k ge lt event r
    obtain rfl | rfl | rfl : k = 29 ∨ k = 30 ∨ k = 31 := by omega
    all_goals exact nofun

end Experiment

end SteeredActors
