import SteeredActors.Proofs.Replay.Equivariance
import SteeredActors.Exploration

/-!
# Worlds and their replays

A replayed world is the world in another generation, with a strategy that has used as many steps of
a trace as there are decisions. Whatever is done to a world is done to the replayed one in the same
way.
-/

set_option autoImplicit false
set_option relaxedAutoImplicit false

namespace SteeredActors

variable {σ : Type} (π : Equiv.Perm Nat) (T : Trace)

/-- The controller with its strategy replaced by a replay of the trace at the same decision. -/
def Controller.replayed (c : Controller σ) : Controller ReplayStrategy :=
  { c with outcome := c.outcome.map (Outcome.rename π), strategy := some ⟨T, c.recorded.length⟩ }

/-- The world in another generation, as a replay of the trace. -/
def World.replayed (w : World σ) : World ReplayStrategy where
  controller := w.controller.replayed π T
  registry := w.registry.rename π
  policy := w.policy
  ids := w.ids.rename π
  test := w.test.rename π
  actors := w.actors.map (Actor.rename π)
  monitors := w.monitors.map (Monitor.rename π)
  rendezvous := w.rendezvous
  objects := w.objects.map (SharedObject.rename π)
  sleepers := w.sleepers.map (Sleeper.rename π)
  clock := w.clock
  journal := w.journal
  lifecycle := w.lifecycle.map (LifecycleEvent.rename π)

def Service.replayed : Service σ → Service ReplayStrategy
  | .now a w => .now (Answer.rename π a) (w.replayed π T)
  | .later tasks w => .later (tasks.map (Task.rename π)) (w.replayed π T)

def Move.replayed : Move σ → Move ReplayStrategy
  | .wait => .wait
  | .go tasks w => .go (tasks.map (Task.rename π)) (w.replayed π T)
  | .answer a w => .answer (Answer.rename π a) (w.replayed π T)

/-! ## Controllers -/

namespace Controller

variable (c : Controller σ)

@[simp] theorem isOver_replayed : (c.replayed π T).isOver = c.isOver := by
  simp [isOver, replayed]

@[simp] theorem explores_replayed : (c.replayed π T).explores = c.explores := rfl

@[simp] theorem steps_replayed : (c.replayed π T).steps = c.steps := rfl

@[simp] theorem trace_replayed : (c.replayed π T).trace = c.trace := rfl

@[simp] theorem scheduled_replayed : (c.replayed π T).scheduled = c.scheduled := rfl

theorem setStatus_replayed (op : Nat) (old : List OperationStatus) (new : OperationStatus) :
    (c.replayed π T).setStatus op old new = (c.setStatus op old new).replayed π T := rfl

theorem register_replayed (name : String) :
    (c.replayed π T).register name = ((c.register name).1, (c.register name).2.replayed π T) := rfl

@[simp] theorem status?_replayed (op : Nat) : (c.replayed π T).status? op = c.status? op := rfl

@[simp] theorem enabledIds_replayed : (c.replayed π T).enabledIds = c.enabledIds := rfl

@[simp] theorem withStatus_replayed (s : OperationStatus) :
    (c.replayed π T).withStatus s = c.withStatus s := rfl

theorem finish_replayed (outcome : Outcome) :
    (c.replayed π T).finish (outcome.rename π) = (c.finish outcome).replayed π T := by
  unfold finish
  cases finished : c.outcome with
  | some o => simp [replayed, finished]
  | none =>
    cases outcome with
    | quiescent | boundReached | diverged | stopped => simp [replayed, finished, Outcome.rename]
    | bugFound report =>
      simp only [replayed, finished, Outcome.rename]
      rfl

theorem terminate_replayed (outcome : Outcome) :
    (c.replayed π T).terminate (outcome.rename π) =
      ((c.terminate outcome).1, (c.terminate outcome).2.replayed π T) := by
  simp [terminate, finish_replayed]

@[simp] theorem passage_replayed (op : Nat) : (c.replayed π T).passage op = c.passage op := by
  simp only [passage, isOver_replayed]
  rfl

@[simp] theorem waitForTurn_replayed (op : Nat) :
    (c.replayed π T).waitForTurn op = c.waitForTurn op := by
  simp only [waitForTurn, isOver_replayed, passage_replayed]
  rfl

@[simp] theorem quiescence_replayed : (c.replayed π T).quiescence = c.quiescence := by
  simp only [quiescence, isOver_replayed, enabledIds_replayed]
  rfl

theorem finishIdle_replayed : (c.replayed π T).finishIdle = c.finishIdle.replayed π T := by
  simp only [finishIdle, withStatus_replayed]
  split
  · exact c.finish_replayed π T .quiescent
  · exact c.finish_replayed π T (.bugFound (.new .deadlock _ none))

/-! ## Decisions -/

variable {c}

/-- A controller has decided as the trace says so far, and it has not left its strategy. -/
structure Along (T : Trace) (c : Controller σ) : Prop where
  trace : c.trace <+: T
  steady : ∀ reason, c.outcome ≠ some (.diverged reason)

variable {π T}

private theorem not_along_diverge (running : c.isOver = false) (d : Divergence) :
    ¬(c.diverge d).Along T := by
  intro along
  have none : c.outcome = none := by simpa [isOver] using running
  exact along.steady d.message (by simp [diverge, finish, none])

/-- The step that a replay uses is the decision that was recorded. -/
private theorem take_of_along {kind : PointKind} {chosen : Nat}
    (along : (c.record kind chosen).Along T) :
    ReplayStrategy.take ⟨T, c.recorded.length⟩ kind = (.ok chosen, ⟨T, c.recorded.length + 1⟩) := by
  obtain ⟨rest, whole⟩ := along.trace
  have step : T[c.recorded.length]? = some ⟨kind, chosen⟩ := by
    rw [← whole]
    simp [Controller.trace, record]
  simp [ReplayStrategy.take, step]

/-- Whatever the strategy answered, the replay answers what was recorded. -/
private theorem assign_replayed (running : c.isOver = false) (current : Nat) (kind : PointKind)
    (strategy : Option σ) (answer : Except Divergence Nat)
    (along : (assign { c with strategy } kind c.enabledIds answer).Along T) :
    ((c.replayed π T).askOperation kind current c.enabledIds).2.assign kind c.enabledIds
        ((c.replayed π T).askOperation kind current c.enabledIds).1 =
      (assign { c with strategy } kind c.enabledIds answer).replayed π T := by
  cases answer with
  | error d => exact absurd along (not_along_diverge (c := { c with strategy }) running d)
  | ok chosen =>
    unfold assign at along
    simp only at along
    split at along
    · next enabled =>
      have taken : ReplayStrategy.take ⟨T, c.recorded.length⟩ kind = _ :=
        take_of_along (c := { c with strategy }) ⟨along.trace, along.steady⟩
      have asked : (c.replayed π T).askOperation kind current c.enabledIds =
          (.ok chosen, { c.replayed π T with strategy := some ⟨T, c.recorded.length + 1⟩ }) := by
        simp only [askOperation, replayed, Strategy.nextOperation, ReplayStrategy.nextOperation,
          taken, enabled, if_true]
      rw [asked]
      simp only [assign, enabled, if_true]
      rfl
    · exact absurd along (not_along_diverge (c := { c with strategy }) running _)

/-- The replay of a choice answers what was recorded, whichever question it was. -/
private theorem choose_replayed {kind : PointKind} {ask : σ → Answered σ Nat}
    (ask' : ReplayStrategy → Answered ReplayStrategy Nat)
    (answers : ∀ s ∈ c.strategy, ∀ n, (ask s).1 = .ok n → ∀ t t',
      ReplayStrategy.take t kind = (.ok n, t') → ask' t = (.ok n, t'))
    (along : (c.choose kind ask).2.Along T) :
    (c.replayed π T).choose kind ask' =
      ((c.choose kind ask).1, (c.choose kind ask).2.replayed π T) := by
  unfold choose at along ⊢
  rw [isOver_replayed]
  cases finished : c.isOver with
  | true => rfl
  | false =>
    simp only [finished, Bool.false_eq_true, if_false] at along ⊢
    by_cases bound : c.maxSteps < c.steps + 1
    · have bound' : (c.replayed π T).maxSteps < (c.replayed π T).steps + 1 := bound
      simp only [if_pos bound, if_pos bound']
      exact congrArg (none, ·) (finish_replayed π T { c with steps := c.steps + 1 } .boundReached)
    simp only [if_neg bound] at along ⊢
    have within : ¬(c.replayed π T).maxSteps < (c.replayed π T).steps + 1 := bound
    simp only [if_neg within]
    cases holds : c.strategy with
    | none =>
      simp only [holds] at along
      exact absurd along
        (not_along_diverge (c := { c with steps := c.steps + 1, strategy := none }) finished _)
    | some s =>
      rw [holds] at along
      simp only at along ⊢
      cases answer : ask s with
      | mk value s' =>
        rw [answer] at along
        cases value with
        | error d =>
          exact absurd along
            (not_along_diverge (c := { c with steps := c.steps + 1, strategy := some s' }) finished d)
        | ok n =>
          have taken : ReplayStrategy.take ⟨T, c.recorded.length⟩ kind = _ :=
            take_of_along (c := { c with steps := c.steps + 1, strategy := some s' }) along
          have answered := answers s holds n (by rw [answer]) _ _ taken
          simp only [replayed, answered]
          rfl

variable [Strategy σ]

theorem advance_replayed (running : c.isOver = false) (current : Nat) (kind : PointKind)
    (along : (c.advance current kind).Along T) :
    (c.replayed π T).advance current kind = (c.advance current kind).replayed π T := by
  unfold advance at along ⊢
  simp only at along ⊢
  by_cases idle : c.enabledIds.isEmpty = true
  · rw [if_pos idle, if_pos (show (c.replayed π T).enabledIds.isEmpty = true from idle)]
    exact c.finishIdle_replayed π T
  rw [if_neg idle] at along
  rw [if_neg idle, if_neg (show ¬(c.replayed π T).enabledIds.isEmpty = true from idle)]
  by_cases bound : c.maxSteps < c.steps + 1
  · rw [if_pos bound,
      if_pos (show (c.replayed π T).maxSteps < (c.replayed π T).steps + 1 from bound)]
    exact finish_replayed π T { c with steps := c.steps + 1 } .boundReached
  rw [if_neg bound] at along
  rw [if_neg bound,
    if_neg (show ¬(c.replayed π T).maxSteps < (c.replayed π T).steps + 1 from bound)]
  cases holds : c.strategy with
  | none =>
    simp only [askOperation, holds] at along ⊢
    exact assign_replayed (c := { c with steps := c.steps + 1 }) running current kind _ _ along
  | some s =>
    simp only [askOperation, holds] at along ⊢
    exact assign_replayed (c := { c with steps := c.steps + 1 }) running current kind _ _ along

theorem schedule_replayed (op : Nat) (kind : PointKind) (along : (c.schedule op kind).2.Along T) :
    (c.replayed π T).schedule op kind =
      ((c.schedule op kind).1, (c.schedule op kind).2.replayed π T) := by
  unfold schedule at along ⊢
  rw [isOver_replayed, status?_replayed, passage_replayed]
  cases finished : c.isOver with
  | true => rfl
  | false =>
    rw [show (c.replayed π T).mode = c.mode from rfl]
    simp only [finished, Bool.false_eq_true, if_false] at along ⊢
    cases mode : c.mode with
    | production => rfl
    | exploration =>
      simp only [mode] at along ⊢
      split
      · rfl
      · next known =>
        rw [if_neg known] at along
        rw [advance_replayed finished op kind along, passage_replayed]

theorem complete_replayed (op : Nat) (kind : PointKind) (along : (c.complete op kind).Along T) :
    (c.replayed π T).complete op kind = (c.complete op kind).replayed π T := by
  unfold complete at along ⊢
  simp only [setStatus_replayed, explores_replayed, isOver_replayed, scheduled_replayed] at along ⊢
  split
  · next goesOn =>
    rw [if_pos goesOn] at along
    simp only [Bool.and_eq_true, Bool.not_eq_true'] at goesOn
    exact advance_replayed goesOn.1.2 op kind along
  · rfl

theorem nextBool_replayed (along : c.nextBool.2.Along T) :
    (c.replayed π T).nextBool = (c.nextBool.1, c.nextBool.2.replayed π T) := by
  unfold nextBool at along ⊢
  rw [show (c.replayed π T).mode = c.mode from rfl, isOver_replayed]
  cases mode : c.mode with
  | production => rfl
  | exploration =>
    simp only [mode] at along ⊢
    rw [choose_replayed (π := π) askBool (fun s _ n answer t t' taken => ?_) along]
    simp only [askBool, Strategy.nextBool, ReplayStrategy.nextBool, taken]
    -- truth values are recorded as zero and one
    have small : n = 0 ∨ n = 1 := by
      unfold askBool at answer
      split at answer
      · next b _ _ =>
        cases answer
        cases b <;> simp
      · cases answer
    rcases small with rfl | rfl <;> rfl

theorem nextInt_replayed {max : Nat}
    (bounded : ∀ s ∈ c.strategy, ∀ n, 0 < max → (Strategy.nextInt s max).1 = .ok n → n < max)
    (along : (c.nextInt max).2.Along T) :
    (c.replayed π T).nextInt max = ((c.nextInt max).1, (c.nextInt max).2.replayed π T) := by
  unfold nextInt at along ⊢
  rw [show (c.replayed π T).mode = c.mode from rfl, isOver_replayed]
  cases mode : c.mode with
  | production => rfl
  | exploration =>
    simp only [mode] at along ⊢
    refine choose_replayed _ (fun s holds n answer t t' taken => ?_) along
    have within : ¬(0 < max ∧ max ≤ n) := fun ⟨positive, large⟩ =>
      absurd (bounded s holds n positive answer) (by omega)
    simp only [Strategy.nextInt, ReplayStrategy.nextInt, taken, if_neg within]

end Controller

/-! ## Parts of a world -/

namespace World

variable (w : World σ)

@[simp] theorem isOver_replayed : (w.replayed π T).isOver = w.isOver :=
  Controller.isOver_replayed π T w.controller

@[simp] theorem explores_replayed : (w.replayed π T).explores = w.explores := rfl

theorem note_replayed (who text : String) :
    (w.replayed π T).note who text = (w.note who text).replayed π T := by
  unfold note
  rw [isOver_replayed]
  split <;> rfl

theorem observe_replayed (event : LifecycleEvent) :
    (w.replayed π T).observe (event.rename π) = (w.observe event).replayed π T := by
  unfold observe
  rw [isOver_replayed]
  split <;> rfl

theorem report_replayed (report : BugReport) :
    (w.replayed π T).report (report.rename π) = (w.report report).replayed π T := by
  have finished := Controller.finish_replayed π T w.controller (.bugFound report)
  exact congrArg (fun controller => { w.replayed π T with controller }) finished

private theorem map_modify {α β : Type} {f : α → α} {f' : β → β} {g : α → β}
    (same : ∀ a, f' (g a) = g (f a)) (items : List α) (i : Nat) :
    (items.map g).modify i f' = (items.modify i f).map g := by
  refine List.ext_getElem? fun j => ?_
  simp only [List.getElem?_modify, List.getElem?_map]
  cases items[j]? with
  | none => rfl
  | some a =>
    by_cases here : i = j
    · simp [here, same]
    · simp [here]

theorem modifyActor_replayed (i : Nat) {f f' : Actor → Actor}
    (same : ∀ a, f' (a.rename π) = (f a).rename π) :
    (w.replayed π T).modifyActor i f' = (w.modifyActor i f).replayed π T :=
  congrArg (fun actors => { w.replayed π T with actors }) (map_modify same w.actors i)

theorem modifyMonitor_replayed (m : Nat) {f f' : Monitor → Monitor}
    (same : ∀ a, f' (a.rename π) = (f a).rename π) :
    (w.replayed π T).modifyMonitor m f' = (w.modifyMonitor m f).replayed π T :=
  congrArg (fun monitors => { w.replayed π T with monitors }) (map_modify same w.monitors m)

theorem modifySleeper_replayed (j : Nat) {f f' : Sleeper → Sleeper}
    (same : ∀ a, f' (a.rename π) = (f a).rename π) :
    (w.replayed π T).modifySleeper j f' = (w.modifySleeper j f).replayed π T :=
  congrArg (fun sleepers => { w.replayed π T with sleepers }) (map_modify same w.sleepers j)

theorem modifyCore_replayed (c : Subject) {f f' : Core → Core}
    (same : ∀ core, f' (core.rename π) = (f core).rename π) :
    (w.replayed π T).modifyCore c f' = (w.modifyCore c f).replayed π T := by
  cases c with
  | actor i =>
    refine modifyActor_replayed π T w i fun a => ?_
    exact congrArg (fun core => { a.rename π with core }) (same a.core)
  | monitor m =>
    refine modifyMonitor_replayed π T w m fun a => ?_
    exact congrArg (fun core => { a.rename π with core }) (same a.core)

theorem actors_replayed (i : Nat) :
    (w.replayed π T).actors[i]? = w.actors[i]?.map (Actor.rename π) := List.getElem?_map ..

theorem monitors_replayed (m : Nat) :
    (w.replayed π T).monitors[m]? = w.monitors[m]?.map (Monitor.rename π) := List.getElem?_map ..

theorem sleepers_replayed (j : Nat) :
    (w.replayed π T).sleepers[j]? = w.sleepers[j]?.map (Sleeper.rename π) := List.getElem?_map ..

theorem objects_replayed (object : Nat) :
    (w.replayed π T).objects[object]? = w.objects[object]?.map (SharedObject.rename π) :=
  List.getElem?_map ..

theorem core?_replayed (c : Subject) :
    (w.replayed π T).core? c = (w.core? c).map (Core.rename π) := by
  cases c with
  | actor i =>
    simp only [core?, actors_replayed, Option.map_map]
    rfl
  | monitor m =>
    simp only [core?, monitors_replayed, Option.map_map]
    rfl

theorem thread?_replayed (t : ThreadId) :
    (w.replayed π T).thread? t = (w.thread? t).map (Thread.rename π) := by
  cases t with
  | driver => rfl
  | actor i =>
    simp only [thread?, actors_replayed, Option.map_map]
    rfl
  | sleeper j =>
    simp only [thread?, sleepers_replayed, Option.map_map]
    rfl

theorem setThread_replayed (t : ThreadId) (thread : Thread) :
    (w.replayed π T).setThread t (thread.rename π) = (w.setThread t thread).replayed π T := by
  cases t with
  | driver => rfl
  | actor i => exact modifyActor_replayed π T w i fun _ => rfl
  | sleeper j => exact modifySleeper_replayed π T w j fun _ => rfl

@[simp] theorem actor?_replayed (id : ActorId) :
    (w.replayed π T).actor? (id.rename π) = w.actor? id := by
  simp only [actor?, replayed, List.findIdx?_map]
  congr 1
  funext a
  exact ActorId.same_rename π a.core.id id

@[simp] theorem operation?_replayed (t : ThreadId) :
    (w.replayed π T).operation? t = w.operation? t := by
  cases t with
  | driver | sleeper j => rfl
  | actor i =>
    simp only [operation?, actors_replayed, Option.map_map]
    rfl

@[simp] theorem caller?_replayed (t : ThreadId) : (w.replayed π T).caller? t = w.caller? t := by
  simp only [caller?, thread?_replayed, operation?_replayed]
  cases w.thread? t <;> rfl

/-! ## Rendezvous -/

theorem reply_replayed (r : Nat) (handled : Bool) :
    (w.replayed π T).reply r handled = (w.reply r handled).replayed π T := by
  unfold reply
  rw [show (w.replayed π T).rendezvous = w.rendezvous from rfl]
  cases w.rendezvous[r]? with
  | none => rfl
  | some rendezvous =>
    obtain ⟨waiter, _ | reply⟩ := rendezvous
    · cases waiter <;> rfl
    · rfl

theorem replyAll_replayed (rs : List Nat) (handled : Bool) :
    (w.replayed π T).replyAll rs handled = (w.replyAll rs handled).replayed π T := by
  unfold replyAll
  induction rs generalizing w with
  | nil => rfl
  | cons r rs ih => rw [List.foldl_cons, reply_replayed, ih, List.foldl_cons]

theorem replyEach_replayed (pending : List (Nat × Bool)) :
    pending.foldl (fun w (r, handled) => w.reply r handled) (w.replayed π T) =
      (pending.foldl (fun w (r, handled) => w.reply r handled) w).replayed π T := by
  induction pending generalizing w with
  | nil => rfl
  | cons p pending ih =>
    obtain ⟨r, handled⟩ := p
    simp only [List.foldl_cons, reply_replayed]
    exact ih _

theorem discard_replayed (envelopes : List Envelope) :
    (w.replayed π T).discard (envelopes.map (Envelope.rename π)) =
      (w.discard envelopes).replayed π T := by
  rw [discard, filterMap_rendezvous_rename, replyAll_replayed, discard]

theorem openRendezvous_replayed (caller : Option Nat) :
    (w.replayed π T).openRendezvous caller =
      ((w.openRendezvous caller).1, (w.openRendezvous caller).2.replayed π T) := rfl

theorem blockCaller_replayed (caller : Option Nat) :
    (w.replayed π T).blockCaller caller = (w.blockCaller caller).replayed π T := by
  unfold blockCaller
  cases caller with
  | none => rfl
  | some op =>
    simp only
    rw [explores_replayed]
    cases w.explores <;> rfl

theorem enqueue_replayed (i : Nat) (envelope : Envelope) :
    (w.replayed π T).enqueue i (envelope.rename π) = (w.enqueue i envelope).replayed π T := by
  unfold enqueue
  rw [actors_replayed]
  cases w.actors[i]? with
  | none => rfl
  | some a =>
    have arrives := Mailbox.enqueue_rename π a.mailbox envelope
    simp only [Option.map_some, Actor.rename, arrives]
    rw [modifyActor_replayed π T w i
      (f := fun b => { b with mailbox := (a.mailbox.enqueue envelope).2 }) fun _ => rfl]
    cases (a.mailbox.enqueue envelope).1 with
    | dropped => exact discard_replayed π T _ [envelope]
    | queued | woke => rfl

theorem abandon_replayed (i : Nat) :
    (w.replayed π T).abandon i = (w.abandon i).replayed π T := by
  unfold abandon
  rw [actors_replayed]
  cases w.actors[i]? with
  | none => rfl
  | some a =>
    simp only [Option.map_some, Actor.rename, Mailbox.halt_rename]
    rw [modifyActor_replayed π T w i (f := fun b => { b with
      mailbox := a.mailbox.halt.2, creationRendezvous := none, pending := [] }) fun _ => rfl,
      discard_replayed, replyAll_replayed, replyAll_replayed]

theorem halt_replayed (c : Subject) : (w.replayed π T).halt c = (w.halt c).replayed π T := by
  unfold halt
  rw [core?_replayed]
  cases w.core? c with
  | none => rfl
  | some core =>
    simp only [Option.map_some, Core.rename]
    rw [modifyCore_replayed π T w c
      (f := fun core => { core with halted := true, stack := [], raised := none }) fun _ => rfl]
    split
    · rfl
    · cases c with
      | actor i =>
        simp only [abandon_replayed]
        exact observe_replayed π T _ (.destroyed core.id)
      | monitor m => exact observe_replayed π T _ (.destroyed core.id)

/-! ## Monitors and reports -/

@[simp] theorem monitorsLocked_replayed :
    (w.replayed π T).monitorsLocked = w.monitorsLocked := by
  simp only [monitorsLocked, replayed, List.any_map]
  rfl

@[simp] theorem monitor?_replayed (typeTag : String) :
    (w.replayed π T).monitor? typeTag = w.monitor? typeTag := by
  simp only [monitor?, replayed, List.findIdx?_map]
  rfl

@[simp] theorem observers_replayed (e : EventType) :
    (w.replayed π T).observers e = w.observers e := by
  simp only [observers, replayed, List.zipIdx_map, List.filter_map, List.map_map]
  rfl

theorem failAssertion_replayed (actor : Option ActorId) (message : String) :
    (w.replayed π T).failAssertion (actor.map (ActorId.rename π)) message =
      ((w.failAssertion actor message).1, (w.failAssertion actor message).2.replayed π T) :=
  congrArg (Refusal.assertionFailure message, ·)
    (report_replayed π T w (BugReport.assertion message actor))

end World

end SteeredActors
