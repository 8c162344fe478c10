import SteeredActors.Exploration
import SteeredActors.Proofs.World.SoundRuns

/-!
# Explored runs

An iteration of an experiment, step by step: as long as it has no outcome, every step is one of the
transitions of the holder of the turn, and everybody stands as the own thread says.
-/

set_option autoImplicit false
set_option relaxedAutoImplicit false

namespace SteeredActors

variable {σ : Type}

/-- The task that the holder of the turn does next. -/
def World.next? (w : World σ) : Option Task :=
  (w.thread? (World.threadOf w.controller.scheduled)).bind (·.tasks.head?)

theorem World.next?_of_thread {w : World σ} {x : Task} {rest : List Task} {outside : Bool}
    (found : w.thread? (World.threadOf w.controller.scheduled) = some ⟨x :: rest, outside⟩) :
    w.next? = some x := by
  simp [World.next?, found]

theorem World.next?_of_turn {w : World σ} {t : ThreadId} {x : Task} {rest : List Task}
    {outside : Bool} (turn : World.threadOf w.controller.scheduled = t)
    (found : w.thread? t = some ⟨x :: rest, outside⟩) : w.next? = some x := by
  subst turn
  exact World.next?_of_thread found

theorem World.next?_of_own {w : World σ} {i : Nat} {x : Task} {rest : List Task}
    {outside : Bool} (turn : w.controller.scheduled = i + 1)
    (found : w.thread? (.actor i) = some ⟨x :: rest, outside⟩) : w.next? = some x :=
  World.next?_of_turn (by rw [turn]; rfl) found

theorem World.thread_of_next? {w : World σ} {x : Task} (next : w.next? = some x) :
    ∃ rest outside,
      w.thread? (World.threadOf w.controller.scheduled) = some ⟨x :: rest, outside⟩ := by
  obtain ⟨⟨tasks, outside⟩, found, first⟩ := Option.bind_eq_some_iff.1 next
  cases tasks with
  | nil => cases first
  | cons y rest =>
    obtain rfl : y = x := by simpa using first
    exact ⟨rest, outside, found⟩

/-! ## What a run keeps -/

private theorem policy_enqueue (w : World σ) (i : Nat) (envelope : Envelope) :
    (w.enqueue i envelope).policy = w.policy := by
  unfold World.enqueue
  split
  · rfl
  · next a _ =>
    cases a.mailbox.enqueue envelope with
    | mk arrival mailbox =>
      cases arrival with
      | dropped =>
        exact (Relieves.discard (w.modifyActor i fun a => { a with mailbox }) [envelope]).policy
      | queued => rfl
      | woke => rfl

private theorem policy_observe (w : World σ) (event : LifecycleEvent) :
    (w.observe event).policy = w.policy := by
  unfold World.observe
  split <;> rfl

private theorem policy_addActor (w : World σ) (id : ActorId) (descriptor : Descriptor)
    (event : Option Event) (rendezvous : Option Nat) :
    (w.addActor id descriptor event rendezvous).policy = w.policy := policy_observe _ _

private theorem policy_blockCaller (w : World σ) (caller : Option Nat) :
    (w.blockCaller caller).policy = w.policy := by
  unfold World.blockCaller
  cases caller with
  | none => rfl
  | some op =>
    simp only
    split <;> rfl

private theorem policy_abandon (w : World σ) (i : Nat) : (w.abandon i).policy = w.policy := by
  cases found : w.actors[i]? with
  | none => rw [World.abandon_of_none found]
  | some a =>
    rw [World.abandon_eq found]
    exact (Relieves.replyAll (w.modifyActor i Actor.emptied) a.owed false).policy

private theorem policy_halt (w : World σ) (i : Nat) : (w.halt (.actor i)).policy = w.policy := by
  unfold World.halt
  split
  · rfl
  · split
    · rfl
    · exact (policy_observe _ _).trans (policy_abandon _ _)

private theorem policy_rested (w : World σ) (i : Nat) (a : Actor) :
    (w.rested i a).policy = w.policy := (Relieves.replyEach w a.pending).policy

@[simp] private theorem policy_setThread (w : World σ) (t : ThreadId) (thread : Thread) :
    (w.setThread t thread).policy = w.policy := by
  cases t <;> rfl

/-- How events are dequeued is settled once for all. -/
theorem Transition.policy [Strategy σ] {t : ThreadId} {w w' : World σ}
    (step : Transition t w w') : w'.policy = w.policy := by
  cases step <;> simp only [policy_setThread]
  case works still _ _ _ => exact still.policy
  case ends still => exact still.policy
  case unwinds still => exact (policy_abandon _ _).trans still.policy
  case posts => exact policy_enqueue _ _ _
  case engages => exact (policy_enqueue _ _ _).trans (policy_blockCaller _ _)
  case creates still _ _ _ => exact (policy_addActor _ _ _ _ _).trans still.policy
  case createsAndWaits still _ _ =>
    exact (policy_blockCaller _ _).trans ((policy_addActor _ _ _ _ _).trans still.policy)
  case settles =>
    split
    · exact (Relieves.reply w _ _).policy
    · rfl
  case halts => exact policy_halt _ _
  case selects | defaults => exact (Relieves.discard _ _).policy
  case idles => exact (policy_rested _ _ _).trans (Relieves.discard _ _).policy
  case starves => exact policy_rested _ _ _
  all_goals rfl

/-- Threads but that of the holder of the turn stay, and there may be a new one. -/
theorem Transition.thread?_of_ne [Strategy σ] {t u : ThreadId} {w w' : World σ}
    (step : Transition t w w') (other : u ≠ t) (known : ∀ j, u ≠ .sleeper j) {thread : Thread}
    (found : w'.thread? u = some thread) :
    w.thread? u = some thread ∨ ∃ i, thread = ⟨[.firstTurn i], false⟩ := by
  cases step <;> rw [World.thread?_setThread_ne _ other] at found
  case works still _ _ _ | ends still => exact .inl ((still.thread? known).symm.trans found)
  case unwinds still =>
    rw [World.thread?_abandon] at found
    exact .inl ((still.thread? known).symm.trans found)
  case posts =>
    rw [World.thread?_enqueue] at found
    exact .inl found
  case engages =>
    rw [World.thread?_enqueue, World.thread?_blockCaller, World.thread?_openRendezvous] at found
    exact .inl found
  case creates still _ _ _ =>
    rcases World.thread?_of_addActor _ found with found | fresh
    · exact .inl ((still.thread? known).symm.trans found)
    · exact .inr fresh
  case createsAndWaits still _ _ =>
    rw [World.thread?_blockCaller] at found
    rcases World.thread?_of_addActor _ found with found | fresh
    · rw [World.thread?_openRendezvous] at found
      exact .inl ((still.thread? known).symm.trans found)
    · exact .inr fresh
  case passes | retires =>
    rw [World.thread?_setController] at found
    exact .inl found
  case settles =>
    refine .inl (Eq.trans ?_ found)
    split
    · rw [World.thread?_reply]
    · exact (w.thread?_modifyActor u _ (by exact fun _ => rfl)).symm
  case shifts | ignores | consumes =>
    rw [World.thread?_setStack] at found
    exact .inl found
  case halts =>
    rw [World.thread?_halt, World.thread?_setStack] at found
    exact .inl found
  case obeys =>
    rw [World.thread?_modifyCore] at found
    exact .inl found
  case leaves | rises => exact .inl found
  case selects | defaults =>
    rw [World.thread?_discard] at found
    exact .inl ((w.thread?_modifyActor u _ (by exact fun _ => rfl)).symm.trans found)
  case idles =>
    rw [World.thread?_rested, World.thread?_discard] at found
    refine .inl (Eq.trans ?_ found)
    exact ((World.thread?_setController _ u _).trans
      (w.thread?_modifyActor u _ (by exact fun _ => rfl))).symm
  case starves =>
    rw [World.thread?_rested] at found
    exact .inl found
  case starts | resumes =>
    exact .inl ((w.thread?_modifyActor u _ (by exact fun _ => rfl)).symm.trans found)

private theorem length_enqueue (w : World σ) (i : Nat) (envelope : Envelope) :
    (w.enqueue i envelope).actors.length = w.actors.length := by
  unfold World.enqueue
  split
  · rfl
  · next a _ =>
    cases a.mailbox.enqueue envelope with
    | mk arrival mailbox =>
      have kept : (w.modifyActor i fun a => { a with mailbox }).actors.length = w.actors.length := by
        simp [World.modifyActor]
      cases arrival with
      | dropped =>
        have same := (Relieves.discard (w.modifyActor i fun a => { a with mailbox }) [envelope]).actors
        simp only [same, kept]
      | queued => exact kept
      | woke => exact kept

theorem actors_observe (w : World σ) (event : LifecycleEvent) :
    (w.observe event).actors = w.actors := by
  unfold World.observe
  split <;> rfl

theorem actors_blockCaller (w : World σ) (caller : Option Nat) :
    (w.blockCaller caller).actors = w.actors := by
  unfold World.blockCaller
  cases caller with
  | none => rfl
  | some op =>
    simp only
    split <;> rfl

private theorem length_modifyActor (w : World σ) (i : Nat) (f : Actor → Actor) :
    (w.modifyActor i f).actors.length = w.actors.length := by
  simp [World.modifyActor]

private theorem length_abandon (w : World σ) (i : Nat) :
    (w.abandon i).actors.length = w.actors.length := by
  cases found : w.actors[i]? with
  | none => rw [World.abandon_of_none found]
  | some a =>
    rw [World.abandon_eq found, (Relieves.replyAll _ a.owed false).actors]
    exact length_modifyActor _ _ _

/-- The points at which a decision comes with a new actor. -/
def Task.ofCreation : Task → Bool
  | .point .create | .pass .create => true
  | _ => false

/-- Actors stay. A new one comes of a request, and a decision comes next. -/
theorem Transition.length_actors [Strategy σ] {t : ThreadId} {w w' : World σ}
    (step : Transition t w w') :
    w'.actors.length = w.actors.length ∨
      w'.actors.length = w.actors.length + 1 ∧
        (∃ speaker voice request next rest,
          w.thread? t = some ⟨.perform speaker (.ask voice request next) :: rest, false⟩) ∧
        ∃ (w₁ : World σ) (x : Task) (rest : List Task), x.ofCreation = true ∧
          w'.controller.scheduled = w.controller.scheduled ∧
          w' = w₁.setThread t ⟨x :: rest, false⟩ := by
  have set : ∀ (w : World σ) thread, (w.setThread t thread).actors.length = w.actors.length := by
    intro w thread
    cases t with
    | driver => rfl
    | actor i => exact length_modifyActor _ _ _
    | sleeper j => rfl
  have replied : ∀ {w w' : World σ}, Relieves w w' → w'.actors.length = w.actors.length :=
    fun h => congrArg List.length h.actors
  have rested : ∀ (w : World σ) i a, (w.rested i a).actors.length = w.actors.length :=
    fun w i a => (length_modifyActor _ _ _).trans (replied (Relieves.replyEach w a.pending))
  have added : ∀ (w : World σ) id descriptor event rendezvous,
      (w.addActor id descriptor event rendezvous).actors.length = w.actors.length + 1 := by
    intro w id descriptor event rendezvous
    simp [World.addActor, actors_observe]
  cases step <;> rw [set]
  case works still _ _ _ | ends still => exact .inl still.length_actors
  case creates w₁ x tasks tasks' id descriptor event request thread works busy still _ _ _ =>
    obtain ⟨speaker, voice, request, next, rfl⟩ := request
    refine .inr ⟨?_, ⟨_, _, _, _, _, thread⟩, _, _, _, rfl, ?_, rfl⟩
    · rw [added, still.length_actors]
    · rw [World.controller_setThread]
      simpa [World.addActor, Controller.register] using still.controller.scheduled
  case createsAndWaits w₁ op x tasks tasks' id descriptor event thread works busy request asks still
      _ _ =>
    obtain ⟨speaker, voice, request, next, rfl⟩ := request
    refine .inr ⟨?_, ⟨_, _, _, _, _, thread⟩, _, _, _, rfl, ?_, rfl⟩
    · rw [actors_blockCaller, added]
      exact congrArg (· + 1) still.length_actors
    · rw [World.controller_setThread, World.scheduled_blockCaller]
      simpa [World.addActor, Controller.register] using still.controller.scheduled
  all_goals refine .inl ?_
  case unwinds still => rw [length_abandon, still.length_actors]
  case posts => rw [length_enqueue]
  case engages =>
    rw [length_enqueue, actors_blockCaller]
    rfl
  case settles =>
    split
    · rw [replied (Relieves.reply _ _ _)]
    · rw [length_modifyActor]
  case halts =>
    unfold World.halt
    split
    · exact length_modifyActor _ _ _
    · split
      · exact length_modifyActor _ _ _
      · simp only [actors_observe, length_abandon]
        exact (length_modifyActor _ _ _).trans (length_modifyActor _ _ _)
  case selects | defaults => rw [replied (Relieves.discard _ _), length_modifyActor]
  case idles =>
    rw [rested, replied (Relieves.discard _ _)]
    exact length_modifyActor _ _ _
  case starves => rw [rested]
  case shifts | ignores | consumes | obeys | starts | resumes => exact length_modifyActor _ _ _
  all_goals rfl

theorem Transition.length_actors_le [Strategy σ] {t : ThreadId} {w w' : World σ}
    (step : Transition t w w') : w.actors.length ≤ w'.actors.length := by
  rcases step.length_actors with same | ⟨more, _⟩ <;> omega

/-! ## The first world -/

/-- Everybody stands in a world in which nothing has happened. -/
theorem Sound.initial (strategy : σ) (maxSteps : Nat) (registry : Registry)
    (policy : DequeuePolicy) (ids : Allocator) (test : Program) :
    Sound (World.new (.exploration strategy maxSteps) registry policy ids test) where
  explores := rfl
  ids := rfl
  nextId := rfl
  driver := ⟨.enabled, rfl, .working (.test rfl test) (.inl rfl)⟩
  actors := by
    intro i a found
    cases found

theorem Poised.initial (strategy : σ) (maxSteps : Nat) (registry : Registry)
    (policy : DequeuePolicy) (ids : Allocator) (test : Program) :
    Poised (World.new (.exploration strategy maxSteps) registry policy ids test) := ⟨.inl rfl⟩

/-- Who holds the turn is known, and has a thread. -/
theorem Sound.holder {w : World σ} (h : Sound w) (poised : Poised w) :
    ∃ thread, w.thread? (World.threadOf w.controller.scheduled) = some thread ∧
      Posture (World.threadOf w.controller.scheduled).own? thread ∧
      w.operation? (World.threadOf w.controller.scheduled) = some w.controller.scheduled := by
  have known : ∃ s, w.controller.status? w.controller.scheduled = some s ∨
      ∃ thread, w.thread? (World.threadOf w.controller.scheduled) = some thread := by
    rcases poised.enabled with enabled | ⟨kind, rest, passes⟩
    · exact ⟨_, .inl enabled⟩
    · exact ⟨.enabled, .inr ⟨_, passes⟩⟩
  cases turn : w.controller.scheduled with
  | zero =>
    obtain ⟨s, _, stage⟩ := h.driver
    refine ⟨w.test.thread, rfl, stage.posture, ?_⟩
    simp only [World.threadOf, World.operation?, h.explores, if_true]
    rfl
  | succ i =>
    have there : i < w.actors.length := by
      obtain ⟨s, status | ⟨thread, found⟩⟩ := known
      · have occurs : w.controller.scheduled ∈ w.controller.operations.map (·.id) := by
          by_contra absent
          rw [(w.controller.status?_eq_none_iff _).2 absent] at status
          cases status
        rw [h.ids, turn, List.mem_range] at occurs
        omega
      · rw [turn] at found
        obtain ⟨a, ha, _⟩ := Option.map_eq_some_iff.1 found
        exact (List.getElem?_eq_some_iff.1 ha).1
    have found : w.actors[i]? = some w.actors[i] := List.getElem?_eq_getElem there
    have stands := h.actors i _ found
    obtain ⟨s, _, stage⟩ := stands.stage
    refine ⟨w.actors[i].thread, ?_, stage.posture, ?_⟩
    · simp [World.threadOf, World.thread?, found]
    · simp [World.threadOf, World.operation?, found, stands.operation]

variable [Strategy σ]

/-- The last step of a run, if it still moves then. -/
theorem World.run_succ (n : Nat) (w : World σ) :
    w.run (n + 1) = ((w.run n).step?).getD (w.run n) := by
  induction n generalizing w with
  | zero => cases moved : w.step? <;> simp [World.run, moved]
  | succ n ih =>
    rw [World.run]
    cases moved : w.step? with
    | none => simp [World.run, moved]
    | some w₁ =>
      simp only [ih w₁]
      simp [World.run, moved]

/-- While a run is explored and goes on, the holder of the turn moves. -/
theorem World.step?_of_running {w : World σ} (explores : w.explores = true)
    (running : w.isOver = false) :
    w.step? = w.stepThread? (World.threadOf w.controller.scheduled) := by
  simp [World.step?, explores, running]

/-- A step of an explored run that goes on is a transition of the holder of the turn. -/
theorem Sound.transition_of_step? {w w' : World σ} (h : Sound w) (poised : Poised w)
    (moved : w.step? = some w') (goesOn : w'.isOver = false) :
    Transition (World.threadOf w.controller.scheduled) w w' := by
  have running : w.isOver = false := by
    by_contra ceased
    have ceased : w.isOver = true := by simpa using ceased
    rw [World.isOver, Controller.isOver, World.outcome_step? ceased moved] at goesOn
    rw [World.isOver, Controller.isOver, goesOn] at ceased
    cases ceased
  rw [World.step?_of_running h.explores running] at moved
  obtain ⟨thread, found, posture, turn⟩ := h.holder poised
  exact World.transition_of_stepThread? h.explores (World.threadOf_ne_sleeper _) turn found posture
    moved goesOn

omit [Strategy σ] in
/-- What the last of some steps adds to a history. -/
theorem filterMap_range_succ {α : Type} (f : Nat → Option α) (n : Nat) :
    (List.range (n + 1)).filterMap f = (List.range n).filterMap f ++ (f n).toList := by
  rw [List.range_succ, List.filterMap_append]
  cases last : f n <;> simp [last]

namespace Experiment

variable (e : Experiment) (ids : Allocator) (s : σ)

/-- One more step of an iteration. -/
theorem iterate_succ (n : Nat) :
    e.iterate (n + 1) ids s = (e.iterate n ids s).step?.getD (e.iterate n ids s) :=
  World.run_succ n _

/-- An iteration without an outcome had none before. -/
theorem running_of_succ {n : Nat} (running : (e.iterate (n + 1) ids s).isOver = false) :
    (e.iterate n ids s).isOver = false := by
  by_contra ceased
  have ceased : (e.iterate n ids s).isOver = true := by simpa using ceased
  have kept := World.outcome_run 1 ceased
  rw [World.isOver, Controller.isOver] at running ceased
  rw [iterate_succ] at running
  cases moved : (e.iterate n ids s).step? with
  | none =>
    rw [moved, Option.getD_none, ceased] at running
    cases running
  | some w =>
    rw [moved, Option.getD_some] at running
    simp only [World.run, moved] at kept
    rw [kept, ceased] at running
    cases running

theorem running_of_le {m n : Nat} (le : m ≤ n) (running : (e.iterate n ids s).isOver = false) :
    (e.iterate m ids s).isOver = false := by
  induction le with
  | refl => exact running
  | step _ ih => exact ih (e.running_of_succ ids s running)

variable {ids s}

/-- Once nothing moves, nothing changes. -/
theorem iterate_of_stuck {m n : Nat} (stuck : (e.iterate m ids s).step? = none) (le : m ≤ n) :
    e.iterate n ids s = e.iterate m ids s := by
  induction le with
  | refl => rfl
  | step _ ih => rw [iterate_succ, ih, stuck, Option.getD_none]

/-- What holds at first and is kept by every transition holds as long as there is no outcome. -/
theorem invariant {P : World σ → Prop} (start : P (e.iterate 0 ids s)) {n : Nat}
    (kept : ∀ k < n, Sound (e.iterate k ids s) → Poised (e.iterate k ids s) →
      P (e.iterate k ids s) →
      Transition (World.threadOf (e.iterate k ids s).controller.scheduled) (e.iterate k ids s)
        (e.iterate (k + 1) ids s) →
      (e.iterate (k + 1) ids s).isOver = false → P (e.iterate (k + 1) ids s))
    (running : (e.iterate n ids s).isOver = false) :
    Sound (e.iterate n ids s) ∧ Poised (e.iterate n ids s) ∧ P (e.iterate n ids s) := by
  induction n with
  | zero => exact ⟨.initial _ _ _ _ _ _, .initial _ _ _ _ _ _, start⟩
  | succ n ih =>
    obtain ⟨sound, poised, holds⟩ := ih (fun k lt => kept k (Nat.lt_succ_of_lt lt))
      (e.running_of_succ ids s running)
    cases moved : (e.iterate n ids s).step? with
    | none =>
      have same : e.iterate (n + 1) ids s = e.iterate n ids s := by
        rw [iterate_succ, moved, Option.getD_none]
      rw [same]
      exact ⟨sound, poised, holds⟩
    | some w =>
      have same : e.iterate (n + 1) ids s = w := by
        rw [iterate_succ, moved, Option.getD_some]
      have step : Transition _ (e.iterate n ids s) (e.iterate (n + 1) ids s) :=
        sound.transition_of_step? poised (by rw [moved, same]) running
      exact ⟨sound.transition poised step, poised.transition sound step running,
        kept n (Nat.lt_succ_self n) sound poised holds step running⟩

/-- Everybody stands as long as there is no outcome. -/
theorem sound {n : Nat} (running : (e.iterate n ids s).isOver = false) :
    Sound (e.iterate n ids s) :=
  (e.invariant (P := fun _ => True) trivial (fun _ _ _ _ _ _ _ => trivial) running).1

theorem poised {n : Nat} (running : (e.iterate n ids s).isOver = false) :
    Poised (e.iterate n ids s) :=
  (e.invariant (P := fun _ => True) trivial (fun _ _ _ _ _ _ _ => trivial) running).2.1

/-- A step that moves and leaves no outcome is a transition. -/
theorem transition_of_step? {n : Nat} (running : (e.iterate (n + 1) ids s).isOver = false)
    {w : World σ} (moved : (e.iterate n ids s).step? = some w) :
    Transition (World.threadOf (e.iterate n ids s).controller.scheduled) (e.iterate n ids s)
      (e.iterate (n + 1) ids s) := by
  have before := e.running_of_succ ids s running
  have same : (e.iterate n ids s).step? = some (e.iterate (n + 1) ids s) := by
    rw [iterate_succ, moved, Option.getD_some]
  exact (e.sound before).transition_of_step? (e.poised before) same running

/-- Each step that leaves no outcome is a transition, or nothing moves. -/
theorem transition_or_stuck {n : Nat} (running : (e.iterate (n + 1) ids s).isOver = false) :
    Transition (World.threadOf (e.iterate n ids s).controller.scheduled) (e.iterate n ids s)
        (e.iterate (n + 1) ids s) ∨
      e.iterate (n + 1) ids s = e.iterate n ids s := by
  cases moved : (e.iterate n ids s).step? with
  | none => exact .inr (by rw [iterate_succ, moved, Option.getD_none])
  | some w => exact .inl (e.transition_of_step? running moved)

/-- The policy is the one of the settings as long as there is no outcome. -/
theorem policy_iterate {n : Nat} (running : (e.iterate n ids s).isOver = false) :
    (e.iterate n ids s).policy = e.settings.runtime.dequeuePolicy :=
  (e.invariant (P := fun w => w.policy = e.settings.runtime.dequeuePolicy) rfl
    (fun _ _ _ _ same step _ => step.policy.trans same) running).2.2

end Experiment

end SteeredActors
