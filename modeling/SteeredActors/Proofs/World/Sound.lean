import SteeredActors.Proofs.World.Standing

/-!
# Explored runs are sound

Every step of an explored run that does not end it leaves everybody standing as the own thread says,
and the turn with somebody who has work or passes it on.
-/

set_option autoImplicit false
set_option relaxedAutoImplicit false

namespace SteeredActors

variable {σ : Type}

/-- A thread, its operation and its actor may have changed; everybody else is as before, except that
some of those who waited may have their replies. -/
structure Spares (t : ThreadId) (w w' : World σ) : Prop where
  explores : w'.explores = w.explores
  policy : w'.policy = w.policy
  ids : w'.controller.operations.map (·.id) = w.controller.operations.map (·.id)
  nextId : w'.controller.nextId = w.controller.nextId
  scheduled : w'.controller.scheduled = w.controller.scheduled
  operation : w'.operation? t = w.operation? t
  statuses : ∀ op s, w.operation? t ≠ some op → w.controller.status? op = some s →
    ∃ s', w'.controller.status? op = some s' ∧ Relieved s s'
  driver : t ≠ .driver → w'.test.thread = w.test.thread
  length : w'.actors.length = w.actors.length
  others : ∀ j, t ≠ .actor j → w'.actors[j]? = w.actors[j]?

namespace Spares

variable {t : ThreadId} {w w₁ w₂ : World σ}

theorem refl (t : ThreadId) (w : World σ) : Spares t w w :=
  ⟨rfl, rfl, rfl, rfl, rfl, rfl, fun _ s _ h => ⟨s, h, .inl rfl⟩, fun _ => rfl, rfl, fun _ _ => rfl⟩

theorem trans (h : Spares t w w₁) (k : Spares t w₁ w₂) : Spares t w w₂ := by
  refine ⟨k.explores.trans h.explores, k.policy.trans h.policy, k.ids.trans h.ids,
    k.nextId.trans h.nextId, k.scheduled.trans h.scheduled, k.operation.trans h.operation, ?_,
    fun ht => (k.driver ht).trans (h.driver ht), k.length.trans h.length,
    fun j hj => (k.others j hj).trans (h.others j hj)⟩
  intro op s other hs
  obtain ⟨s₁, hs₁, first⟩ := h.statuses op s other hs
  obtain ⟨s₂, hs₂, second⟩ := k.statuses op s₁ (by rwa [h.operation]) hs₁
  refine ⟨s₂, hs₂, ?_⟩
  rcases first with rfl | ⟨rfl, rfl⟩
  · exact second
  · rcases second with rfl | ⟨e, _⟩
    · exact .inr ⟨rfl, rfl⟩
    · cases e

private theorem operation_of_parts (explores : w₁.explores = w.explores)
    (operation : w₁.actors.map (·.operation) = w.actors.map (·.operation)) (u : ThreadId) :
    w₁.operation? u = w.operation? u := by
  cases u with
  | driver => simp [World.operation?, explores]
  | sleeper j => rfl
  | actor i =>
    have same := congrArg (·[i]?) operation
    simpa [World.operation?] using same

theorem of_frame (h : Frame t w w₁) : Spares t w w₁ := by
  have operations : w₁.actors.map (·.operation) = w.actors.map (·.operation) := by
    have same := congrArg (List.map (·.operation)) h.outer
    simpa [Actor.outer, Function.comp_def] using same
  refine ⟨h.explores, h.policy, ?_, h.controller.nextId, h.controller.scheduled,
    operation_of_parts h.explores operations t, ?_, fun _ => h.driver, h.length_actors, h.others⟩
  · rw [h.controller.operations]
  · intro op s _ hs
    exact ⟨s, (h.controller.status? op).trans hs, .inl rfl⟩

theorem of_relieves (h : Relieves w w₁) : Spares t w w₁ := by
  refine ⟨h.explores, h.policy, h.controller.ids, h.controller.nextId, h.controller.scheduled,
    operation_of_parts h.explores (by rw [h.actors]) t, ?_, fun _ => by rw [h.test],
    by rw [h.actors], fun _ _ => by rw [h.actors]⟩
  intro op s _ hs
  rcases h.controller.status op with same | ⟨blocked, enabled⟩
  · exact ⟨s, same.trans hs, .inl rfl⟩
  · rw [hs] at blocked
    exact ⟨.enabled, enabled, .inr ⟨Option.some.inj blocked, rfl⟩⟩

/-- The actor whose thread it is may change except for its number. -/
theorem modifyActor (w : World σ) (i : Nat) {f : Actor → Actor}
    (kept : ∀ a, (f a).operation = a.operation) : Spares (.actor i) w (w.modifyActor i f) := by
  have others : ∀ j, i ≠ j → (w.modifyActor i f).actors[j]? = w.actors[j]? := by
    intro j ne
    simp [World.modifyActor, ne]
  refine ⟨rfl, rfl, rfl, rfl, rfl, ?_, fun _ s _ h => ⟨s, h, .inl rfl⟩, fun _ => rfl,
    by simp [World.modifyActor], fun j hj => others j fun e => hj (congrArg _ e)⟩
  simp only [World.operation?, World.modifyActor, List.getElem?_modify_eq]
  cases w.actors[i]? with
  | none => rfl
  | some a => simp [kept a]

theorem setThread (w : World σ) (t : ThreadId) (thread : Thread) :
    Spares t w (w.setThread t thread) := by
  cases t with
  | driver =>
    exact ⟨rfl, rfl, rfl, rfl, rfl, rfl, fun _ s _ h => ⟨s, h, .inl rfl⟩, fun h => absurd rfl h, rfl,
      fun _ _ => rfl⟩
  | actor i => exact modifyActor w i fun _ => rfl
  | sleeper j =>
    exact ⟨rfl, rfl, rfl, rfl, rfl, rfl, fun _ s _ h => ⟨s, h, .inl rfl⟩, fun _ => rfl, rfl,
      fun _ _ => rfl⟩

/-- The own operation may change its status. -/
theorem setStatus (w : World σ) {op : Nat} (own : w.operation? t = some op)
    (old : List OperationStatus) (new : OperationStatus) :
    Spares t w { w with controller := w.controller.setStatus op old new } := by
  refine ⟨rfl, rfl, w.controller.ids_setStatus op old new, rfl, rfl, ?_, ?_, fun _ => rfl, rfl,
    fun _ _ => rfl⟩
  · cases t <;> rfl
  · intro o s other hs
    have ne : o ≠ op := by
      rintro rfl
      exact other own
    refine ⟨s, ?_, .inl rfl⟩
    rw [Controller.status?_setStatus, hs]
    simp [ne]

theorem openRendezvous (w : World σ) (caller : Option Nat) :
    Spares t w (w.openRendezvous caller).2 := by
  refine ⟨rfl, rfl, rfl, rfl, rfl, ?_, fun _ s _ h => ⟨s, h, .inl rfl⟩, fun _ => rfl, rfl,
    fun _ _ => rfl⟩
  cases t <;> rfl

theorem observe (w : World σ) (event : LifecycleEvent) : Spares t w (w.observe event) :=
  of_frame (Still.observe w event).toFrame

/-- An actor is abandoned by its own thread. -/
theorem abandon (w : World σ) (i : Nat) : Spares (.actor i) w (w.abandon i) := by
  cases found : w.actors[i]? with
  | none =>
    rw [World.abandon_of_none found]
    exact refl _ w
  | some a =>
    rw [World.abandon_eq found]
    exact (modifyActor w i (f := Actor.emptied) fun _ => rfl).trans (of_relieves (.replyAll _ _ _))

/-- An actor is halted by its own thread. -/
theorem halt (w : World σ) (i : Nat) : Spares (.actor i) w (w.halt (.actor i)) := by
  unfold World.halt
  split
  · exact refl _ w
  · next core _ =>
    split
    · exact refl _ w
    · exact ((modifyActor w i (f := fun a => { a with core :=
        { a.core with halted := true, stack := [], raised := none } }) fun _ => rfl).trans
          (.abandon _ i)).trans (observe _ _)

end Spares

/-- How the one a thread belongs to stands. -/
def Upright (w : World σ) : ThreadId → Prop
  | .driver => ∃ s, w.controller.status? 0 = some s ∧
      TestStage (w.controller.scheduled = 0) s w.test.thread
  | .actor i => ∀ a, w.actors[i]? = some a → Stands w i a
  | .sleeper _ => True

namespace Sound

variable {t : ThreadId} {w w' : World σ}

theorem numbered (h : Sound w) : w.controller.Numbered := by
  unfold Controller.Numbered
  rw [h.ids]
  exact List.nodup_range

theorem operation_actor (h : Sound w) {i : Nat} {a : Actor} (found : w.actors[i]? = some a) :
    w.operation? (.actor i) = some (i + 1) := by
  simp [World.operation?, found, (h.actors i a found).operation]

/-- Who else there is stands as before. -/
theorem of_spares (h : Sound w) (spares : Spares t w w') (own : Upright w' t) : Sound w' := by
  have explores : w'.explores = true := by rw [spares.explores, h.explores]
  have driver : ∃ s, w'.controller.status? 0 = some s ∧
      TestStage (w'.controller.scheduled = 0) s w'.test.thread := by
    by_cases ht : t = .driver
    · subst ht
      exact own
    · have other : w.operation? t ≠ some 0 := by
        cases t with
        | driver => exact absurd rfl ht
        | sleeper j => simp [World.operation?]
        | actor i =>
          intro e
          obtain ⟨a, ha, e⟩ := Option.map_eq_some_iff.1 e
          rw [(h.actors i a ha).operation] at e
          omega
      obtain ⟨s, hs, stage⟩ := h.driver
      obtain ⟨s', hs', reply⟩ := spares.statuses 0 s other hs
      refine ⟨s', hs', ?_⟩
      rw [spares.scheduled, spares.driver ht]
      exact stage.relieve reply
  refine ⟨explores, ?_, ?_, driver, ?_⟩
  · rw [spares.ids, spares.length, h.ids]
  · rw [spares.nextId, spares.length, h.nextId]
  · intro j a found
    by_cases ht : t = .actor j
    · subst ht
      exact own a found
    · have before : w.actors[j]? = some a := by rw [← spares.others j ht, found]
      have stands := h.actors j a before
      have other : w.operation? t ≠ some (j + 1) := by
        cases t with
        | driver => simp [World.operation?, h.explores, Controller.driverOperation]
        | sleeper k => simp [World.operation?]
        | actor i =>
          intro e
          obtain ⟨b, hb, e⟩ := Option.map_eq_some_iff.1 e
          rw [(h.actors i b hb).operation] at e
          exact ht (congrArg ThreadId.actor (Nat.succ.inj e))
      obtain ⟨s, hs, stage⟩ := stands.stage
      obtain ⟨s', hs', reply⟩ := spares.statuses (j + 1) s other hs
      refine ⟨stands.operation, ⟨s', hs', ?_⟩, stands.tidy⟩
      rw [spares.scheduled, spares.policy]
      exact stage.relieve reply

end Sound

/-! ## Threads at work -/

/-- What is known of an actor whose thread is at work. -/
structure AtWork (w : World σ) (i : Nat) (a : Actor) (tasks : List Task) : Prop where
  found : w.actors[i]? = some a
  operation : a.operation = i + 1
  status : w.controller.status? (i + 1) = some .enabled ∨
    w.controller.status? (i + 1) = some .blocked
  mailbox : a.mailbox.status = .running
  running : a.core.halted = false
  grounded : Grounded tasks a.core.stack.length
  tidy : a.Tidy

/-- A thread may have these tasks to do. -/
def Able (w : World σ) (tasks : List Task) : ThreadId → Prop
  | .driver => w.controller.status? 0 = some .enabled ∨ w.controller.status? 0 = some .blocked
  | .actor i => ∃ a, AtWork w i a tasks
  | .sleeper _ => False

/-- What an interpreter does concerns no mailbox. -/
theorem Actor.outer_inj {a b : Actor} (same : b.outer = a.outer) :
    b.mailbox = a.mailbox ∧ b.operation = a.operation ∧ b.pending = a.pending ∧
      b.creationRendezvous = a.creationRendezvous ∧ b.core.halted = a.core.halted ∧
      b.thread = a.thread := by
  simp only [Actor.outer, Core.outer, Actor.mk.injEq, Core.mk.injEq] at same
  obtain ⟨⟨_, _, _, _, _, halted⟩, mailbox, operation, _, creation, pending, thread⟩ := same
  exact ⟨mailbox, operation, pending, creation, halted, thread⟩

theorem Actor.Tidy.of_outer {a b : Actor} (h : a.Tidy) (same : b.outer = a.outer) : b.Tidy := by
  obtain ⟨mailbox, _, pending, creation, halted, _⟩ := Actor.outer_inj same
  refine ⟨?_, ?_, ?_, ?_⟩
  · rw [mailbox]
    exact h.queue
  · rw [mailbox, pending]
    exact h.pending
  · rw [mailbox, creation]
    exact h.creation
  · rw [mailbox, halted]
    exact h.halted

namespace Able

variable {t : ThreadId} {w w₁ : World σ} {tasks tasks' : List Task}

/-- Tasks that need no higher stack may stand for others. -/
theorem mono (h : Able w tasks t) (lower : ∀ n, Grounded tasks n → Grounded tasks' n) :
    Able w tasks' t := by
  cases t with
  | driver => exact h
  | sleeper j => exact h
  | actor i =>
    obtain ⟨a, work⟩ := h
    exact ⟨a, { work with grounded := lower _ work.grounded }⟩

theorem frame (h : Able w tasks t) (frame : Frame t w w₁)
    (grounded : ∀ i a b, t = .actor i → w.actors[i]? = some a → w₁.actors[i]? = some b →
      a.core.halted = false → Grounded tasks a.core.stack.length →
      Grounded tasks' b.core.stack.length) : Able w₁ tasks' t := by
  cases t with
  | sleeper j => exact h
  | driver =>
    unfold Able
    rw [frame.controller.status?]
    exact h
  | actor i =>
    obtain ⟨a, work⟩ := h
    obtain ⟨b, hb, same⟩ := frame.actor work.found
    obtain ⟨mailbox, operation, _, _, halted, _⟩ := Actor.outer_inj same
    refine ⟨b, hb, operation.trans work.operation, ?_, ?_, halted.trans work.running, ?_,
      work.tidy.of_outer same⟩
    · rw [frame.controller.status?]
      exact work.status
    · rw [mailbox]
      exact work.mailbox
    · exact grounded i a b rfl work.found hb work.running work.grounded

theorem still (h : Able w tasks t) (still : Still t w w₁)
    (lower : ∀ n, Grounded tasks n → Grounded tasks' n) : Able w₁ tasks' t := by
  refine h.frame still.toFrame ?_
  intro i a b _ ha hb _ high
  have same := congrArg (·[i]?) still.towers
  simp only [List.getElem?_map, ha, hb, Option.map_some, Option.some.injEq] at same
  rw [same]
  exact lower _ high

/-- A thread that has such tasks stands by them. -/
theorem upright (h : Able w tasks t) {outside : Bool}
    (found : w.thread? t = some ⟨tasks, outside⟩) (works : Working t.own? outside tasks) :
    Upright w t := by
  cases t with
  | sleeper j => trivial
  | driver =>
    have thread : w.test.thread = ⟨tasks, outside⟩ := Option.some.inj found
    rcases h with enabled | blocked
    · exact ⟨_, enabled, .working (by rw [thread]; exact works) (.inl rfl)⟩
    · exact ⟨_, blocked, .working (by rw [thread]; exact works) (.inr rfl)⟩
  | actor i =>
    obtain ⟨a, work⟩ := h
    intro b hb
    obtain rfl : a = b := Option.some.inj (work.found.symm.trans hb)
    have thread : a.thread = ⟨tasks, outside⟩ := by
      simpa [World.thread?, work.found] using found
    have stage : ∀ s, s = .enabled ∨ s = .blocked →
        ActorStage w.policy i (w.controller.scheduled = i + 1) s a := fun s active =>
      .working thread works work.grounded work.mailbox active work.running
    refine ⟨work.operation, ?_, work.tidy⟩
    rcases work.status with enabled | blocked
    · exact ⟨_, enabled, stage _ (.inl rfl)⟩
    · exact ⟨_, blocked, stage _ (.inr rfl)⟩

/-- Another list of tasks changes nothing else. -/
theorem setThread (h : Able w tasks t) (thread : Thread) : Able (w.setThread t thread) tasks t := by
  cases t with
  | sleeper j => exact h
  | driver => exact h
  | actor i =>
    obtain ⟨a, work⟩ := h
    refine ⟨{ a with thread }, ?_, work.operation, work.status, work.mailbox, work.running,
      work.grounded, work.tidy.queue, work.tidy.pending, work.tidy.creation, work.tidy.halted⟩
    simp [World.setThread, World.modifyActor, work.found]

end Able

namespace Sound

variable {t : ThreadId} {w w₁ w' : World σ} {x : Task} {tasks tasks' : List Task}
  {outside outside' : Bool}

theorem atWork_of_busy (h : Sound w) {i : Nat}
    (found : w.thread? (.actor i) = some ⟨x :: tasks, outside⟩)
    (works : Working (some i) outside (x :: tasks)) (busy : x.busy = true) :
    ∃ a, AtWork w i a (x :: tasks) := by
  obtain ⟨a, ha, thread⟩ := Option.map_eq_some_iff.1 found
  have stands := h.actors i a ha
  obtain ⟨s, hs, stage⟩ := stands.stage
  have same : ∀ {ys out}, a.thread = ⟨ys, out⟩ → x :: tasks = ys ∧ outside = out := by
    intro ys out e
    rw [thread] at e
    exact ⟨congrArg Thread.tasks e, congrArg Thread.outside e⟩
  have alone : ∀ {y out}, a.thread = ⟨[y], out⟩ → x = y ∧ tasks = [] := by
    intro y out e
    exact List.cons.inj (same e).1
  cases stage with
  | working thread' works' grounded status active running =>
    obtain ⟨rfl, rfl⟩ := same thread'
    refine ⟨a, ha, stands.operation, ?_, status, running, grounded, stands.tidy⟩
    rcases active with rfl | rfl
    · exact .inl hs
    · exact .inr hs
  | fresh thread' | called _ thread' | resting thread' | retiring _ _ thread' =>
    obtain ⟨rfl, rfl⟩ := alone thread'
    cases works.not_between
  | gone thread' => cases (same thread').1
  | pausing _ thread' =>
    obtain ⟨e, rfl⟩ := same thread'
    rw [e] at works
    exact absurd works Working.not_pausing
  | halting _ thread' =>
    rcases thread' with thread' | ⟨r, handled, thread'⟩
    · obtain ⟨rfl, rfl⟩ := alone thread'
      cases busy
    · obtain ⟨e, _⟩ := same thread'
      obtain ⟨rfl, _⟩ := List.cons.inj e
      cases busy

theorem able (h : Sound w) (known : ∀ j, t ≠ .sleeper j)
    (found : w.thread? t = some ⟨x :: tasks, outside⟩)
    (works : Working t.own? outside (x :: tasks)) (busy : x.busy = true) :
    Able w (x :: tasks) t := by
  cases t with
  | sleeper j => exact absurd rfl (known j)
  | actor i => exact h.atWork_of_busy found works busy
  | driver =>
    have thread : w.test.thread = ⟨x :: tasks, outside⟩ := Option.some.inj found
    obtain ⟨s, hs, stage⟩ := h.driver
    cases stage with
    | working _ active =>
      rcases active with rfl | rfl
      · exact .inl hs
      · exact .inr hs
    | retiring _ same =>
      rw [thread] at same
      obtain ⟨rfl, rfl⟩ := List.cons.inj (congrArg Thread.tasks same)
      cases works.not_between
    | gone same =>
      rw [thread] at same
      cases congrArg Thread.tasks same

/-- A thread that is able to do other tasks may do them. -/
theorem rethread (h : Sound w) (able : Able w tasks' t) {old : Thread}
    (found : w.thread? t = some old) (works : Working t.own? outside' tasks') :
    Sound (w.setThread t ⟨tasks', outside'⟩) :=
  h.of_spares (.setThread w t _) ((able.setThread _).upright (w.thread?_setThread found _) works)

/-- Work that concerns nobody else leaves all as it was. -/
theorem of_still (h : Sound w) (known : ∀ j, t ≠ .sleeper j)
    (found : w.thread? t = some ⟨x :: tasks, outside⟩)
    (works : Working t.own? outside (x :: tasks)) (busy : x.busy = true) (still : Still t w w₁) :
    Sound w₁ :=
  h.of_spares (.of_frame still.toFrame)
    (((h.able known found works busy).still still fun _ => id).upright
      ((still.thread? known).trans found) works)

/-! ## Envelopes and new actors -/

/-- Replies leave everybody standing. -/
theorem of_relieves (h : Sound w) (relieves : Relieves w w₁) : Sound w₁ :=
  h.of_spares (t := .sleeper 0) (.of_relieves relieves) trivial

/-- An envelope may arrive at any time. -/
theorem enqueue (h : Sound w) (i : Nat) (envelope : Envelope) : Sound (w.enqueue i envelope) := by
  cases found : w.actors[i]? with
  | none =>
    have same : w.enqueue i envelope = w := by
      unfold World.enqueue
      rw [found]
    rw [same]
    exact h
  | some a =>
    have stands := h.actors i a found
    obtain ⟨s, hs, stage⟩ := stands.stage
    have asks : w.operation? (.actor i) = some a.operation := by simp [World.operation?, found]
    cases status : a.mailbox.status with
    | halted =>
      rw [World.enqueue_of_halted found envelope status]
      exact h.of_relieves (.discard w _)
    | uninitialized | running =>
      have busy : a.mailbox.status = .uninitialized ∨ a.mailbox.status = .running := by
        simp [status]
      rw [World.enqueue_of_busy found envelope busy]
      refine h.of_spares (.modifyActor w i fun _ => rfl) ?_
      intro b hb
      obtain rfl : a.queued envelope = b := by
        simpa [World.modifyActor, found] using hb
      refine ⟨stands.operation, ⟨s, hs, ?_⟩, ?_⟩
      · cases stage with
        | fresh thread status enabled running => exact .fresh thread status enabled running
        | called turn thread status enabled running =>
          exact .called turn thread status enabled running
        | working thread works grounded status active running =>
          exact .working thread works grounded status active running
        | pausing turn thread parked running =>
          rcases parked with ⟨idle, _⟩ | woken
          · simp [idle] at status
          · exact .pausing turn thread (.inr woken) running
        | resting thread parked running =>
          rcases parked with ⟨idle, _⟩ | woken
          · simp [idle] at status
          · exact .resting thread (.inr woken) running
        | halting _ _ halted | retiring _ _ _ halted | gone _ halted => simp [halted] at status
      · refine ⟨?_, stands.tidy.pending, stands.tidy.creation, stands.tidy.halted⟩
        intro halted
        have : a.mailbox.status = .halted := halted
        simp [this] at status
    | idle =>
      rw [World.enqueue_of_idle found envelope status]
      refine h.of_spares ((Spares.modifyActor w i (f := (·.woken envelope)) fun _ => rfl).trans
        (.setStatus _ ?_ [.disabled] .enabled)) ?_
      · simp [World.operation?, World.modifyActor, found, Actor.woken]
      intro b hb
      obtain rfl : a.woken envelope = b := by
        simpa [World.modifyActor, found] using hb
      have clear : a.pending = [] := stands.tidy.pending (by simp [status])
      have started : a.creationRendezvous = none := stands.tidy.creation (by simp [status])
      have parked : a.Parked w.policy s → s = .disabled ∧ a.core.stack ≠ [] := by
        rintro (⟨_, disabled, resting⟩ | ⟨running, _⟩)
        · obtain ⟨top, current, _⟩ := resting.current
          refine ⟨disabled, ?_⟩
          intro empty
          simp [empty] at current
        · simp [running] at status
      have enabled : ∀ disabled : s = .disabled,
          (w.controller.enable a.operation).status? (i + 1) = some .enabled := by
        rintro rfl
        rw [Controller.enable, Controller.status?_setStatus, hs, stands.operation]
        simp
      refine ⟨stands.operation, ?_, ?_⟩
      · cases stage with
        | pausing turn thread rest running =>
          exact ⟨.enabled, enabled (parked rest).1,
            .pausing turn thread (.inr ⟨rfl, rfl, (parked rest).2⟩) running⟩
        | resting thread rest running =>
          exact ⟨.enabled, enabled (parked rest).1,
            .resting thread (.inr ⟨rfl, rfl, (parked rest).2⟩) running⟩
        | fresh _ other | working _ _ _ other | halting _ _ other | retiring _ _ _ other
        | gone _ other => simp [other] at status
        | called _ _ other => rcases other with other | ⟨other, _⟩ <;> simp [other] at status
      · refine ⟨?_, fun _ => clear, fun _ => started, ?_⟩
        · intro halted
          cases halted
        intro halted
        have := stands.tidy.halted halted
        simp [this] at status

/-- A new actor waits for its first turn. -/
theorem addActor (h : Sound w) (id : ActorId) (descriptor : Descriptor) (event : Option Event)
    (rendezvous : Option Nat) : Sound (w.addActor id descriptor event rendezvous) := by
  unfold World.addActor
  refine of_spares (t := .sleeper 0) ?_ (.observe _ _) trivial
  have fresh : w.controller.nextId ∉ w.controller.operations.map (·.id) := by
    rw [h.ids, h.nextId]
    simp
  have status : ∀ op, op < w.actors.length + 1 →
      (w.controller.register id.name).2.status? op = w.controller.status? op := by
    intro op below
    rw [Controller.status?_register _ _ _ fresh, if_neg]
    rw [h.nextId]
    omega
  refine ⟨h.explores, ?_, ?_, ?_, ?_⟩
  · simp [h.ids, h.nextId, List.range_succ]
  · simp [h.nextId]
  · obtain ⟨s, hs, stage⟩ := h.driver
    exact ⟨s, (status 0 (by omega)).trans hs, stage⟩
  · intro i a found
    simp only [List.getElem?_append] at found
    split at found
    · next below =>
      have stands := h.actors i a found
      obtain ⟨s, hs, stage⟩ := stands.stage
      exact ⟨stands.operation, ⟨s, (status (i + 1) (by omega)).trans hs, stage⟩, stands.tidy⟩
    · next beyond =>
      have last : i = w.actors.length := by
        have := (List.getElem?_eq_some_iff.1 found).1
        simp only [List.length_singleton] at this
        omega
      subst last
      obtain rfl := Option.some.inj (by simpa using found)
      refine ⟨?_, ⟨.enabled, ?_, .fresh rfl rfl rfl rfl⟩, ?_⟩
      · simp [h.nextId]
      · show (w.controller.register id.name).2.status? (w.actors.length + 1) = some .enabled
        rw [Controller.status?_register _ _ _ fresh, if_pos h.nextId.symm]
      · refine ⟨fun _ => rfl, fun _ => rfl, fun e => absurd rfl e, ?_⟩
        intro e
        cases e

/-! ## Decisions -/

/-- The turn may be handed over by one who stands well afterwards. -/
theorem of_turn (h : Sound w) {op : Nat} (asks : w.operation? t = some op)
    (turn : w.controller.scheduled = op) {c : Controller σ}
    (mode : c.mode = w.controller.mode)
    (ids : c.operations.map (·.id) = w.controller.operations.map (·.id))
    (nextId : c.nextId = w.controller.nextId)
    (others : ∀ o, o ≠ op → c.status? o = w.controller.status? o) (thread : Thread)
    (own : Upright (World.setThread { w with controller := c } t thread) t) :
    Sound (World.setThread { w with controller := c } t thread) := by
  have length : (World.setThread { w with controller := c } t thread).actors.length =
      w.actors.length := by
    cases t <;> simp [World.setThread, World.modifyActor, World.modifySleeper]
  have controller : (World.setThread { w with controller := c } t thread).controller = c := by
    cases t <;> rfl
  have policy : (World.setThread { w with controller := c } t thread).policy = w.policy := by
    cases t <;> rfl
  refine ⟨?_, ?_, ?_, ?_, ?_⟩
  · rw [World.explores, controller, Controller.explores, mode]
    exact h.explores
  · rw [controller, ids, length, h.ids]
  · rw [controller, nextId, length, h.nextId]
  · by_cases ht : t = .driver
    · subst ht
      exact own
    · obtain ⟨s, hs, stage⟩ := h.driver
      have ne : 0 ≠ op := by
        rintro rfl
        cases t with
        | driver => exact ht rfl
        | sleeper j => cases asks
        | actor i =>
          obtain ⟨a, ha, e⟩ := Option.map_eq_some_iff.1 asks
          rw [(h.actors i a ha).operation] at e
          cases e
      refine ⟨s, by rw [controller, others 0 ne, hs], ?_⟩
      have same : (World.setThread { w with controller := c } t thread).test.thread =
          w.test.thread := by
        cases t with
        | driver => exact absurd rfl ht
        | actor i => rfl
        | sleeper j => rfl
      rw [same]
      exact stage.unheld (by rw [turn]; exact fun e => ne e.symm)
  · intro j a found
    by_cases ht : t = .actor j
    · subst ht
      exact own a found
    · have before : w.actors[j]? = some a := by
        rw [← found]
        cases t with
        | driver => rfl
        | sleeper k => rfl
        | actor i =>
          have ne : i ≠ j := fun e => ht (congrArg _ e)
          simp [World.setThread, World.modifyActor, ne]
      have stands := h.actors j a before
      obtain ⟨s, hs, stage⟩ := stands.stage
      have ne : j + 1 ≠ op := by
        rintro rfl
        cases t with
        | driver =>
          rw [World.operation?, if_pos h.explores] at asks
          cases asks
        | sleeper k => cases asks
        | actor i =>
          obtain ⟨b, hb, e⟩ := Option.map_eq_some_iff.1 asks
          rw [(h.actors i b hb).operation] at e
          exact ht (congrArg _ (Nat.succ.inj e))
      refine ⟨stands.operation, ⟨s, by rw [controller, others _ ne, hs], ?_⟩, stands.tidy⟩
      rw [policy]
      exact stage.unheld (by rw [turn]; exact fun e => ne e.symm)

end Sound

end SteeredActors
