import SteeredActors.Proofs.World.Due

/-!
# What a step does to one actor

An actor keeps what it has to answer for, or its own thread takes it one place further: from the
queue to the event that is dispatched, to those that are handled, and away when it comes to rest.
-/

set_option autoImplicit false
set_option relaxedAutoImplicit false

namespace SteeredActors

variable {σ : Type}

/-- An actor has everything that it had to answer for before. -/
structure Actor.Holds (a a' : Actor) : Prop where
  queue : ∀ x ∈ a.mailbox.queue, x ∈ a'.mailbox.queue
  pending : ∀ p ∈ a.pending, p ∈ a'.pending
  charges : ∀ c ∈ charges a.thread.tasks, c ∈ charges a'.thread.tasks

/-- An actor to whom others may have sent something. -/
structure Actor.Visited (a a' : Actor) : Prop where
  queue : ∀ x ∈ a.mailbox.queue, x ∈ a'.mailbox.queue
  pending : a'.pending = a.pending
  thread : a'.thread = a.thread

namespace Actor.Visited

variable {a b c : Actor}

theorem refl (a : Actor) : a.Visited a := ⟨fun _ h => h, rfl, rfl⟩

theorem trans (h : a.Visited b) (k : b.Visited c) : a.Visited c :=
  ⟨fun x hx => k.queue x (h.queue x hx), k.pending.trans h.pending, k.thread.trans h.thread⟩

theorem of_outer (same : b.outer = a.outer) : a.Visited b := by
  obtain ⟨mailbox, _, pending, _, _, thread⟩ := Actor.outer_inj same
  exact ⟨fun x hx => by rw [mailbox]; exact hx, pending, thread⟩

theorem holds (h : a.Visited b) : a.Holds b :=
  ⟨h.queue, fun p hp => by rw [h.pending]; exact hp, fun c hc => by rw [h.thread]; exact hc⟩

end Actor.Visited

/-- What a step does to the actor at a position. -/
inductive ActorStep (w w' : World σ) (i : Nat) (a a' : Actor) : Prop where
  /-- It keeps what it has to answer for. -/
  | holds (kept : a.Holds a')
      (plain : w.controller.scheduled = i + 1 → ∀ x, w.next? = some x → x.charge? = none)
  /-- Its stack handles an event. -/
  | handles {event : Event} {r : Option Nat} {handled : Bool}
      (turn : w.controller.scheduled = i + 1) (next : w.next? = some (.handle (.actor i) event r))
      (bound : handled = true ↔
        ∃ binding stack, resolveEvent event.type a.core.stack = .bound binding stack)
      (before : charges a.thread.tasks = r.toList.map (·, .inl event))
      (after : charges a'.thread.tasks = r.toList.map (·, .inr handled))
      (visited : a'.mailbox = a.mailbox ∧ a'.pending = a.pending)
  /-- It halts because no state of it handles an event. -/
  | halts {event : Event} {r : Option Nat} (turn : w.controller.scheduled = i + 1)
      (next : w.next? = some (.handle (.actor i) event r))
      (unbound : ∀ binding stack, resolveEvent event.type a.core.stack ≠ .bound binding stack)
      (before : charges a.thread.tasks = r.toList.map (·, .inl event))
      (after : charges a'.thread.tasks = r.toList.map (·, .inr false))
      (dues : SameDues (w.replyEach (a.owed.map (·, false))) w')
      (status : a'.mailbox.status = .halted)
  /-- An event that it has handled waits for its rest. -/
  | settles {r : Nat} {handled : Bool} (before : charges a.thread.tasks = [(r, .inr handled)])
      (mailbox : a'.mailbox = a.mailbox) (pending : a'.pending = a.pending ++ [(r, handled)])
  /-- It has halted while it handled an event. -/
  | closes {r : Nat} {handled : Bool} (before : charges a.thread.tasks = [(r, .inr handled)])
      (status : a.mailbox.status = .halted) (dues : SameDues (w.replyEach [(r, false)]) w')
  /-- It selects what to do next. -/
  | selects {taken discarded : List Envelope} (before : charges a.thread.tasks = [])
      (split : (taken ++ discarded ++ a'.mailbox.queue).Perm a.mailbox.queue)
      (after : ∀ x ∈ taken, ∀ r, x.rendezvous = some r →
        (r, .inl x.event) ∈ charges a'.thread.tasks)
      (pending : a'.pending = a.pending)
      (dues : SameDues (w.replyEach ((discarded.filterMap (·.rendezvous)).map (·, false))) w')
  /-- It comes to rest. -/
  | idles {discarded : List Envelope} (before : charges a.thread.tasks = [])
      (split : (discarded ++ a'.mailbox.queue).Perm a.mailbox.queue)
      (dues : SameDues
        (w.replyEach ((discarded.filterMap (·.rendezvous)).map (·, false) ++ a.pending)) w')
      (status : a'.mailbox.status = .idle)

namespace World

variable {w w₁ : World σ} {t : ThreadId} {i : Nat} {a : Actor}

/-! ## Visits -/

private theorem visited_of_actors (same : w₁.actors = w.actors) (found : w.actors[i]? = some a) :
    ∃ b, w₁.actors[i]? = some b ∧ a.Visited b := ⟨a, by rw [same, found], .refl a⟩

private theorem visited_of_frame (frame : Frame t w w₁) (found : w.actors[i]? = some a) :
    ∃ b, w₁.actors[i]? = some b ∧ a.Visited b := by
  obtain ⟨b, there, same⟩ := frame.actor found
  exact ⟨b, there, .of_outer same⟩

private theorem visited_enqueue (k : Nat) (envelope : Envelope) (found : w.actors[i]? = some a) :
    ∃ b, (w.enqueue k envelope).actors[i]? = some b ∧ a.Visited b := by
  unfold enqueue
  cases there : w.actors[k]? with
  | none => exact ⟨a, found, .refl a⟩
  | some c =>
    -- The queue only grows.
    have grows : ∀ x ∈ c.mailbox.queue, x ∈ (c.mailbox.enqueue envelope).2.queue := by
      intro x hx
      unfold Mailbox.enqueue
      split <;> simp [hx]
    have visited : ∃ b, (w.modifyActor k fun a =>
        { a with mailbox := (c.mailbox.enqueue envelope).2 }).actors[i]? = some b ∧
          a.Visited b := by
      by_cases e : i = k
      · subst e
        obtain rfl := Option.some.inj (found.symm.trans there)
        exact ⟨_, getElem?_modifyActor _ found, grows, rfl, rfl⟩
      · have ne : k ≠ i := fun h => e h.symm
        exact ⟨a, by simpa [modifyActor, ne] using found, .refl a⟩
    obtain ⟨b, hb, visit⟩ := visited
    refine ⟨b, ?_, visit⟩
    simp only
    split
    · rw [(Relieves.discard _ _).actors]
      exact hb
    · exact hb
    · exact hb

private theorem visited_addActor (id : ActorId) (descriptor : Descriptor) (event : Option Event)
    (rendezvous : Option Nat) (found : w.actors[i]? = some a) :
    ∃ b, (w.addActor id descriptor event rendezvous).actors[i]? = some b ∧ a.Visited b := by
  have actors : ∀ (w : World σ) event, (w.observe event).actors = w.actors := by
    intro w event
    unfold observe
    split <;> rfl
  refine ⟨a, ?_, .refl a⟩
  simp only [addActor, actors]
  rw [List.getElem?_append_left (List.getElem?_eq_some_iff.1 found).1]
  exact found

private theorem actors_blockCaller (w : World σ) (caller : Option Nat) :
    (w.blockCaller caller).actors = w.actors := by
  unfold blockCaller
  cases caller with
  | none => rfl
  | some op =>
    simp only
    split <;> rfl

/-- A thread goes on with tasks on which the same replies depend. -/
private theorem holds_setThread {old new : Thread} (found : w.actors[i]? = some a)
    (visit : ∃ b, w₁.actors[i]? = some b ∧ a.Visited b) (thread : w.thread? t = some old)
    (same : charges new.tasks = charges old.tasks) :
    ∃ a', (w₁.setThread t new).actors[i]? = some a' ∧ a.Holds a' := by
  obtain ⟨b, there, visit⟩ := visit
  by_cases own : t = .actor i
  · subst own
    have mine : a.thread = old := by simpa [thread?, found] using thread
    refine ⟨_, getElem?_setThread there new, visit.queue, fun p hp => ?_, fun c hc => ?_⟩
    · rw [← visit.pending] at hp
      exact hp
    · rw [mine, ← same] at hc
      exact hc
  · refine ⟨b, ?_, visit.holds⟩
    cases t with
    | driver => exact there
    | sleeper j => exact there
    | actor k =>
      have ne : k ≠ i := fun e => own (by rw [e])
      simpa [setThread, modifyActor, ne] using there

end World

namespace Sound

variable {w w₁ w' : World σ} {t : ThreadId} {i k : Nat} {a : Actor}

/-- What an actor does leaves the others alone. -/
private theorem untouched (spares : Spares (.actor k) w w') (turn : w.controller.scheduled = k + 1)
    (other : k ≠ i) (found : w.actors[i]? = some a) :
    ∃ a', w'.actors[i]? = some a' ∧ ActorStep w w' i a a' := by
  refine ⟨a, ?_, .holds (Actor.Visited.refl a).holds fun turn' => ?_⟩
  · rw [spares.others i (by simpa using other)]
    exact found
  · omega

private theorem thread_of_found (found : w.actors[i]? = some a) {thread : Thread}
    (there : w.thread? (.actor i) = some thread) : a.thread = thread := by
  simpa [World.thread?, found] using there

/-- An event is handled by an actor whose stack changes. -/
private theorem actorStep_handles (handled : Bool) (turn : w.controller.scheduled = k + 1)
    {event : Event} {r : Option Nat} {tasks : List Task} {stack : List ActiveState}
    (thread : w.thread? (.actor k) = some ⟨[.handle (.actor k) event r, .cycle k], false⟩)
    (found : w.actors[i]? = some a)
    (bound : k = i → (handled = true ↔
      ∃ binding stack, resolveEvent event.type a.core.stack = .bound binding stack))
    (after : charges tasks = r.toList.map (·, .inr handled)) :
    ∃ a', ((w.setStack (.actor k) stack).setThread (.actor k) ⟨tasks, false⟩).actors[i]? = some a' ∧
      ActorStep w ((w.setStack (.actor k) stack).setThread (.actor k) ⟨tasks, false⟩) i a a' := by
  by_cases own : k = i
  · subst own
    have there : (w.setStack (.actor k) stack).actors[k]? =
        some { a with core := { a.core with stack } } := World.getElem?_modifyActor _ found
    refine ⟨_, World.getElem?_setThread there _, .handles turn (World.next?_of_own turn thread)
      (bound rfl) ?_ after ⟨rfl, rfl⟩⟩
    rw [thread_of_found found thread]
    cases r <;> rfl
  · exact untouched ((Spares.of_frame (.setStack w k stack)).trans (.setThread _ _ _)) turn own found

private theorem actorStep_halts (turn : w.controller.scheduled = k + 1) {event : Event}
    {r : Option Nat} {core : Core}
    (thread : w.thread? (.actor k) = some ⟨[.handle (.actor k) event r, .cycle k], false⟩)
    (there : w.core? (.actor k) = some core) (running : core.halted = false)
    (resolved : resolveEvent event.type core.stack = .exhausted) (found : w.actors[i]? = some a) :
    ∃ a', (((w.setStack (.actor k) []).halt (.actor k)).setThread (.actor k)
        ⟨World.settlement (.actor k) r false ++ [.cycle k], false⟩).actors[i]? = some a' ∧
      ActorStep w (((w.setStack (.actor k) []).halt (.actor k)).setThread (.actor k)
        ⟨World.settlement (.actor k) r false ++ [.cycle k], false⟩) i a a' := by
  by_cases own : k = i
  · subst own
    have same : a.core = core := by simpa [World.core?, found] using there
    subst same
    have found₁ : (w.setStack (.actor k) []).actors[k]? =
        some { a with core := { a.core with stack := [] } } := World.getElem?_modifyActor _ found
    rw [World.halt_eq (w := w.setStack (.actor k) []) found₁ running, World.replyAll_eq]
    have actors : ∀ (w : World σ) event, (w.observe event).actors = w.actors := by
      intro w event
      unfold World.observe
      split <;> rfl
    have stopped := World.getElem?_modifyActor Actor.stopped found₁
    rw [← (Relieves.replyEach _ ((Actor.owed { a with core := { a.core with stack := [] } }).map
      (·, false))).actors, ← actors _ (.destroyed a.core.id)] at stopped
    refine ⟨_, World.getElem?_setThread stopped _, .halts turn (World.next?_of_own turn thread) ?_ ?_
      (charges_settlement k r false) ?_ rfl⟩
    · intro binding stack bound
      rw [resolved] at bound
      cases bound
    · rw [thread_of_found found thread]
      cases r <;> rfl
    · refine SameDues.trans (SameDues.trans (SameDues.replyEach ?_ _) (.observe _ _))
        (.setThread _ _ _)
      exact (SameDues.modifyActor w k _).trans (.modifyActor _ k _)
  · exact untouched (((Spares.of_frame (.setStack w k [])).trans (.halt _ k)).trans
      (.setThread _ _ _)) turn own found

private theorem actorStep_settles (h : Sound w) (turn : w.controller.scheduled = k + 1) {r : Nat}
    {handled : Bool} {b : Actor}
    (thread : w.thread? (.actor k) = some ⟨[.settle k r handled, .cycle k], false⟩)
    (there : w.actors[k]? = some b) (found : w.actors[i]? = some a) :
    ∃ a', ((if b.core.halted then w.reply r false
        else w.modifyActor k fun a => { a with pending := a.pending ++ [(r, handled)] }).setThread
          (.actor k) ⟨[.cycle k], false⟩).actors[i]? = some a' ∧
      ActorStep w ((if b.core.halted then w.reply r false
        else w.modifyActor k fun a => { a with pending := a.pending ++ [(r, handled)] }).setThread
          (.actor k) ⟨[.cycle k], false⟩) i a a' := by
  by_cases own : k = i
  · subst own
    obtain rfl := Option.some.inj (there.symm.trans found)
    have before : charges b.thread.tasks = [(r, .inr handled)] := by
      rw [thread_of_found found thread]
      rfl
    split
    · next halted =>
      refine ⟨_, World.getElem?_setThread (a := b) ?_ _, .closes before
        ((h.actors k b found).tidy.halted halted) (.setThread _ _ _)⟩
      rw [(Relieves.reply w r false).actors]
      exact found
    · exact ⟨_, World.getElem?_setThread (World.getElem?_modifyActor _ found) _,
        .settles before rfl rfl⟩
  · refine untouched (Spares.trans ?_ (.setThread _ _ _)) turn own found
    split
    · exact .of_relieves (.reply w r false)
    · exact .modifyActor w k fun _ => rfl

private theorem actorStep_selects (taken : List Envelope) (turn : w.controller.scheduled = k + 1)
    {b : Actor} {discarded : List Envelope} {mailbox : Mailbox} {tasks : List Task}
    (thread : w.thread? (.actor k) = some ⟨[.cycle k], false⟩) (there : w.actors[k]? = some b)
    (split : (taken ++ discarded ++ mailbox.queue).Perm b.mailbox.queue)
    (after : ∀ x ∈ taken, ∀ r, x.rendezvous = some r → (r, .inl x.event) ∈ charges tasks)
    (found : w.actors[i]? = some a) :
    ∃ a', (((w.modifyActor k fun a => { a with mailbox }).discard discarded).setThread (.actor k)
        ⟨tasks, false⟩).actors[i]? = some a' ∧
      ActorStep w (((w.modifyActor k fun a => { a with mailbox }).discard discarded).setThread
        (.actor k) ⟨tasks, false⟩) i a a' := by
  have relieves := Relieves.discard (w.modifyActor k fun a => { a with mailbox }) discarded
  by_cases own : k = i
  · subst own
    obtain rfl := Option.some.inj (there.symm.trans found)
    have found₁ := World.getElem?_modifyActor (fun a => { a with mailbox }) found
    rw [← relieves.actors] at found₁
    refine ⟨_, World.getElem?_setThread found₁ _, .selects ?_ split after rfl ?_⟩
    · rw [thread_of_found found thread]
      rfl
    · refine SameDues.trans ?_ (.setThread _ _ _)
      rw [World.discard, World.replyAll_eq]
      exact SameDues.replyEach (.modifyActor w k _) _
  · exact untouched (((Spares.modifyActor w k (f := fun a => { a with mailbox }) fun _ => rfl).trans
      (.of_relieves relieves)).trans (.setThread _ _ _)) turn own found

private theorem actorStep_idles (turn : w.controller.scheduled = k + 1) {b : Actor}
    {discarded : List Envelope} {mailbox : Mailbox}
    (thread : w.thread? (.actor k) = some ⟨[.cycle k], false⟩) (there : w.actors[k]? = some b)
    (split : (discarded ++ mailbox.queue).Perm b.mailbox.queue) (status : mailbox.status = .idle)
    (found : w.actors[i]? = some a) :
    ∃ a', ((((w.idled k b mailbox).discard discarded).rested k b).setThread (.actor k)
        ⟨[.pass .yield, .rest k], false⟩).actors[i]? = some a' ∧
      ActorStep w ((((w.idled k b mailbox).discard discarded).rested k b).setThread (.actor k)
        ⟨[.pass .yield, .rest k], false⟩) i a a' := by
  have relieves := (Relieves.discard (w.idled k b mailbox) discarded).trans (.replyEach _ b.pending)
  by_cases own : k = i
  · subst own
    obtain rfl := Option.some.inj (there.symm.trans found)
    have found₁ : (w.idled k b mailbox).actors[k]? = some { b with mailbox } :=
      World.getElem?_modifyActor (fun a => { a with mailbox }) found
    rw [← relieves.actors] at found₁
    refine ⟨_, World.getElem?_setThread (World.getElem?_modifyActor
      (fun a => { a with pending := [] }) found₁) _, .idles ?_ split ?_ status⟩
    · rw [thread_of_found found thread]
      rfl
    · refine SameDues.trans ?_ (.setThread _ _ _)
      refine SameDues.trans ?_ (.modifyActor _ k _)
      rw [World.replyEach_append]
      refine SameDues.replyEach ?_ b.pending
      rw [World.discard, World.replyAll_eq]
      refine SameDues.replyEach ?_ _
      refine (SameDues.modifyActor w k fun a => { a with mailbox }).trans ?_
      exact .setStatus (w.modifyActor k fun a => { a with mailbox }) (.inl (by simp)) (by simp)
  · have idled : Spares (.actor k) w (w.idled k b mailbox) := by
      refine (Spares.modifyActor w k (f := fun a => { a with mailbox }) fun _ => rfl).trans
        (.setStatus _ ?_ [.enabled] .disabled)
      simp [World.operation?, World.modifyActor, there]
    exact untouched (((idled.trans (.of_relieves relieves)).trans
      (.modifyActor _ k (f := fun a => { a with pending := [] }) fun _ => rfl)).trans
      (.setThread _ _ _)) turn own found

/-- What a step of an honest run does to an actor. -/
theorem actorStep [Strategy σ] (h : Sound w) (faithful : ∀ x, w.next? = some x → ¬x.Feigns)
    (step : Transition (World.threadOf w.controller.scheduled) w w')
    (found : w.actors[i]? = some a) :
    ∃ a', w'.actors[i]? = some a' ∧ ActorStep w w' i a a' := by
  have turn_of : ∀ k, World.threadOf w.controller.scheduled = .actor k →
      w.controller.scheduled = k + 1 := by
    intro k e
    cases hs : w.controller.scheduled with
    | zero => simp [hs, World.threadOf] at e
    | succ j => simpa [hs, World.threadOf] using e
  have first : ∀ {x rest outside},
      w.thread? (World.threadOf w.controller.scheduled) = some ⟨x :: rest, outside⟩ →
        w.next? = some x := fun thread => World.next?_of_thread thread
  generalize ht : World.threadOf w.controller.scheduled = t at step first
  -- A thread goes on, and what its actor has to answer for stays.
  have goesOn : ∀ {w₁ : World σ} {x : Task} {rest : List Task} {outside : Bool} {new : Thread},
      (∃ b, w₁.actors[i]? = some b ∧ a.Visited b) → w.thread? t = some ⟨x :: rest, outside⟩ →
      charges new.tasks = charges (x :: rest) → x.charge? = none →
        ∃ a', (w₁.setThread t new).actors[i]? = some a' ∧
          ActorStep w (w₁.setThread t new) i a a' := by
    intro w₁ x rest outside new visit thread same plain
    obtain ⟨a', there, kept⟩ := World.holds_setThread found visit thread same
    refine ⟨a', there, .holds kept fun _ y next => ?_⟩
    obtain rfl := Option.some.inj ((first thread).symm.trans next)
    exact plain
  cases step with
  | works thread works busy still works' continues plain =>
    exact goesOn (World.visited_of_frame still.toFrame found) thread continues.charges plain
  | shifts mine there thread works busy works' grounded same collects plain =>
    subst mine
    exact goesOn (World.visited_of_frame (.setStack w _ _) found) thread same plain
  | ends mine thread still =>
    exact goesOn (World.visited_of_frame still.toFrame found) thread rfl rfl
  | unwinds mine thread works feigns => exact absurd feigns (faithful _ (first thread))
  | posts thread => exact goesOn (World.visited_enqueue _ _ found) thread rfl rfl
  | engages thread =>
    refine goesOn (World.visited_enqueue _ _ ?_) thread rfl rfl
    rw [World.actors_blockCaller]
    exact found
  | creates id descriptor event _ thread works busy still works' continues plain =>
    obtain ⟨b, there, visit⟩ := World.visited_of_frame still.toFrame found
    obtain ⟨c, there', visit'⟩ := World.visited_addActor id descriptor event none there
    exact goesOn ⟨c, there', visit.trans visit'⟩ thread continues.charges plain
  | @createsAndWaits w₁ op x tasks tasks' id descriptor event thread works busy request asks still
      works' continues =>
    obtain ⟨b, there, visit⟩ := World.visited_of_frame still.toFrame found
    have opened : (w₁.openRendezvous (some op)).2.actors[i]? = some b := there
    obtain ⟨c, there', visit'⟩ :=
      World.visited_addActor id descriptor event (some w₁.rendezvous.length) opened
    obtain ⟨_, _, _, _, rfl⟩ := request
    refine goesOn ⟨c, ?_, visit.trans visit'⟩ thread continues.charges rfl
    rw [World.actors_blockCaller]
    exact there'
  | passes thread => exact goesOn (World.visited_of_actors rfl found) thread rfl rfl
  | settles mine thread there =>
    subst mine
    exact h.actorStep_settles (turn_of _ ht) thread there found
  | ignores mine thread there resolved =>
    subst mine
    refine actorStep_handles false (turn_of _ ht) thread found ?_ (charges_settlement _ _ _)
    rintro rfl
    obtain rfl := Option.some.inj ((congrArg (Option.map Actor.core) found).symm.trans there)
    simp [resolved]
  | consumes mine thread there resolved =>
    subst mine
    refine actorStep_handles true (turn_of _ ht) thread found ?_ ?_
    · rintro rfl
      obtain rfl := Option.some.inj ((congrArg (Option.map Actor.core) found).symm.trans there)
      simp [resolved]
    · rw [List.append_assoc, charges_consumption, charges_settlement]
  | halts mine thread there resolved =>
    subst mine
    obtain ⟨b, work⟩ := h.atWork_of_busy thread (.handle rfl _ _) rfl
    refine actorStep_halts (turn_of _ ht) thread there ?_ resolved found
    obtain rfl := Option.some.inj ((congrArg (Option.map Actor.core) work.found).symm.trans there)
    exact work.running
  | leaves mine thread own =>
    refine goesOn (World.visited_of_actors rfl found) thread ?_ ?_ <;>
      rcases own with rfl | rfl <;> rfl
  | @obeys k core d mine thread there running raised =>
    subst mine
    refine goesOn (World.visited_of_frame (.modifyActor w k (by exact fun _ => rfl)) found) thread
      ?_ rfl
    exact List.map_eq_nil_iff.1 (carried_obedience k core d)
  | @selects k b top envelope discarded mailbox mine thread there running quiet current dequeued =>
    subst mine
    refine actorStep_selects [envelope] (turn_of _ ht) thread there ?_ ?_ found
    · exact (Mailbox.dequeue_event dequeued).2.symm
    · intro x mem r waits
      obtain rfl := List.mem_singleton.1 mem
      rw [waits]
      exact List.mem_cons_self
  | @defaults k b top discarded mailbox mine thread there running quiet current dequeued =>
    subst mine
    exact actorStep_selects [] (turn_of _ ht) thread there
      (Mailbox.dequeue_default dequeued).2.1.symm (by simp) found
  | @idles k b top discarded mailbox mine thread there running quiet current dequeued =>
    subst mine
    obtain ⟨status, queue, _⟩ := Mailbox.dequeue_idle dequeued
    exact actorStep_idles (turn_of _ ht) thread there queue.symm status found
  | starves mine thread there running quiet empty =>
    subst mine
    have work := h.atWork_of_cycle thread there running
    have positive : 0 < _ := work.grounded
    simp [empty] at positive
  | rises mine thread own =>
    refine goesOn (World.visited_of_actors rfl found) thread ?_ ?_ <;>
      rcases own with rfl | rfl <;> rfl
  | @starts k b mine thread there running first =>
    subst mine
    by_cases own : k = i
    · subst own
      obtain rfl := Option.some.inj (there.symm.trans found)
      refine ⟨_, World.getElem?_setThread (World.getElem?_modifyActor _ found) _,
        .holds ⟨?_, ?_, ?_⟩ ?_⟩
      · intro x hx
        simp only [queue_start]
        exact hx
      · intro p hp
        exact List.mem_append_left _ hp
      · intro c hc
        rw [thread_of_found found thread] at hc
        cases hc
      · intro turn x next
        obtain rfl := Option.some.inj ((World.next?_of_own turn thread).symm.trans next)
        rfl
    · exact untouched ((Spares.modifyActor w k (by exact fun _ => rfl)).trans (.setThread _ _ _))
        (turn_of _ ht) own found
  | @resumes k b mine thread there running again =>
    subst mine
    by_cases own : k = i
    · subst own
      obtain rfl := Option.some.inj (there.symm.trans found)
      refine ⟨_, World.getElem?_setThread (World.getElem?_modifyActor _ found) _,
        .holds ⟨?_, fun p hp => hp, ?_⟩ ?_⟩
      · intro x hx
        simp only [queue_start]
        exact hx
      · intro c hc
        rw [thread_of_found found thread] at hc
        cases hc
      · intro turn x next
        obtain rfl := Option.some.inj ((World.next?_of_own turn thread).symm.trans next)
        rfl
    · exact untouched ((Spares.modifyActor w k (by exact fun _ => rfl)).trans (.setThread _ _ _))
        (turn_of _ ht) own found
  | retires thread => exact goesOn (World.visited_of_actors rfl found) thread rfl rfl

end Sound

end SteeredActors
