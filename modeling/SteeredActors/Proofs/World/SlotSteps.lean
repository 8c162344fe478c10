import SteeredActors.Proofs.World.Slots

/-!
# What a step does to replies

Every transition of an explored run keeps the replies that are due, makes a new one due, or gives
those of one actor, which then is at rest unless it discards events on the way to another one.
-/

set_option autoImplicit false
set_option relaxedAutoImplicit false

namespace SteeredActors

variable {σ : Type}

/-! ## Tasks on which replies depend -/

theorem carried_handle (i : Nat) (event : Event) (r : Option Nat) :
    carried [.handle (.actor i) event r, .cycle i] = r.toList := by
  cases r <;> rfl

theorem charges_settlement (i : Nat) (r : Option Nat) (handled : Bool) :
    charges (World.settlement (.actor i) r handled ++ [.cycle i]) =
      r.toList.map (·, .inr handled) := by
  cases r <;> rfl

theorem carried_settlement (i : Nat) (r : Option Nat) (handled : Bool) :
    carried (World.settlement (.actor i) r handled ++ [.cycle i]) = r.toList := by
  cases r <;> rfl

theorem charges_consumption (i : Nat) (core : Core) (event : Event) (binding : Binding)
    (rest : List Task) :
    charges (World.consumption (.actor i) core event binding ++ rest) = charges rest := by
  have mine : (Subject.actor i).OwnedBy (ThreadId.actor i).own? false := ⟨rfl, rfl⟩
  have fits : ∀ x ∈ World.consumption (.actor i) core event binding, x.Fits _ false _ :=
    fun x hx => (World.fits_consumption mine core event binding x hx).1
  exact charges_append_of_fits fits rest

theorem carried_consumption (i : Nat) (core : Core) (event : Event) (binding : Binding)
    (rest : List Task) :
    carried (World.consumption (.actor i) core event binding ++ rest) = carried rest := by
  rw [carried, charges_consumption, carried]

theorem carried_obedience (i : Nat) (core : Core) (d : Demand) :
    carried (World.obedience (.actor i) core d ++ [.cycle i]) = [] := by
  cases d with
  | event e => rfl
  | push target => rfl
  | pop => rfl
  | goto target =>
    have mine : (Subject.actor i).OwnedBy (ThreadId.actor i).own? false := ⟨rfl, rfl⟩
    have fits : ∀ x ∈ World.leaving (.actor i) core none, x.Fits _ false _ :=
      fun x hx => (World.fits_leaving mine core none x hx).1
    rw [World.obedience, List.append_assoc, carried, charges_append_of_fits fits]
    rfl

namespace SlotStep

variable {w w₁ w' : World σ} {i : Nat} {a : Actor}

private theorem modifyActor {f : Actor → Actor} {old new : Thread}
    (found : w.actors[i]? = some a) (thread : w.thread? (.actor i) = some old)
    (slots : ((f a).owed ++ carried new.tasks).Perm (a.owed ++ carried old.tasks)) :
    SlotStep w ((w.modifyActor i f).setThread (.actor i) new) := by
  refine .keeps ?_ ((SameDues.modifyActor w i f).trans (.setThread _ _ _))
  intro j
  by_cases e : j = i
  · subst e
    have same : a.thread = old := by simpa [World.thread?, found] using thread
    rw [World.slotsOf_setThread_self (World.getElem?_modifyActor f found),
      World.slotsOf_of_found found, Actor.slots, same]
    exact slots.symm
  · rw [World.slotsOf_setThread_ne _ (by simpa using fun h => e h.symm),
      w.slotsOf_modifyActor_ne e]

end SlotStep

namespace Sound

variable {w w₁ w' : World σ} {i : Nat} {a : Actor}

private theorem slotStep_posts {t : ThreadId} {event : Event} {tasks : List Task} {outside : Bool}
    (found : w.thread? t = some ⟨.post i event :: tasks, outside⟩) :
    SlotStep w ((w.enqueue i ⟨event, none⟩).setThread t ⟨tasks, outside⟩) := by
  have thread := (World.thread?_enqueue w t i ⟨event, none⟩).trans found
  have kept : ∀ j, (w.slotsOf j).Perm ((w.enqueue i ⟨event, none⟩).slotsOf j) ∧
      SameDues w (w.enqueue i ⟨event, none⟩) := by
    intro j
    cases there : w.actors[i]? with
    | none =>
      have same : w.enqueue i ⟨event, none⟩ = w := by simp [World.enqueue, there]
      rw [same]
      exact ⟨.refl _, .refl w⟩
    | some a =>
      obtain ⟨others, ⟨_, own, dues⟩ | ⟨_, same⟩⟩ := World.slots_enqueue there ⟨event, none⟩
      · refine ⟨?_, dues⟩
        by_cases e : j = i
        · subst e
          exact own.symm
        · exact others j e
      · rw [same]
        exact ⟨.refl _, .refl w⟩
  have set : ∀ j, ((w.enqueue i ⟨event, none⟩).setThread t ⟨tasks, outside⟩).slotsOf j =
      (w.enqueue i ⟨event, none⟩).slotsOf j := World.slotsOf_setThread thread rfl
  refine .keeps ?_ ((kept 0).2.trans (.setThread _ t _))
  intro j
  rw [set]
  exact (kept j).1

private theorem slotStep_engages {t : ThreadId} (h : Sound w)
    (ht : World.threadOf w.controller.scheduled = t)
    (enabled : w.controller.status? w.controller.scheduled = some .enabled) {event : Event}
    {tasks : List Task}
    (found : w.thread? t = some ⟨.engage i event :: tasks, false⟩) (there : i < w.actors.length) :
    SlotStep w
      ((((w.openRendezvous (some w.controller.scheduled)).2.blockCaller
        (some w.controller.scheduled)).enqueue i ⟨event, some w.rendezvous.length⟩).setThread t
        ⟨.pass .rendezvous :: .turn :: .collect w.rendezvous.length :: tasks, false⟩) := by
  generalize ho : w.controller.scheduled = op at *
  generalize hr : w.rendezvous.length = r at *
  have opened : Opens op w ((w.openRendezvous (some op)).2.blockCaller (some op)) := by
    refine .blockCaller h.explores enabled ?_ fun o => Iff.rfl
    simp [World.openRendezvous, h.explores]
  have target : w.Targets i := by
    rw [← ho] at ht
    exact .inl ⟨event, World.next?_of_turn ht found⟩
  generalize hw : (w.openRendezvous (some op)).2.blockCaller (some op) = w₁ at opened ⊢
  have actors : w₁.actors = w.actors := by
    rw [← hw]
    unfold World.blockCaller
    simp only
    split <;> rfl
  have thread₁ : w₁.thread? t = some ⟨.engage i event :: tasks, false⟩ := by
    rw [← hw]
    exact (World.thread?_blockCaller _ t _).trans found
  have thread := (World.thread?_enqueue w₁ t i ⟨event, some r⟩).trans thread₁
  have found₁ : w₁.actors[i]? = some w.actors[i] := by
    rw [actors]
    exact List.getElem?_eq_getElem there
  have same : ∀ j, w₁.slotsOf j = w.slotsOf j := World.slotsOf_of_actors actors
  have set : ∀ j, ((w₁.enqueue i ⟨event, some r⟩).setThread t
      ⟨.pass .rendezvous :: .turn :: .collect r :: tasks, false⟩).slotsOf j =
      (w₁.enqueue i ⟨event, some r⟩).slotsOf j :=
    World.slotsOf_setThread thread rfl
  obtain ⟨others, ⟨_, own, dues⟩ | ⟨halted, dropped⟩⟩ :=
    World.slots_enqueue found₁ ⟨event, some r⟩
  · refine .opens ho.symm enabled target ?_ ?_ ((opened.trans dues).trans (.setThread _ t _))
    · intro j other
      rw [set, ← same]
      exact others j other
    · rw [set, ← same, hr]
      exact own
  · have dropped₁ : (w₁.enqueue i ⟨event, some r⟩).actors = w₁.actors := by
      rw [dropped]
      exact (Relieves.replyEach w₁ _).actors
    refine .refused ho.symm enabled target ?_ opened ?_
      (World.getElem?_setThread_or (by rw [dropped₁, found₁]) t _) halted
    · intro j
      rw [set, ← same, World.slotsOf_of_actors dropped₁]
    · rw [dropped, hr]
      exact .setThread _ t _

private theorem slotStep_createsAndWaits {t : ThreadId} (h : Sound w)
    (ht : World.threadOf w.controller.scheduled = t)
    (enabled : w.controller.status? w.controller.scheduled = some .enabled) {x : Task}
    {tasks tasks' : List Task}
    (request : ∃ speaker voice request next, x = .perform speaker (.ask voice request next))
    (id : ActorId) (descriptor : Descriptor) (event : Option Event)
    (found : w.thread? t = some ⟨x :: tasks, false⟩) (still : Still t w w₁)
    (same : carried tasks' = carried (x :: tasks)) :
    SlotStep w
      ((((w₁.openRendezvous (some w.controller.scheduled)).2.addActor id descriptor event
        (some w₁.rendezvous.length)).blockCaller (some w.controller.scheduled)).setThread t
        ⟨tasks', false⟩) := by
  have known : ∀ j, t ≠ .sleeper j := by
    subst ht
    exact World.threadOf_ne_sleeper _
  generalize ho : w.controller.scheduled = op at *
  rw [still.rendezvous]
  generalize hr : w.rendezvous.length = r at *
  have explores₁ : w₁.explores = true := still.explores.trans h.explores
  have target : w.Targets w.actors.length := by
    obtain ⟨speaker, voice, request, next, rfl⟩ := request
    rw [← ho] at ht
    exact .inr ⟨rfl, speaker, voice, request, next, World.next?_of_turn ht found⟩
  -- The new operation has work, so it is neither blocked nor the one that is.
  have fresh : w₁.controller.nextId ∉ w₁.controller.operations.map (·.id) := by
    rw [still.controller.nextId, still.controller.operations, h.nextId, h.ids]
    simp
  generalize hw₂ : (w₁.openRendezvous (some op)).2 = w₂
  have controller₂ : w₂.controller = w₁.controller := by rw [← hw₂]; rfl
  have statuses : ∀ o, (w₂.addActor id descriptor event (some r)).controller.status? o =
      if o = w₁.controller.nextId then some .enabled else w.controller.status? o := by
    intro o
    simp only [World.addActor, World.controller_observe, controller₂]
    rw [Controller.status?_register _ _ _ fresh, still.controller.status?]
  have unknown : w.controller.status? w₁.controller.nextId = none := by
    rw [← still.controller.status?]
    exact (Controller.status?_eq_none_iff _ _).2 fresh
  have dues : Opens op w ((w₂.addActor id descriptor event (some r)).blockCaller (some op)) := by
    refine .blockCaller ?_ ?_ ?_ ?_
    · rw [World.explores_addActor, ← hw₂]
      exact explores₁
    · rw [statuses]
      split
      · rfl
      · exact enabled
    · have kept : (w₂.addActor id descriptor event (some r)).rendezvous = w₂.rendezvous := by
        unfold World.addActor World.observe
        simp only
        split <;> rfl
      rw [kept, ← hw₂]
      simp [World.openRendezvous, explores₁, still.rendezvous]
    · intro o
      rw [statuses]
      split
      · next e => simp [e, unknown]
      · rfl
  have thread : ((w₂.addActor id descriptor event (some r)).blockCaller (some op)).thread? t =
      some ⟨x :: tasks, false⟩ := by
    rw [World.thread?_blockCaller]
    refine World.thread?_addActor _ ?_ id descriptor event _
    rw [← hw₂, World.thread?_openRendezvous, still.thread? known]
    exact found
  have blocked : ∀ w : World σ, (w.blockCaller (some op)).actors = w.actors := by
    intro w
    unfold World.blockCaller
    simp only
    split <;> rfl
  have set : ∀ j, (((w₂.addActor id descriptor event (some r)).blockCaller (some op)).setThread t
      ⟨tasks', false⟩).slotsOf j = if j = w.actors.length then [r] else w.slotsOf j := by
    intro j
    have actors₂ : w₂.actors = w₁.actors := by rw [← hw₂]; rfl
    rw [World.slotsOf_setThread thread same, World.slotsOf_of_actors (blocked _),
      World.slotsOf_addActor, actors₂, still.length_actors, World.slotsOf_of_actors actors₂,
      World.slotsOf_of_frame still.toFrame]
    rfl
  refine .opens ho.symm enabled target ?_ ?_ (dues.trans (.setThread _ t _))
  · intro j other
    rw [set, if_neg other]
  · have none : w.slotsOf w.actors.length = [] := by simp [World.slotsOf]
    rw [set, if_pos rfl, none, hr]

/-! ## Actors that give replies -/

private theorem slots_of_thread (found : w.actors[i]? = some a) {thread : Thread}
    (there : w.thread? (.actor i) = some thread) :
    w.slotsOf i = a.owed ++ carried thread.tasks := by
  have same : a.thread = thread := by simpa [World.thread?, found] using there
  rw [World.slotsOf_of_found found, Actor.slots, same]

/-- An actor changes and gives replies. -/
private theorem rests (turn : w.controller.scheduled = i + 1) {f : Actor → Actor}
    (given : List (Nat × Bool)) (lost : List Nat) {old new : Thread}
    (found : w.actors[i]? = some a) (there : w.thread? (.actor i) = some old)
    (actors : w₁.actors = (w.modifyActor i f).actors) (dues : SameDues (w.replyEach given) w₁)
    (own : (a.owed ++ carried old.tasks).Perm
      (given.map (·.1) ++ (lost ++ ((f a).owed ++ carried new.tasks))))
    (rest : (f a).mailbox.status = .idle ∨ (f a).mailbox.status = .halted)
    (faithful : lost = [] ∨ ∃ x, w.next? = some x ∧ x.Feigns) :
    SlotStep w (w₁.setThread (.actor i) new) := by
  have found₁ : w₁.actors[i]? = some (f a) := by
    rw [actors]
    exact World.getElem?_modifyActor f found
  refine .rests turn ?_ ?_ (dues.trans (.setThread w₁ _ _))
    (World.getElem?_setThread found₁ new) rest faithful
  · intro j other
    rw [World.slotsOf_setThread_ne _ (by simpa using fun h => other h.symm),
      World.slotsOf_of_actors actors, w.slotsOf_modifyActor_ne other]
  · rw [slots_of_thread found there, World.slotsOf_setThread_self found₁]
    exact own

private theorem slotStep_settles (h : Sound w) (turn : w.controller.scheduled = i + 1) {r : Nat}
    {handled : Bool}
    (thread : w.thread? (.actor i) = some ⟨[.settle i r handled, .cycle i], false⟩)
    (found : w.actors[i]? = some a) :
    SlotStep w
      ((if a.core.halted then w.reply r false
        else w.modifyActor i fun a => { a with pending := a.pending ++ [(r, handled)] }).setThread
        (.actor i) ⟨[.cycle i], false⟩) := by
  split
  · next halted =>
    have status := (h.actors i a found).tidy.halted halted
    refine rests turn (f := id) [(r, false)] [] found thread ?_ (.refl _) ?_ (.inr status)
      (.inl rfl)
    · rw [World.modifyActor_self found rfl]
      exact (Relieves.reply w r false).actors
    · simp [carried, charges, Task.charge?]
  · refine SlotStep.modifyActor found thread ?_
    simp [Actor.owed, carried, charges, Task.charge?]

private theorem slotStep_halts (turn : w.controller.scheduled = i + 1) {event : Event}
    {r : Option Nat}
    (thread : w.thread? (.actor i) = some ⟨[.handle (.actor i) event r, .cycle i], false⟩)
    (found : w.actors[i]? = some a) (running : a.core.halted = false) :
    SlotStep w (((w.setStack (.actor i) []).halt (.actor i)).setThread (.actor i)
      ⟨World.settlement (.actor i) r false ++ [.cycle i], false⟩) := by
  have found₁ := World.getElem?_modifyActor (fun a => { a with core := { a.core with stack := [] } })
    found
  have halted := World.halt_eq (w := w.setStack (.actor i) []) found₁ running
  rw [halted, World.replyAll_eq]
  have observed : ∀ (w : World σ) event, (w.observe event).actors = w.actors := by
    intro w event
    unfold World.observe
    split <;> rfl
  refine rests turn (f := fun a => Actor.stopped { a with core := { a.core with stack := [] } })
    (a.owed.map (·, false)) [] found thread ?_ ?_ ?_ (.inr rfl) (.inl rfl)
  · rw [observed]
    refine (Relieves.replyEach _ _).actors.trans ?_
    simp only [World.setStack, World.modifyCore, World.modifyActor, List.modify_modify_eq]
    rfl
  · refine SameDues.trans (SameDues.replyEach ?_ _) (.observe _ _)
    exact (SameDues.modifyActor w i _).trans (.modifyActor _ i _)
  · simp only [List.map_map, Function.comp_def, List.map_id', List.nil_append]
    rw [carried_handle, carried_settlement]
    exact .refl _

private theorem slotStep_unwinds (h : Sound w) (turn : w.controller.scheduled = i + 1) {x : Task}
    {tasks : List Task} {outside : Bool}
    (thread : w.thread? (.actor i) = some ⟨x :: tasks, outside⟩)
    (works : Working (some i) outside (x :: tasks)) (busy : x.busy = true) (feigns : x.Feigns)
    (still : Still (.actor i) w w₁) :
    SlotStep w ((w₁.abandon i).setThread (.actor i) ⟨[.retire .yield], false⟩) := by
  obtain ⟨a, work⟩ := h.atWork_of_busy thread works busy
  obtain ⟨b, there, same⟩ := still.actor work.found
  have owed : b.owed = a.owed := by
    have inner : ∀ a : Actor, a.outer.owed = a.owed := fun _ => rfl
    rw [← inner, same, inner]
  have next : w.next? = some x := World.next?_of_own turn thread
  have there₁ := World.getElem?_modifyActor Actor.emptied there
  rw [World.abandon_eq there, owed, World.replyAll_eq]
  have actors : ((w₁.modifyActor i Actor.emptied).replyEach (a.owed.map (·, false))).actors =
      (w₁.modifyActor i Actor.emptied).actors := (Relieves.replyEach _ _).actors
  have dues : SameDues (w.replyEach (a.owed.map (·, false)))
      (((w₁.modifyActor i Actor.emptied).replyEach (a.owed.map (·, false))).setThread (.actor i)
        ⟨[.retire .yield], false⟩) := by
    refine SameDues.trans (SameDues.replyEach ?_ _) (.setThread _ _ _)
    exact (SameDues.of_frame still.toFrame).trans (.modifyActor w₁ i _)
  have own : (w.slotsOf i).Perm ((a.owed.map (·, false)).map (·.1) ++ (carried (x :: tasks) ++
      (World.setThread ((w₁.modifyActor i Actor.emptied).replyEach (a.owed.map (·, false)))
        (.actor i) ⟨[.retire .yield], false⟩).slotsOf i)) := by
    have none : (World.setThread ((w₁.modifyActor i Actor.emptied).replyEach (a.owed.map (·, false)))
        (.actor i) ⟨[.retire .yield], false⟩).slotsOf i = [] := by
      rw [World.slotsOf_setThread_self (by rw [actors]; exact there₁)]
      rfl
    rw [slots_of_thread work.found thread, none]
    simp [Function.comp_def]
  refine .rests turn ?_ own dues (World.getElem?_setThread (by rw [actors]; exact there₁) _)
    (.inr rfl) (.inr ⟨x, next, feigns⟩)
  · intro j other
    rw [World.slotsOf_setThread_ne _ (by simpa using fun h => other h.symm),
      World.slotsOf_of_actors actors, w₁.slotsOf_modifyActor_ne other,
      World.slotsOf_of_frame still.toFrame]

private theorem slotStep_idles (turn : w.controller.scheduled = i + 1)
    {top : ActiveState} {discarded : List Envelope} {mailbox : Mailbox}
    (thread : w.thread? (.actor i) = some ⟨[.cycle i], false⟩) (found : w.actors[i]? = some a)
    (selected : a.mailbox.dequeue (top.verdict w.policy) top.hasDefault =
      (.idle, discarded, mailbox)) :
    SlotStep w ((((w.idled i a mailbox).discard discarded).rested i a).setThread (.actor i)
      ⟨[.pass .yield, .rest i], false⟩) := by
  obtain ⟨status, queue, _⟩ := Mailbox.dequeue_idle selected
  have disabled : SameDues w (w.idled i a mailbox) := by
    refine (SameDues.modifyActor w i fun a => { a with mailbox }).trans ?_
    exact .setStatus (w.modifyActor i fun a => { a with mailbox }) (.inl (by simp)) (by simp)
  refine rests turn (f := fun a => { a with mailbox, pending := [] })
    ((discarded.filterMap (·.rendezvous)).map (·, false) ++ a.pending) [] found thread ?_ ?_ ?_
    (.inl status) (.inl rfl)
  · have inner := ((Relieves.discard (w.idled i a mailbox) discarded).trans
      (.replyEach _ a.pending)).actors
    simp only [World.rested, World.modifyActor] at inner ⊢
    rw [inner]
    simp only [World.idled, World.modifyActor, List.modify_modify_eq]
    rfl
  · rw [World.replyEach_append]
    refine SameDues.trans ?_ (.modifyActor _ i _)
    refine SameDues.replyEach ?_ a.pending
    rw [World.discard, World.replyAll_eq]
    exact SameDues.replyEach disabled _
  · have split := queue.filterMap (·.rendezvous)
    rw [List.perm_iff_count] at split ⊢
    intro r
    have count := split r
    simp only [Actor.owed, carried, charges, Task.charge?, List.map_append, List.map_map,
      Function.comp_def, List.map_id', List.filterMap_append, List.count_append,
      List.filterMap_cons, List.filterMap_nil, List.map_nil, List.count_nil] at count ⊢
    omega

/-- An actor takes something and discards events on the way. -/
private theorem slotStep_selects (turn : w.controller.scheduled = i + 1) {top : ActiveState}
    {selected : Selected} {discarded : List Envelope} {mailbox : Mailbox} {tasks : List Task}
    (thread : w.thread? (.actor i) = some ⟨[.cycle i], false⟩) (found : w.actors[i]? = some a)
    (running : a.core.halted = false) (quiet : a.core.raised = none)
    (current : a.core.stack.head? = some top)
    (dequeued : a.mailbox.dequeue (top.verdict w.policy) top.hasDefault =
      (selected, discarded, mailbox))
    (goesOn : (∃ envelope, selected = .event envelope) ∨ selected = .default)
    (queue : (a.mailbox.queue.filterMap (·.rendezvous)).Perm
      (discarded.filterMap (·.rendezvous) ++
        (mailbox.queue.filterMap (·.rendezvous) ++ carried tasks))) :
    SlotStep w (((w.modifyActor i fun a => { a with mailbox }).discard discarded).setThread
      (.actor i) ⟨tasks, false⟩) := by
  have next : w.next? = some (.cycle i) := World.next?_of_own turn thread
  have actors := (Relieves.discard (w.modifyActor i fun a => { a with mailbox }) discarded).actors
  have found₁ := World.getElem?_modifyActor (fun a => { a with mailbox }) found
  rw [← actors] at found₁
  have dues : SameDues (w.replyEach ((discarded.filterMap (·.rendezvous)).map (·, false)))
      (((w.modifyActor i fun a => { a with mailbox }).discard discarded).setThread (.actor i)
        ⟨tasks, false⟩) := by
    refine SameDues.trans ?_ (.setThread _ _ _)
    rw [World.discard, World.replyAll_eq]
    exact SameDues.replyEach (.modifyActor w i _) _
  refine .drops turn ?_ ?_ dues ?_
  · intro j other
    rw [World.slotsOf_setThread_ne _ (by simpa using fun h => other h.symm),
      World.slotsOf_of_actors actors, w.slotsOf_modifyActor_ne other]
  · rw [slots_of_thread found thread, World.slotsOf_setThread_self found₁]
    rw [List.perm_iff_count] at queue ⊢
    intro r
    have count := queue r
    have alone : carried [.cycle i] = [] := rfl
    simp only [Actor.owed, alone, List.map_map, Function.comp_def, List.map_id',
      List.count_append, List.count_nil] at count ⊢
    omega
  · intro r hr
    refine ⟨turn, next, a, top, selected, discarded, mailbox, found, running, quiet, current,
      dequeued, goesOn, ?_⟩
    simpa using hr

private theorem slotStep_creates {t : ThreadId} (h : Sound w) (known : ∀ j, t ≠ .sleeper j)
    (id : ActorId) (descriptor : Descriptor) (event : Option Event) {old new : Thread}
    (found : w.thread? t = some old) (still : Still t w w₁)
    (same : carried new.tasks = carried old.tasks) :
    SlotStep w ((w₁.addActor id descriptor event none).setThread t new) := by
  have added := World.thread?_addActor _ ((still.thread? known).trans found) id descriptor event none
  have fresh : w₁.controller.nextId ∉ w₁.controller.operations.map (·.id) := by
    rw [still.controller.nextId, still.controller.operations, h.nextId, h.ids]
    simp
  have unknown := (Controller.status?_eq_none_iff _ _).2 fresh
  refine .keeps ?_ (((SameDues.of_frame still.toFrame).trans ⟨?_, ?_⟩).trans (.setThread _ t new))
  · intro j
    rw [World.slotsOf_setThread added same, World.slotsOf_addActor]
    split
    · next e =>
      have none : w₁.slotsOf j = [] := by simp [World.slotsOf, e]
      rw [← World.slotsOf_of_frame still.toFrame, none]
      exact .refl _
    · rw [World.slotsOf_of_frame still.toFrame]
  · unfold World.addActor World.observe
    simp only
    split <;> rfl
  · intro o
    simp only [World.addActor, World.controller_observe]
    rw [Controller.status?_register _ _ _ fresh]
    split
    · next e => simp [e, unknown]
    · rfl

private theorem slotStep_controller {t : ThreadId} {c : Controller σ} {old new : Thread}
    (found : w.thread? t = some old) (same : carried new.tasks = carried old.tasks)
    (blocked : ∀ op, c.status? op = some .blocked ↔ w.controller.status? op = some .blocked) :
    SlotStep w (World.setThread { w with controller := c } t new) := by
  have kept : SameDues w { w with controller := c } := ⟨rfl, blocked⟩
  refine .keeps ?_ (kept.trans (.setThread _ t new))
  intro j
  rw [World.slotsOf_setThread ((World.thread?_setController w t c).trans found) same]
  exact .refl _

theorem queue_start (m : Mailbox) : m.start.2.queue = m.queue := by
  unfold Mailbox.start
  split <;> rfl

/-- What the holder of the turn does to the replies that are due. -/
theorem slotStep [Strategy σ] (h : Sound w) (poised : Poised w) (aimed : w.AllAimed)
    (step : Transition (World.threadOf w.controller.scheduled) w w') : SlotStep w w' := by
  have known := World.threadOf_ne_sleeper w.controller.scheduled
  have turn_of : ∀ i, World.threadOf w.controller.scheduled = .actor i →
      w.controller.scheduled = i + 1 := by
    intro i e
    cases hs : w.controller.scheduled with
    | zero => simp [hs, World.threadOf] at e
    | succ j => simpa [hs, World.threadOf] using e
  have attentive : ∀ {x rest outside},
      w.thread? (World.threadOf w.controller.scheduled) = some ⟨x :: rest, outside⟩ →
      (∀ kind, x ≠ .pass kind) → w.controller.status? w.controller.scheduled = some .enabled :=
    poised.attentive
  generalize ht : World.threadOf w.controller.scheduled = t at step attentive known
  have busy : ∀ {x : Task}, x.busy = true → ∀ kind, x ≠ .pass kind := by
    rintro x busy kind rfl
    cases busy
  have caller : ∀ {op thread}, w.thread? t = some thread → w.operation? t = some op →
      op = w.controller.scheduled := by
    intro op thread found asks
    subst ht
    exact Option.some.inj (asks.symm.trans (h.operation_of_thread found))
  cases step with
  | works found works isBusy still works' continues =>
    exact .of_frame known still.toFrame found continues.carried
  | shifts mine there found works isBusy works' grounded charges =>
    subst mine
    refine .of_frame known (.setStack w _ _) found ?_
    rw [carried, charges, carried]
  | ends mine found still => exact .of_frame known still.toFrame found rfl
  | unwinds mine found works feigns alone still =>
    subst mine
    exact h.slotStep_unwinds (turn_of _ ht) found works feigns.busy feigns still
  | posts found => exact slotStep_posts found
  | engages found works works' waiting asks =>
    obtain rfl := caller found asks
    exact h.slotStep_engages ht (attentive found (by simp)) found
      (aimed _ _ known found _ _ List.mem_cons_self)
  | creates id descriptor event _ found works isBusy still works' continues =>
    exact h.slotStep_creates known id descriptor event found still continues.carried
  | createsAndWaits id descriptor event found works isBusy request asks still works' continues =>
    obtain rfl := caller found asks
    exact h.slotStep_createsAndWaits ht (attentive found (busy isBusy)) request id descriptor
      event found still continues.carried
  | passes found works asks =>
    refine slotStep_controller found rfl fun o => ?_
    rw [(Controller.sameOperations_schedule w.controller _ _).status?]
  | settles mine found there =>
    subst mine
    exact h.slotStep_settles (turn_of _ ht) found there
  | ignores mine found there resolved =>
    subst mine
    refine .of_frame known (.setStack w _ _) found ?_
    rw [carried_settlement]
    exact (carried_handle _ _ _).symm
  | consumes mine found there resolved =>
    subst mine
    refine .of_frame known (.setStack w _ _) found ?_
    simp only
    rw [List.append_assoc, carried_consumption, carried_settlement, carried_handle]
  | halts mine found there resolved =>
    subst mine
    obtain ⟨a, work⟩ := h.atWork_of_busy found (.handle rfl _ _) rfl
    exact slotStep_halts (turn_of _ ht) found work.found work.running
  | leaves mine found own =>
    refine .of_thread found ?_
    rcases own with rfl | rfl <;> rfl
  | obeys mine found there running raised =>
    subst mine
    refine .of_frame known (.modifyActor w _ (by exact fun _ => rfl)) found ?_
    exact carried_obedience _ _ _
  | @selects i a top envelope discarded mailbox mine found there running quiet current selected =>
    subst mine
    refine slotStep_selects (turn_of _ ht) found there running quiet current selected
      (.inl ⟨_, rfl⟩) ?_
    refine ((Mailbox.dequeue_event selected).2.filterMap (·.rendezvous)).trans ?_
    rw [carried_handle, ← List.singleton_append, List.filterMap_append, List.filterMap_append]
    have one : [envelope].filterMap (·.rendezvous) = envelope.rendezvous.toList := by
      cases h : envelope.rendezvous <;> simp [h]
    rw [one]
    exact List.perm_append_comm.trans (List.Perm.of_eq (List.append_assoc _ _ _))
  | @defaults i a top discarded mailbox mine found there running quiet current selected =>
    subst mine
    refine slotStep_selects (turn_of _ ht) found there running quiet current selected
      (.inr rfl) ?_
    have queue := (Mailbox.dequeue_default selected).2.1.filterMap (·.rendezvous)
    rw [List.filterMap_append] at queue
    exact queue.trans (List.Perm.of_eq (by simp [carried, charges, Task.charge?]))
  | idles mine found there running quiet current selected =>
    subst mine
    exact slotStep_idles (turn_of _ ht) found there selected
  | starves mine found there running quiet empty =>
    subst mine
    have work := h.atWork_of_cycle found there running
    have positive : 0 < _ := work.grounded
    simp [empty] at positive
  | rises mine found own =>
    refine .of_thread found ?_
    rcases own with rfl | rfl <;> rfl
  | starts mine found there running first =>
    subst mine
    refine SlotStep.modifyActor there found ?_
    rw [List.perm_iff_count]
    intro r
    simp only [Actor.owed, queue_start, carried, charges, Task.charge?, List.map_append, List.map_map,
      Function.comp_def, List.map_id', Option.toList_none, List.count_append, List.filterMap_cons,
      List.filterMap_nil, List.count_nil]
    omega
  | resumes mine found there running again =>
    subst mine
    refine SlotStep.modifyActor there found ?_
    simp only [Actor.owed, queue_start]
    exact .refl _
  | @retires kind op found asks =>
    have completed := Controller.completed_complete w.controller op kind
    have enabled : w.controller.status? op = some .enabled := by
      rw [caller found asks]
      exact attentive found (by simp)
    refine slotStep_controller found rfl fun o => ?_
    by_cases e : o = op
    · rw [e, completed.own enabled, enabled]
      simp
    · rw [completed.others o e]

end Sound

end SteeredActors
