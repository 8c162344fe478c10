import SteeredActors.Proofs.World.Threads

/-!
# Replies and envelopes

A reply marks its rendezvous and lets whoever waits for it go on. Actors and threads stay as they
are. An envelope reaches the queue of its actor, wakes the actor, or is dropped.
-/

set_option autoImplicit false
set_option relaxedAutoImplicit false

namespace SteeredActors

variable {σ : Type}

/-- One world comes from another by replies. -/
structure Relieves (w w' : World σ) : Prop where
  controller : w.controller.Frees w'.controller
  registry : w'.registry = w.registry
  policy : w'.policy = w.policy
  test : w'.test = w.test
  actors : w'.actors = w.actors

namespace Relieves

variable {w w₁ w₂ : World σ}

theorem refl (w : World σ) : Relieves w w := ⟨.refl _, rfl, rfl, rfl, rfl⟩

theorem trans (h : Relieves w w₁) (k : Relieves w₁ w₂) : Relieves w w₂ :=
  ⟨h.controller.trans k.controller, k.registry.trans h.registry, k.policy.trans h.policy,
    k.test.trans h.test, k.actors.trans h.actors⟩

theorem reply (w : World σ) (r : Nat) (handled : Bool) : Relieves w (w.reply r handled) := by
  unfold World.reply
  split
  · next waiter _ =>
    cases waiter with
    | none => exact ⟨.refl _, rfl, rfl, rfl, rfl⟩
    | some op => exact ⟨.unblock _ op, rfl, rfl, rfl, rfl⟩
  · exact refl w

theorem replyAll (w : World σ) (rs : List Nat) (handled : Bool) :
    Relieves w (w.replyAll rs handled) := by
  unfold World.replyAll
  induction rs generalizing w with
  | nil => exact refl w
  | cons r rs ih => exact (reply w r handled).trans (ih _)

theorem replyEach (w : World σ) (pending : List (Nat × Bool)) :
    Relieves w (pending.foldl (fun w (r, handled) => w.reply r handled) w) := by
  induction pending generalizing w with
  | nil => exact refl w
  | cons p pending ih => exact (reply w p.1 p.2).trans (ih _)

theorem discard (w : World σ) (envelopes : List Envelope) : Relieves w (w.discard envelopes) :=
  replyAll w _ false

theorem explores (h : Relieves w w₁) : w₁.explores = w.explores := by
  simp [World.explores, Controller.explores, h.controller.mode]

end Relieves

theorem World.explores_enqueue (w : World σ) (i : Nat) (envelope : Envelope) :
    (w.enqueue i envelope).explores = w.explores := by
  unfold World.enqueue
  split
  · rfl
  · next a _ =>
    cases a.mailbox.enqueue envelope with
    | mk arrival mailbox =>
      cases arrival with
      | dropped =>
        exact (Relieves.discard (w.modifyActor i fun a => { a with mailbox }) [envelope]).explores
      | queued => rfl
      | woke => rfl

/-! ## Abandoned actors -/

/-- The rendezvous that an actor has to answer for by itself. -/
def Actor.owed (a : Actor) : List Nat :=
  a.mailbox.queue.filterMap (·.rendezvous) ++ a.creationRendezvous.toList ++ a.pending.map (·.1)

/-- An actor that has nothing to answer for any more. -/
def Actor.emptied (a : Actor) : Actor :=
  { a with mailbox := ⟨.halted, []⟩, creationRendezvous := none, pending := [] }

/-- Everyone who waits for an abandoned actor is told that nothing was handled. -/
theorem World.abandon_eq {w : World σ} {i : Nat} {a : Actor} (found : w.actors[i]? = some a) :
    w.abandon i = (w.modifyActor i Actor.emptied).replyAll a.owed false := by
  unfold World.abandon
  rw [found]
  simp only [World.discard, World.replyAll, Actor.owed, List.foldl_append]
  rfl

/-- An actor that has halted. -/
def Actor.stopped (a : Actor) : Actor :=
  { a.emptied with core := { a.core with halted := true, stack := [], raised := none } }

/-- An actor that halts is told to nobody but those who wait for it, and to observers. -/
theorem World.halt_eq {w : World σ} {i : Nat} {a : Actor} (found : w.actors[i]? = some a)
    (running : a.core.halted = false) :
    w.halt (.actor i) =
      ((w.modifyActor i Actor.stopped).replyAll a.owed false).observe (.destroyed a.core.id) := by
  unfold World.halt
  simp only [World.core?, found, Option.map_some, running, Bool.false_eq_true, if_false]
  congr 1
  have there : (w.modifyCore (.actor i) fun core =>
      { core with halted := true, stack := [], raised := none }).actors[i]? =
      some { a with core := { a.core with halted := true, stack := [], raised := none } } := by
    simp [World.modifyCore, World.modifyActor, found]
  rw [World.abandon_eq there]
  simp only [World.modifyCore, World.modifyActor, List.modify_modify_eq]
  rfl

theorem World.abandon_of_none {w : World σ} {i : Nat} (found : w.actors[i]? = none) :
    w.abandon i = w := by
  unfold World.abandon
  rw [found]

/-! ## Envelopes -/

/-- Only what becomes of the actor that is there counts. -/
theorem World.modifyActor_congr {w : World σ} {i : Nat} {a : Actor} (found : w.actors[i]? = some a)
    {f g : Actor → Actor} (same : f a = g a) : w.modifyActor i f = w.modifyActor i g := by
  have modified : w.actors.modify i f = w.actors.modify i g := by
    apply List.ext_getElem?
    intro j
    rw [List.getElem?_modify, List.getElem?_modify]
    by_cases h : i = j
    · subst h
      simp [found, same]
    · simp [h]
  simp only [World.modifyActor, modified]

theorem World.modifyActor_self {w : World σ} {i : Nat} {a : Actor} (found : w.actors[i]? = some a)
    {f : Actor → Actor} (same : f a = a) : w.modifyActor i f = w := by
  rw [World.modifyActor_congr (g := id) found same]
  simp [World.modifyActor]

theorem World.getElem?_modifyActor {w : World σ} {i : Nat} {a : Actor} (f : Actor → Actor)
    (found : w.actors[i]? = some a) : (w.modifyActor i f).actors[i]? = some (f a) := by
  simp [World.modifyActor, found]

theorem World.getElem?_setThread {w : World σ} {i : Nat} {a : Actor}
    (found : w.actors[i]? = some a) (thread : Thread) :
    (w.setThread (.actor i) thread).actors[i]? = some { a with thread } :=
  World.getElem?_modifyActor _ found

/-- An actor after a thread was set, which may be its own. -/
theorem World.getElem?_setThread_or {w : World σ} {i : Nat} {a : Actor}
    (found : w.actors[i]? = some a) (t : ThreadId) (thread : Thread) :
    (w.setThread t thread).actors[i]? =
      some { a with thread := if t = .actor i then thread else a.thread } := by
  cases t with
  | driver => simpa [World.setThread] using found
  | sleeper j => simpa [World.setThread, World.modifySleeper] using found
  | actor j =>
    by_cases e : j = i
    · subst e
      simpa using World.getElem?_setThread found thread
    · have : ThreadId.actor j ≠ .actor i := fun h => e (ThreadId.actor.inj h)
      simp [World.setThread, World.modifyActor, e, found]

/-- An actor with one more event in its queue. -/
def Actor.queued (a : Actor) (envelope : Envelope) : Actor :=
  { a with mailbox := { a.mailbox with queue := a.mailbox.queue ++ [envelope] } }

/-- An actor that is woken by an event. -/
def Actor.woken (a : Actor) (envelope : Envelope) : Actor :=
  { a with mailbox := ⟨.running, a.mailbox.queue ++ [envelope]⟩ }

namespace World

variable {w : World σ} {i : Nat} {a : Actor} (found : w.actors[i]? = some a) (envelope : Envelope)
include found

/-- An event for an actor that has halted is dropped. -/
theorem enqueue_of_halted (halted : a.mailbox.status = .halted) :
    w.enqueue i envelope = w.discard [envelope] := by
  unfold enqueue
  rw [found]
  simp only [Mailbox.enqueue, halted]
  rw [modifyActor_self found]
  rfl

theorem enqueue_of_idle (idle : a.mailbox.status = .idle) :
    w.enqueue i envelope =
      { w.modifyActor i (·.woken envelope) with
        controller := w.controller.enable a.operation } := by
  unfold enqueue
  rw [found]
  simp only [Mailbox.enqueue, idle]
  rw [modifyActor_congr (g := (·.woken envelope)) found rfl]
  rfl

theorem enqueue_of_busy (busy : a.mailbox.status = .uninitialized ∨ a.mailbox.status = .running) :
    w.enqueue i envelope = w.modifyActor i (·.queued envelope) := by
  unfold enqueue
  rw [found]
  have arrival : a.mailbox.enqueue envelope =
      (.queued, { a.mailbox with queue := a.mailbox.queue ++ [envelope] }) := by
    rcases busy with h | h <;> simp [Mailbox.enqueue, h]
  simp only [arrival]
  exact modifyActor_congr found rfl

end World

end SteeredActors
