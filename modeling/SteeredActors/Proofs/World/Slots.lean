import SteeredActors.Proofs.World.Ledger
import SteeredActors.Proofs.World.Aims

/-!
# Where replies are kept

A rendezvous that is due stands in one place of one actor: in its queue, with its creation, among the
events it has handled since it was last idle, or in what its thread has to do. What every step of an
explored run does to these places is one of few things.
-/

set_option autoImplicit false
set_option relaxedAutoImplicit false

namespace SteeredActors

variable {σ : Type}

/-- The rendezvous whose replies depend on an actor. -/
def Actor.slots (a : Actor) : List Nat := a.owed ++ carried a.thread.tasks

namespace World

/-- The rendezvous whose replies depend on the actor at a position. -/
def slotsOf (w : World σ) (i : Nat) : List Nat :=
  match w.actors[i]? with
  | some a => a.slots
  | none => []

/-- The rendezvous whose replies depend on any actor. -/
def slots (w : World σ) : List Nat := w.actors.flatMap Actor.slots

section

variable {w w' : World σ}

theorem slotsOf_of_found {i : Nat} {a : Actor} (found : w.actors[i]? = some a) :
    w.slotsOf i = a.slots := by
  simp [slotsOf, found]

theorem slotsOf_congr {i : Nat}
    (same : w'.actors[i]?.map Actor.slots = w.actors[i]?.map Actor.slots) :
    w'.slotsOf i = w.slotsOf i := by
  unfold slotsOf
  cases found : w.actors[i]? <;> cases found' : w'.actors[i]? <;> simp_all

private theorem flatMap_slotsOf (w : World σ) {m : Nat} (all : w.actors.length ≤ m) :
    (List.range m).flatMap w.slotsOf = w.slots := by
  induction m generalizing w with
  | zero =>
    have empty : w.actors = [] := by simpa using all
    simp [slots, empty]
  | succ m ih =>
    by_cases last : w.actors.length ≤ m
    · have outside : w.slotsOf m = [] := by
        have : w.actors[m]? = none := by simpa using last
        simp [slotsOf, this]
      rw [List.range_succ, List.flatMap_append, ih w last]
      simp [outside]
    · have length : w.actors.length = m + 1 := by omega
      have there : m < w.actors.length := by omega
      have final : w.slotsOf m = w.actors[m].slots := slotsOf_of_found (List.getElem?_eq_getElem there)
      have init : (List.range m).flatMap w.slotsOf = (w.actors.take m).flatMap Actor.slots := by
        refine Eq.trans ?_ (ih { w with actors := w.actors.take m } (by simp [length]))
        apply List.flatMap_congr
        intro j hj
        have lt : j < m := by simpa using hj
        simp [slotsOf, lt]
      have split : w.actors = w.actors.take m ++ [w.actors[m]] := by
        rw [List.take_append_getElem there, ← length, List.take_length]
      have all : w.slots = (w.actors.take m).flatMap Actor.slots ++ w.actors[m].slots := by
        refine (congrArg (List.flatMap Actor.slots) split).trans ?_
        rw [List.flatMap_append, List.flatMap_singleton]
      rw [List.range_succ, List.flatMap_append, init, List.flatMap_singleton, final, all]

/-- What one actor gives away is missing from the whole, when the others keep theirs. -/
theorem perm_slots {i : Nat} (lost : List Nat)
    (others : ∀ j, j ≠ i → (w.slotsOf j).Perm (w'.slotsOf j))
    (own : (w.slotsOf i).Perm (lost ++ w'.slotsOf i)) : w.slots.Perm (lost ++ w'.slots) := by
  obtain ⟨m, hm⟩ : ∃ m, w.actors.length ≤ m ∧ w'.actors.length ≤ m ∧ i < m :=
    ⟨w.actors.length + w'.actors.length + i + 1, by omega, by omega, by omega⟩
  have split : (List.range m).Perm (i :: (List.range m).erase i) :=
    List.perm_cons_erase (by simpa using hm.2.2)
  have rest : (((List.range m).erase i).flatMap w.slotsOf).Perm
      (((List.range m).erase i).flatMap w'.slotsOf) := by
    apply List.Perm.flatMap_left
    intro j hj
    exact others j (List.nodup_range.mem_erase_iff.1 hj).1
  rw [← w.flatMap_slotsOf hm.1, ← w'.flatMap_slotsOf hm.2.1]
  calc (List.range m).flatMap w.slotsOf
      _ |>.Perm ((i :: (List.range m).erase i).flatMap w.slotsOf) := split.flatMap_right _
      _ |>.Perm ((lost ++ w'.slotsOf i) ++ ((List.range m).erase i).flatMap w'.slotsOf) := by
        rw [List.flatMap_cons]
        exact own.append rest
      _ = lost ++ (i :: (List.range m).erase i).flatMap w'.slotsOf := by
        rw [List.flatMap_cons, List.append_assoc]
      _ |>.Perm (lost ++ (List.range m).flatMap w'.slotsOf) :=
        (split.symm.flatMap_right _).append_left lost

theorem perm_slots_of_same (same : ∀ j, (w.slotsOf j).Perm (w'.slotsOf j)) :
    w.slots.Perm w'.slots :=
  perm_slots (i := 0) [] (fun j _ => same j) (same 0)

end

/-! ## Changes of one actor -/

variable (w : World σ)

theorem slotsOf_modifyActor_ne {i j : Nat} (other : j ≠ i) (f : Actor → Actor) :
    (w.modifyActor i f).slotsOf j = w.slotsOf j := by
  apply slotsOf_congr
  have ne : i ≠ j := fun e => other e.symm
  simp [modifyActor, ne]

theorem slotsOf_modifyActor_self {w : World σ} {i : Nat} {a : Actor}
    (found : w.actors[i]? = some a) (f : Actor → Actor) :
    (w.modifyActor i f).slotsOf i = (f a).slots :=
  slotsOf_of_found (getElem?_modifyActor f found)

theorem slotsOf_of_actors {w w' : World σ} (same : w'.actors = w.actors) (j : Nat) :
    w'.slotsOf j = w.slotsOf j := by
  simp [slotsOf, same]

theorem slotsOf_of_frame {t : ThreadId} {w w' : World σ} (frame : Frame t w w') (j : Nat) :
    w'.slotsOf j = w.slotsOf j := by
  apply slotsOf_congr
  have inner : Actor.slots ∘ Actor.outer = Actor.slots := rfl
  have same := congrArg (·[j]?.map Actor.slots) frame.outer
  simpa only [List.getElem?_map, Option.map_map, inner] using same

theorem slotsOf_setThread_ne {t : ThreadId} {j : Nat} (other : t ≠ .actor j) (thread : Thread) :
    (w.setThread t thread).slotsOf j = w.slotsOf j := by
  cases t with
  | driver => rfl
  | sleeper k => rfl
  | actor i => exact w.slotsOf_modifyActor_ne (fun e => other (by rw [e])) _

theorem slotsOf_setThread_self {w : World σ} {i : Nat} {a : Actor}
    (found : w.actors[i]? = some a) (thread : Thread) :
    (w.setThread (.actor i) thread).slotsOf i = a.owed ++ carried thread.tasks :=
  slotsOf_modifyActor_self found _

/-- A thread that goes on with tasks on which the same replies depend. -/
theorem slotsOf_setThread {w : World σ} {t : ThreadId} {old new : Thread}
    (found : w.thread? t = some old) (same : carried new.tasks = carried old.tasks) (j : Nat) :
    (w.setThread t new).slotsOf j = w.slotsOf j := by
  by_cases e : t = .actor j
  · subst e
    obtain ⟨a, ha, rfl⟩ := Option.map_eq_some_iff.1 found
    rw [slotsOf_setThread_self ha, same, slotsOf_of_found ha, Actor.slots]
  · exact w.slotsOf_setThread_ne e new

theorem slotsOf_addActor {w : World σ} (id : ActorId) (descriptor : Descriptor)
    (event : Option Event) (rendezvous : Option Nat) (j : Nat) :
    (w.addActor id descriptor event rendezvous).slotsOf j =
      if j = w.actors.length then rendezvous.toList else w.slotsOf j := by
  have actors : ∀ (w : World σ) event, (w.observe event).actors = w.actors := by
    intro w event
    unfold observe
    split <;> rfl
  simp only [slotsOf, addActor, actors]
  by_cases e : j = w.actors.length
  · subst e
    simp [Actor.slots, Actor.owed, carried, charges, Task.charge?]
  · rw [if_neg e]
    by_cases lt : j < w.actors.length
    · rw [List.getElem?_append_left lt]
    · have gt : w.actors.length < j := by omega
      rw [List.getElem?_append_right (by omega)]
      have : w.actors[j]? = none := by simpa using Nat.le_of_lt gt
      have outside : j - w.actors.length ≠ 0 := by omega
      simp [this, outside]

/-- In its next step an actor selects something to do and discards the event of a rendezvous on the
way. -/
def DiscardsInPassing (w : World σ) (i r : Nat) : Prop :=
  w.controller.scheduled = i + 1 ∧ w.next? = some (.cycle i) ∧
    ∃ a top selected discarded mailbox, w.actors[i]? = some a ∧ a.core.halted = false ∧
      a.core.raised = none ∧ a.core.stack.head? = some top ∧
      a.mailbox.dequeue (top.verdict w.policy) top.hasDefault = (selected, discarded, mailbox) ∧
      ((∃ envelope, selected = .event envelope) ∨ selected = .default) ∧
      r ∈ discarded.filterMap (·.rendezvous)

/-- In its next step the holder of the turn begins to wait for the actor at a position: one that it
sends an event to, or one that it creates. -/
def Targets (w : World σ) (i : Nat) : Prop :=
  (∃ event, w.next? = some (.engage i event)) ∨
    i = w.actors.length ∧ ∃ speaker voice request next,
      w.next? = some (.perform speaker (.ask voice request next))

end World

/-- What a step does to the replies that are due. -/
inductive SlotStep (w w' : World σ) : Prop where
  /-- They stay where they are. -/
  | keeps (slots : ∀ j, (w.slotsOf j).Perm (w'.slotsOf j)) (dues : SameDues w w')
  /-- There is a new one, kept by the actor that is called. -/
  | opens {i op : Nat} (waiter : op = w.controller.scheduled)
      (enabled : w.controller.status? op = some .enabled) (target : w.Targets i)
      (others : ∀ j, j ≠ i → (w.slotsOf j).Perm (w'.slotsOf j))
      (own : (w'.slotsOf i).Perm (w.rendezvous.length :: w.slotsOf i)) (dues : Opens op w w')
  /-- There is a new one, given at once: the actor that is called has halted. -/
  | refused {i op : Nat} {w₁ : World σ} {b : Actor} (waiter : op = w.controller.scheduled)
      (enabled : w.controller.status? op = some .enabled) (target : w.Targets i)
      (slots : ∀ j, (w.slotsOf j).Perm (w'.slotsOf j)) (opened : Opens op w w₁)
      (dues : SameDues (w₁.replyEach [(w.rendezvous.length, false)]) w')
      (there : w'.actors[i]? = some b) (rest : b.mailbox.status = .halted)
  /-- An actor comes to rest and gives them. Some are lost if it unwinds for no reason. -/
  | rests {i : Nat} {b : Actor} {given : List (Nat × Bool)} {lost : List Nat}
      (mine : w.controller.scheduled = i + 1)
      (others : ∀ j, j ≠ i → (w.slotsOf j).Perm (w'.slotsOf j))
      (own : (w.slotsOf i).Perm (given.map (·.1) ++ (lost ++ w'.slotsOf i)))
      (dues : SameDues (w.replyEach given) w') (there : w'.actors[i]? = some b)
      (rest : b.mailbox.status = .idle ∨ b.mailbox.status = .halted)
      (faithful : lost = [] ∨ ∃ x, w.next? = some x ∧ x.Feigns)
  /-- An actor discards their events and goes on. -/
  | drops {i : Nat} {given : List (Nat × Bool)} (mine : w.controller.scheduled = i + 1)
      (others : ∀ j, j ≠ i → (w.slotsOf j).Perm (w'.slotsOf j))
      (own : (w.slotsOf i).Perm (given.map (·.1) ++ w'.slotsOf i))
      (dues : SameDues (w.replyEach given) w')
      (passing : ∀ r ∈ given.map (·.1), w.DiscardsInPassing i r)

namespace SlotStep

variable {w w₁ w' : World σ} {t : ThreadId}

/-- Work that concerns nobody else, with tasks on which the same replies depend. -/
theorem of_frame (known : ∀ j, t ≠ .sleeper j) (frame : Frame t w w₁) {old new : Thread}
    (found : w.thread? t = some old) (same : carried new.tasks = carried old.tasks) :
    SlotStep w (w₁.setThread t new) := by
  refine .keeps ?_ ((SameDues.of_frame frame).trans (.setThread w₁ t new))
  intro j
  rw [World.slotsOf_setThread ((frame.thread? known).trans found) same, World.slotsOf_of_frame frame]

theorem of_thread {old new : Thread} (found : w.thread? t = some old)
    (same : carried new.tasks = carried old.tasks) : SlotStep w (w.setThread t new) := by
  refine .keeps ?_ (.setThread w t new)
  intro j
  rw [World.slotsOf_setThread found same]

end SlotStep

/-! ## Envelopes -/

theorem Actor.slots_queued (a : Actor) (envelope : Envelope) :
    (a.queued envelope).slots.Perm (envelope.rendezvous.toList ++ a.slots) := by
  simp only [Actor.slots, Actor.owed, Actor.queued, List.filterMap_append, List.append_assoc]
  have one : [envelope].filterMap (·.rendezvous) = envelope.rendezvous.toList := by
    cases h : envelope.rendezvous <;> simp [h]
  rw [one]
  exact List.perm_append_comm_assoc _ _ _

theorem Actor.slots_woken (a : Actor) (envelope : Envelope) :
    (a.woken envelope).slots.Perm (envelope.rendezvous.toList ++ a.slots) :=
  a.slots_queued envelope

namespace World

variable {w : World σ} {i : Nat} {a : Actor} (found : w.actors[i]? = some a) (envelope : Envelope)
include found

/-- An envelope that arrives is kept with its rendezvous, or is dropped. -/
theorem slots_enqueue :
    (∀ j, j ≠ i → (w.slotsOf j).Perm ((w.enqueue i envelope).slotsOf j)) ∧
      (a.mailbox.status ≠ .halted ∧
          ((w.enqueue i envelope).slotsOf i).Perm
            (envelope.rendezvous.toList ++ w.slotsOf i) ∧
          SameDues w (w.enqueue i envelope) ∨
        a.mailbox.status = .halted ∧
          w.enqueue i envelope = w.replyEach (envelope.rendezvous.toList.map (·, false))) := by
  cases status : a.mailbox.status with
  | halted =>
    have dropped : w.enqueue i envelope =
        w.replyEach (envelope.rendezvous.toList.map (·, false)) := by
      rw [enqueue_of_halted found envelope status, discard, replyAll_eq]
      cases h : envelope.rendezvous <;> simp [h]
    have actors : (w.enqueue i envelope).actors = w.actors := by
      rw [dropped]
      exact (Relieves.replyEach w _).actors
    refine ⟨fun j _ => ?_, .inr ⟨rfl, dropped⟩⟩
    rw [slotsOf_of_actors actors]
  | idle =>
    rw [enqueue_of_idle found envelope status]
    refine ⟨fun j other => ?_, .inl ⟨by simp, ?_, ?_⟩⟩
    · exact List.Perm.of_eq (w.slotsOf_modifyActor_ne other _).symm
    · have own := slotsOf_modifyActor_self found (·.woken envelope)
      rw [slotsOf_of_found found]
      exact (List.Perm.of_eq own).trans (a.slots_woken envelope)
    · exact (SameDues.modifyActor w i _).trans (.setStatus _ (.inl (by simp)) (by simp))
  | uninitialized | running =>
    rw [enqueue_of_busy found envelope (by simp [status])]
    refine ⟨fun j other => ?_, .inl ⟨by simp, ?_, .modifyActor w i _⟩⟩
    · rw [w.slotsOf_modifyActor_ne other]
    · rw [slotsOf_modifyActor_self found, slotsOf_of_found found]
      exact a.slots_queued envelope

end World

end SteeredActors
