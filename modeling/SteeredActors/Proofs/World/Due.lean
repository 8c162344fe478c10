import SteeredActors.Proofs.World.Honesty
import SteeredActors.Proofs.World.SlotSteps

/-!
# Who waits, and for what

In an honest run the ledger of replies is right after every step: whoever is blocked waits for one
rendezvous, and this one is kept in one place.
-/

set_option autoImplicit false
set_option relaxedAutoImplicit false

namespace SteeredActors

variable {σ : Type}

/-! ## The ledger of a run -/

/-- A step at which nobody unwinds for no reason keeps the ledger right. -/
theorem SlotStep.ledger {w w' : World σ} (step : SlotStep w w') (h : Ledger w.slots w)
    (faithful : ∀ x, w.next? = some x → ¬x.Feigns) : Ledger w'.slots w' := by
  cases step with
  | keeps slots dues => exact (h.of_same dues).perm (World.perm_slots_of_same slots)
  | @opens i op waiter enabled target others own dues =>
    subst waiter
    refine (h.opens enabled dues).perm (List.Perm.symm ?_)
    exact World.perm_slots [w.rendezvous.length] (fun j other => (others j other).symm) own
  | @refused i op w₁ b waiter enabled target slots opened dues =>
    subst waiter
    have due : Ledger ([(w.rendezvous.length, false)].map (·.1) ++ w.slots) w₁ :=
      h.opens enabled opened
    exact (due.replyEach.of_same dues).perm (World.perm_slots_of_same slots)
  | @rests i b given lost mine others own dues there rest honest =>
    obtain rfl : lost = [] := honest.resolve_right fun ⟨x, next, feigns⟩ => faithful x next feigns
    have due := h.perm (World.perm_slots _ others own)
    exact due.replyEach.of_same dues
  | @drops i given mine others own dues =>
    have due := h.perm (World.perm_slots _ others own)
    exact due.replyEach.of_same dues

/-- Replies leave it settled who waits. -/
theorem World.waiter_replyEach {w : World σ} {r : Nat} {z : Rendezvous}
    (found : w.rendezvous[r]? = some z) (given : List (Nat × Bool)) :
    ∃ reply, (w.replyEach given).rendezvous[r]? = some ⟨z.waiter, reply⟩ := by
  induction given generalizing w z with
  | nil => exact ⟨z.reply, found⟩
  | cons p given ih =>
    rw [World.replyEach_cons]
    have next : ∃ reply, (w.reply p.1 p.2).rendezvous[r]? = some ⟨z.waiter, reply⟩ := by
      rw [World.rendezvous_reply]
      split
      · next e =>
        subst e
        exact ⟨_, by rw [found]; rfl⟩
      · exact ⟨z.reply, found⟩
    obtain ⟨reply, next⟩ := next
    exact ih (z := ⟨z.waiter, reply⟩) next

/-- Who waits for a rendezvous is settled when it is opened. -/
theorem SlotStep.waiter {w w' : World σ} (step : SlotStep w w') {r : Nat} {z : Rendezvous}
    (found : w.rendezvous[r]? = some z) :
    ∃ reply, w'.rendezvous[r]? = some ⟨z.waiter, reply⟩ := by
  have old : ∀ z' : Rendezvous, (w.rendezvous ++ [z'])[r]? = some z := by
    intro z'
    rw [List.getElem?_append_left (List.getElem?_eq_some_iff.1 found).1]
    exact found
  cases step with
  | keeps _ dues => exact ⟨z.reply, by rw [dues.rendezvous]; exact found⟩
  | opens _ _ _ _ _ dues => exact ⟨z.reply, by rw [dues.rendezvous]; exact old _⟩
  | refused _ _ _ _ opened dues =>
    rw [dues.rendezvous]
    exact World.waiter_replyEach (by rw [opened.rendezvous]; exact old _) _
  | rests _ _ _ dues | drops _ _ _ dues =>
    rw [dues.rendezvous]
    exact World.waiter_replyEach found _

/-- A reply is given once for all. -/
theorem SlotStep.replied?_of_some {w w' : World σ} (step : SlotStep w w') {r : Nat} {b : Bool}
    (replied : w.replied? r = some b) : w'.replied? r = some b := by
  have opened : ∀ {w₁ : World σ} {op}, Opens op w w₁ → w₁.replied? r = some b := by
    intro w₁ op opens
    obtain ⟨z, found, _⟩ := Option.bind_eq_some_iff.1 replied
    rw [World.replied?, opens.rendezvous,
      List.getElem?_append_left (List.getElem?_eq_some_iff.1 found).1]
    exact replied
  cases step with
  | keeps _ dues =>
    rw [World.replied?, dues.rendezvous]
    exact replied
  | opens _ _ _ _ _ dues => exact opened dues
  | refused _ _ _ _ opens dues =>
    rw [World.replied?, dues.rendezvous]
    exact World.replied?_replyEach_of_some _ (opened opens) _
  | rests _ _ _ dues | drops _ _ _ dues =>
    rw [World.replied?, dues.rendezvous]
    exact World.replied?_replyEach_of_some _ replied _

/-- At first nothing is due. -/
theorem ledger_initial [Strategy σ] (e : Experiment) (ids : Allocator) (s : σ) :
    Ledger (e.iterate 0 ids s).slots (e.iterate 0 ids s) := by
  refine ⟨.nil, by simp [Experiment.iterate, World.run, World.new, World.slots],
    by simp [Experiment.iterate, World.run, World.new], fun op => ?_,
    by simp [Experiment.iterate, World.run, World.new, World.Awaits]⟩
  simp only [Experiment.iterate, World.run, World.new, World.Awaits, Controller.exploration,
    Controller.status?, List.find?_cons, List.find?_nil, List.getElem?_nil, reduceCtorEq,
    exists_false, iff_false]
  split <;> simp

/-- In an honest run the ledger is right as long as there is no outcome. -/
theorem Experiment.Honest.ledger [Strategy σ] {e : Experiment} {ids : Allocator} {s : σ}
    (honest : e.Honest ids s) {n : Nat} (running : (e.iterate n ids s).isOver = false) :
    Ledger (e.iterate n ids s).slots (e.iterate n ids s) := by
  induction n with
  | zero => exact ledger_initial e ids s
  | succ n ih =>
    have before := e.running_of_succ ids s running
    rcases e.transition_or_stuck running with step | same
    · exact ((e.sound before).slotStep (e.poised before) (e.allAimed before) step).ledger (ih before)
        fun x next => honest.not_feigns before next
    · rw [same]
      exact ih before

/-! ## Places -/

/-- Where a rendezvous may be kept until its reply is given. -/
inductive Place where
  /-- In the queue of an actor, with its event. -/
  | queue (i : Nat)
  /-- With the event that an actor is dispatching. -/
  | dispatch (i : Nat)
  /-- Among the events that an actor has handled since it was last idle. -/
  | pending (i : Nat)
  /-- With the creation of an actor that has not started. -/
  | creation (i : Nat)
deriving DecidableEq, Repr

/-- The actor that keeps what is in a place. -/
def Place.owner : Place → Nat
  | .queue i | .dispatch i | .pending i | .creation i => i

namespace World

/-- The rendezvous that are kept in a place. -/
def keptAt (w : World σ) : Place → List Nat
  | .queue i => (w.actors[i]?.map fun a => a.mailbox.queue.filterMap (·.rendezvous)).getD []
  | .dispatch i => (w.actors[i]?.map fun a => carried a.thread.tasks).getD []
  | .pending i => (w.actors[i]?.map fun a => a.pending.map (·.1)).getD []
  | .creation i => (w.actors[i]?.map fun a => a.creationRendezvous.toList).getD []

/-- Whoever keeps something in a place is still going to reply: no queue of an actor that has halted
counts, and no creation of one that has started. -/
def Lasting (w : World σ) : Place → Prop
  | .queue i => ∃ a, w.actors[i]? = some a ∧ a.mailbox.status ≠ .halted
  | .dispatch i | .pending i => i < w.actors.length
  | .creation i => ∃ a, w.actors[i]? = some a ∧ a.mailbox.status = .uninitialized

/-- A rendezvous is kept in one place, once. -/
def Keeps (w : World σ) (p : Place) (r : Nat) : Prop :=
  w.Lasting p ∧ ∀ q, (w.keptAt q).count r = if q = p then 1 else 0

variable {w : World σ}

theorem exists_of_mem_keptAt {p : Place} {r : Nat} (mem : r ∈ w.keptAt p) :
    ∃ a, w.actors[p.owner]? = some a ∧ r ∈ a.slots := by
  cases p with
  | queue i | dispatch i | pending i | creation i =>
    cases found : w.actors[i]? with
    | none => simp [keptAt, found] at mem
    | some a =>
      refine ⟨a, found, ?_⟩
      simp only [keptAt, found, Option.map_some, Option.getD_some] at mem
      simp only [Actor.slots, Actor.owed, List.mem_append, mem, true_or, or_true]

/-- What is due is due from one actor. -/
private theorem owner_unique (once : w.slots.Nodup) {i j r : Nat} {a b : Actor}
    (found : w.actors[i]? = some a) (own : r ∈ a.slots) (there : w.actors[j]? = some b)
    (mem : r ∈ b.slots) : j = i := by
  have apart := List.pairwise_iff_getElem.1 (List.nodup_flatMap.1 once).2
  obtain ⟨li, hi⟩ := List.getElem?_eq_some_iff.1 found
  obtain ⟨lj, hj⟩ := List.getElem?_eq_some_iff.1 there
  rcases Nat.lt_trichotomy j i with lt | e | lt
  · have disjoint := apart j i lj li lt
    simp only [Function.onFun, hi, hj] at disjoint
    exact absurd own (disjoint mem)
  · exact e
  · have disjoint := apart i j li lj lt
    simp only [Function.onFun, hi, hj] at disjoint
    exact absurd mem (disjoint own)

end World

/-- What is due is kept in one place. -/
theorem Ledger.keeps {w : World σ} (ledger : Ledger w.slots w) (h : Sound w) {r : Nat}
    (due : r ∈ w.slots) : ∃ p, w.Keeps p r := by
  obtain ⟨a, ha, own⟩ := List.mem_flatMap.1 due
  obtain ⟨i, found⟩ := List.getElem?_of_mem ha
  have tidy := (h.actors i a found).tidy
  have elsewhere : ∀ q : Place, q.owner ≠ i → (w.keptAt q).count r = 0 := by
    intro q other
    refine List.count_eq_zero.2 fun mem => ?_
    obtain ⟨b, there, mem⟩ := World.exists_of_mem_keptAt mem
    exact other (World.owner_unique ledger.nodup found own there mem)
  have once : a.slots.count r = 1 :=
    List.count_eq_one_of_mem ((List.nodup_flatMap.1 ledger.nodup).1 a ha) own
  have counts : (w.keptAt (.queue i)).count r + (w.keptAt (.creation i)).count r +
      (w.keptAt (.pending i)).count r + (w.keptAt (.dispatch i)).count r = 1 := by
    simpa only [Actor.slots, Actor.owed, List.count_append, World.keptAt, found, Option.map_some,
      Option.getD_some] using once
  -- One of the four places of the actor has it, and the others do not.
  have keeps : ∀ p : Place, p.owner = i → r ∈ w.keptAt p → w.Lasting p → w.Keeps p r := by
    intro p mine here lasting
    have positive := List.count_pos_iff.2 here
    refine ⟨lasting, fun q => ?_⟩
    by_cases other : q.owner = i
    · subst mine
      cases p <;> cases q <;> simp only [Place.owner] at other positive counts ⊢ <;>
        subst other <;> simp <;> omega
    · have ne : q ≠ p := by
        rintro rfl
        exact other mine
      rw [if_neg ne, elsewhere q other]
  have there : i < w.actors.length := (List.getElem?_eq_some_iff.1 found).1
  simp only [Actor.slots, Actor.owed, List.mem_append] at own
  rcases own with ((queued | created) | settled) | dispatched
  · refine ⟨.queue i, keeps _ rfl (by simpa [World.keptAt, found] using queued) ⟨a, found, ?_⟩⟩
    intro halted
    rw [tidy.queue halted] at queued
    cases queued
  · refine ⟨.creation i, keeps _ rfl (by simpa [World.keptAt, found] using created) ⟨a, found, ?_⟩⟩
    by_contra started
    rw [tidy.creation started] at created
    cases created
  · exact ⟨.pending i, keeps _ rfl (by simpa [World.keptAt, found] using settled) there⟩
  · exact ⟨.dispatch i, keeps _ rfl (by simpa [World.keptAt, found] using dispatched) there⟩

end SteeredActors
