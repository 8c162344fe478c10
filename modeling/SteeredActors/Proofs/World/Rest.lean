import SteeredActors.Proofs.World.SlotSteps

/-!
# Replies and rest

A reply that a call waits for is kept by the actor that was called, and given when that actor comes
to rest. There is one exception: an actor that discards the event while it selects another one gives
the reply at once and goes on.
-/

set_option autoImplicit false
set_option relaxedAutoImplicit false

namespace SteeredActors

variable {σ : Type}

theorem World.Targets.unique {w : World σ} {i j : Nat} (h : w.Targets i) (k : w.Targets j) :
    i = j := by
  rcases h with ⟨event, next⟩ | ⟨rfl, _, _, _, _, next⟩
  · rcases k with ⟨event', next'⟩ | ⟨_, _, _, _, _, next'⟩ <;> rw [next] at next'
    · exact (Task.engage.inj (Option.some.inj next')).1
    · cases next'
  · rcases k with ⟨event', next'⟩ | ⟨rfl, _⟩
    · rw [next] at next'
      cases next'
    · rfl

/-- Between two worlds a call of the actor at a position begins, which waits for a rendezvous. -/
structure World.Begins (w w' : World σ) (i r : Nat) : Prop where
  target : w.Targets i
  slot : r = w.rendezvous.length
  opened : w'.rendezvous.length = w.rendezvous.length + 1

/-- Only rendezvous that are there stand with actors. -/
def World.Bounded (w : World σ) : Prop := ∀ j, ∀ r ∈ w.slotsOf j, r < w.rendezvous.length

/-- A rendezvous that is opened has no reply. -/
theorem Opens.replied? {w w' : World σ} {op r : Nat} (opens : Opens op w w')
    (due : w.replied? r = none) : w'.replied? r = none := by
  rw [World.replied?, opens.rendezvous, List.getElem?_append]
  split
  · exact due
  · cases found : ([⟨some op, none⟩] : List Rendezvous)[r - w.rendezvous.length]? with
    | none => rfl
    | some z =>
      obtain rfl := List.mem_singleton.1 (List.mem_of_getElem? found)
      rfl

namespace SlotStep

variable {w w' : World σ}

theorem rendezvous_le (step : SlotStep w w') :
    w.rendezvous.length ≤ w'.rendezvous.length := by
  cases step with
  | keeps _ dues => exact Nat.le_of_eq (by rw [dues.rendezvous])
  | opens _ _ _ _ _ dues => simp [dues.rendezvous]
  | refused _ _ _ _ opened dues =>
    rw [dues.rendezvous, World.length_replyEach, opened.rendezvous]
    simp
  | rests _ _ _ dues | drops _ _ _ dues =>
    exact Nat.le_of_eq (by rw [dues.rendezvous, World.length_replyEach])

/-- Where a rendezvous stands it stood before, unless it is the one of a call that begins. -/
theorem mem_slotsOf (step : SlotStep w w') {j r : Nat} (mem : r ∈ w'.slotsOf j) :
    r ∈ w.slotsOf j ∨
      w.Targets j ∧ r = w.rendezvous.length ∧ w'.rendezvous.length = r + 1 := by
  cases step with
  | keeps slots _ => exact .inl ((slots j).mem_iff.2 mem)
  | @opens i op waiter enabled target others own dues =>
    by_cases e : j = i
    · subst e
      rcases List.mem_cons.1 (own.mem_iff.1 mem) with rfl | old
      · exact .inr ⟨target, rfl, by simp [dues.rendezvous]⟩
      · exact .inl old
    · exact .inl ((others j e).mem_iff.2 mem)
  | refused waiter enabled target slots _ _ => exact .inl ((slots j).mem_iff.2 mem)
  | @rests i b given lost mine others own dues there rest faithful =>
    by_cases e : j = i
    · subst e
      exact .inl (own.mem_iff.2 (by simp [mem]))
    · exact .inl ((others j e).mem_iff.2 mem)
  | @drops i given mine others own dues passing =>
    by_cases e : j = i
    · subst e
      exact .inl (own.mem_iff.2 (by simp [mem]))
    · exact .inl ((others j e).mem_iff.2 mem)

theorem bounded (step : SlotStep w w') (h : w.Bounded) : w'.Bounded := by
  intro j r mem
  rcases step.mem_slotsOf mem with old | ⟨_, _, length⟩
  · exact Nat.lt_of_lt_of_le (h j r old) step.rendezvous_le
  · omega

/-- A reply is given by an actor that has it to give and is at rest then, unless it discards the
event in passing, or at once if the actor that is called has halted. -/
theorem replied (step : SlotStep w w') {r : Nat} {b : Bool} (due : w.replied? r = none)
    (replied : w'.replied? r = some b) :
    (∃ i a, r ∈ w.slotsOf i ∧ w'.actors[i]? = some a ∧
        (a.mailbox.status = .idle ∨ a.mailbox.status = .halted)) ∨
      (∃ i, r ∈ w.slotsOf i ∧ w.DiscardsInPassing i r) ∨
      ∃ i a, r = w.rendezvous.length ∧ w.Targets i ∧ w'.actors[i]? = some a ∧
        a.mailbox.status = .halted := by
  have absurd_of : ∀ {p : Prop}, w'.replied? r = none → p := by
    intro p none
    rw [none] at replied
    cases replied
  -- Only the rendezvous that replies are given to have them afterwards.
  have given_of : ∀ {w₁ : World σ} {given : List (Nat × Bool)}, w₁.replied? r = none →
      SameDues (w₁.replyEach given) w' → r ∈ given.map (·.1) := by
    intro w₁ given due dues
    by_contra other
    refine absurd_of ?_
    rw [World.replied?, dues.rendezvous, World.rendezvous_replyEach_of_not_mem _ other]
    exact due
  cases step with
  | keeps _ dues =>
    refine absurd_of ?_
    rw [World.replied?, dues.rendezvous]
    exact due
  | opens _ _ _ _ _ dues => exact absurd_of (dues.replied? due)
  | @refused i op w₁ a _ _ target _ opened dues there rest =>
    have mem := given_of (opened.replied? due) dues
    exact .inr (.inr ⟨i, a, by simpa using mem, target, there, rest⟩)
  | @rests i a given lost _ _ own dues there rest _ =>
    exact .inl ⟨i, a, own.mem_iff.2 (List.mem_append_left _ (given_of due dues)), there, rest⟩
  | @drops i given _ _ own dues passing =>
    have mem := given_of due dues
    exact .inr (.inl ⟨i, own.mem_iff.2 (List.mem_append_left _ mem), passing r mem⟩)

end SlotStep

/-- An actor that discards events in passing goes on. -/
theorem Transition.running_of_discardsInPassing [Strategy σ] {w w' : World σ} (h : Sound w)
    (step : Transition (World.threadOf w.controller.scheduled) w w') {i r : Nat}
    (passing : w.DiscardsInPassing i r) :
    ∃ a, w'.actors[i]? = some a ∧ a.mailbox.status = .running := by
  obtain ⟨turn, next, a, top, selected, discarded, mailbox, found, running, quiet, current,
    dequeued, goesOn, _⟩ := passing
  have holder : World.threadOf w.controller.scheduled = .actor i := by rw [turn]; rfl
  rw [holder] at step
  have head : ∀ {x rest outside}, w.thread? (.actor i) = some ⟨x :: rest, outside⟩ →
      x = .cycle i := by
    intro x rest outside thread
    rw [← holder] at thread
    rw [World.next?_of_thread thread] at next
    exact Option.some.inj next
  have selects : ∀ {mailbox' : Mailbox} {tasks : List Task} {discarded' : List Envelope},
      w.thread? (.actor i) = some ⟨[.cycle i], false⟩ →
      mailbox'.status = a.mailbox.status →
      ∃ a, (((w.modifyActor i fun a => { a with mailbox := mailbox' }).discard discarded').setThread
        (.actor i) ⟨tasks, false⟩).actors[i]? = some a ∧ a.mailbox.status = .running := by
    intro mailbox' tasks discarded' thread status
    have work := h.atWork_of_cycle thread found running
    have found₁ := World.getElem?_modifyActor (fun a => { a with mailbox := mailbox' }) found
    rw [← (Relieves.discard _ discarded').actors] at found₁
    exact ⟨_, World.getElem?_setThread found₁ _, status.trans work.mailbox⟩
  cases step
  case selects b top' envelope discarded' mailbox' mine thread there running' quiet' current' dequeued' =>
    cases mine
    obtain rfl := Option.some.inj (found.symm.trans there)
    exact selects thread (Mailbox.dequeue_event dequeued').1
  case defaults b top' discarded' mailbox' mine thread there running' quiet' current' dequeued' =>
    cases mine
    obtain rfl := Option.some.inj (found.symm.trans there)
    exact selects thread (Mailbox.dequeue_default dequeued').1
  case idles b top' discarded' mailbox' mine thread there running' quiet' current' dequeued' =>
    cases mine
    obtain rfl := Option.some.inj (found.symm.trans there)
    obtain rfl := Option.some.inj (current.symm.trans current')
    rw [dequeued] at dequeued'
    cases dequeued'
    rcases goesOn with ⟨envelope, e⟩ | e <;> cases e
  case leaves core mine thread own there halted =>
    cases mine
    obtain ⟨b, hb, rfl⟩ := Option.map_eq_some_iff.1 there
    obtain rfl := Option.some.inj (found.symm.trans hb)
    rw [running] at halted
    cases halted
  case obeys core d mine thread there running' raised =>
    cases mine
    obtain ⟨b, hb, rfl⟩ := Option.map_eq_some_iff.1 there
    obtain rfl := Option.some.inj (found.symm.trans hb)
    rw [quiet] at raised
    cases raised
  case starves b mine thread there running' quiet' empty =>
    cases mine
    obtain rfl := Option.some.inj (found.symm.trans there)
    rw [empty] at current
    cases current
  -- No other step begins where an actor selects.
  all_goals exfalso
  case works thread _ busy _ _ _ _ | creates thread _ busy _ _ _ _
  | createsAndWaits thread _ busy _ _ _ _ _ =>
    obtain rfl := head thread
    cases busy
  case shifts mine _ thread _ busy _ _ _ _ _ =>
    obtain rfl := head thread
    cases busy
  case unwinds thread _ feigns _ _ =>
    obtain rfl := head thread
    exact feigns
  case rises mine thread own =>
    obtain rfl := head thread
    rcases own with e | e <;> cases e
  all_goals
    have e := head ‹w.thread? (.actor i) = _›
    cases e

namespace Experiment

variable [Strategy σ] (e : Experiment) {ids : Allocator} {s : σ}

/-- Each step that leaves no outcome does to replies what steps do, or nothing moves. -/
theorem slotStep_or_stuck {n : Nat} (running : (e.iterate (n + 1) ids s).isOver = false) :
    SlotStep (e.iterate n ids s) (e.iterate (n + 1) ids s) ∨
      e.iterate (n + 1) ids s = e.iterate n ids s := by
  have before := e.running_of_succ ids s running
  rcases e.transition_or_stuck running with step | same
  · exact .inl ((e.sound before).slotStep (e.poised before) (e.allAimed before) step)
  · exact .inr same

/-- Only rendezvous that are there stand with actors. -/
theorem bounded {n : Nat} (running : (e.iterate n ids s).isOver = false) :
    (e.iterate n ids s).Bounded := by
  induction n with
  | zero =>
    intro j r mem
    cases mem
  | succ n ih =>
    have h := ih (e.running_of_succ ids s running)
    rcases e.slotStep_or_stuck running with step | same
    · exact step.bounded h
    · rw [same]
      exact h

variable {m n i r : Nat}

/-- The rendezvous of a call stands with the actor that was called and with no other one. -/
theorem eq_of_mem_slotsOf
    (begins : (e.iterate m ids s).Begins (e.iterate (m + 1) ids s) i r) (later : m < n)
    (running : (e.iterate n ids s).isOver = false) :
    r < (e.iterate n ids s).rendezvous.length ∧ ∀ j, r ∈ (e.iterate n ids s).slotsOf j → j = i := by
  induction n with
  | zero => omega
  | succ n ih =>
    have before := e.running_of_succ ids s running
    by_cases first : m = n
    · subst first
      refine ⟨by rw [begins.opened, begins.slot]; omega, fun j mem => ?_⟩
      rcases e.slotStep_or_stuck running with step | same
      · rcases step.mem_slotsOf mem with old | ⟨target, _⟩
        · have := e.bounded before j r old
          rw [begins.slot] at this
          omega
        · exact target.unique begins.target
      · have := begins.opened
        rw [same] at this
        omega
    · obtain ⟨there, kept⟩ := ih (by omega) before
      rcases e.slotStep_or_stuck running with step | same
      · refine ⟨Nat.lt_of_lt_of_le there step.rendezvous_le, fun j mem => ?_⟩
        rcases step.mem_slotsOf mem with old | ⟨_, new, _⟩
        · exact kept j old
        · omega
      · rw [same]
        exact ⟨there, kept⟩

/-- When the reply of a call is given, the actor that was called is at rest, unless it discards the
event in passing while it selects another one. -/
theorem at_rest_iff_of_replied {b : Bool} (later : m ≤ n)
    (running : (e.iterate (n + 1) ids s).isOver = false)
    (begins : (e.iterate m ids s).Begins (e.iterate (m + 1) ids s) i r)
    (due : (e.iterate n ids s).replied? r = none)
    (replied : (e.iterate (n + 1) ids s).replied? r = some b) :
    (∃ a, (e.iterate (n + 1) ids s).actors[i]? = some a ∧
        (a.mailbox.status = .idle ∨ a.mailbox.status = .halted)) ↔
      ¬(e.iterate n ids s).DiscardsInPassing i r := by
  have before := e.running_of_succ ids s running
  constructor
  · rintro ⟨a, found, rest⟩ passing
    rcases e.transition_or_stuck running with step | same
    · obtain ⟨a', found', status⟩ := step.running_of_discardsInPassing (e.sound before) passing
      obtain rfl := Option.some.inj (found.symm.trans found')
      rw [status] at rest
      rcases rest with h | h <;> cases h
    · rw [same, due] at replied
      cases replied
  · intro goesOn
    rcases e.slotStep_or_stuck running with step | same
    · -- Whoever has the reply to give is the actor that was called.
      have own : ∀ j, r ∈ (e.iterate n ids s).slotsOf j → j = i := by
        intro j mem
        rcases Nat.eq_or_lt_of_le later with rfl | later
        · have := e.bounded before j r mem
          rw [begins.slot] at this
          omega
        · exact (e.eq_of_mem_slotsOf begins later before).2 j mem
      rcases step.replied due replied with ⟨j, a, mem, found, rest⟩ | ⟨j, mem, passing⟩ |
        ⟨j, a, last, target, found, halted⟩
      · obtain rfl := own j mem
        exact ⟨a, found, rest⟩
      · obtain rfl := own j mem
        exact absurd passing goesOn
      · rcases Nat.eq_or_lt_of_le later with rfl | later
        · obtain rfl := target.unique begins.target
          exact ⟨a, found, .inr halted⟩
        · have := (e.eq_of_mem_slotsOf begins later before).1
          omega
    · rw [same, due] at replied
      cases replied

/-- The test creates a machine that ignores an event and is never out of work, sends it that event
and waits. -/
def ticking : Experiment where
  settings := .exploration
  registry :=
    let only : StateDescriptor :=
      ⟨"Only", true, none, none, none,
        [(⟨"Ping"⟩, .ignore), (.default, .action fun o => .finish o.memory .ok)]⟩
    ⟨[⟨"Ticking", .machine, [only], only, []⟩]⟩
  test :=
    .ask .own (.create "Ticking" none none false) fun
      | .ok (.actor id) =>
        .ask .own (.sendAndExecute id (.ofType ⟨"Ping"⟩)) fun _ => .finish {} .ok
      | _ => .finish {} .ok

/-- The test calls before the machine has its first turn. -/
def callFirst : ScriptedStrategy := .ofAnswers [.ok 0, .ok 1]

/-- The machine discards the event in passing, and the test has its reply while it runs. -/
theorem not_at_rest_ticking :
    (ticking.iterate 13 ⟨0, 0⟩ callFirst).isOver = false ∧
      (ticking.iterate 12 ⟨0, 0⟩ callFirst).replied? 0 = none ∧
      (ticking.iterate 13 ⟨0, 0⟩ callFirst).replied? 0 = some false ∧
      ¬∃ a, (ticking.iterate 13 ⟨0, 0⟩ callFirst).actors[0]? = some a ∧
        (a.mailbox.status = .idle ∨ a.mailbox.status = .halted) := by
  have begins : (ticking.iterate 7 ⟨0, 0⟩ callFirst).Begins (ticking.iterate 8 ⟨0, 0⟩ callFirst) 0 0 :=
    ⟨.inl ⟨_, rfl⟩, rfl, rfl⟩
  have passing : (ticking.iterate 12 ⟨0, 0⟩ callFirst).DiscardsInPassing 0 0 :=
    ⟨rfl, rfl, _, _, _, _, _, rfl, rfl, rfl, rfl, rfl, .inr rfl, .head _⟩
  refine ⟨rfl, rfl, rfl, fun rest => ?_⟩
  exact (ticking.at_rest_iff_of_replied (m := 7) (by decide) rfl begins rfl rfl).1 rest passing

end Experiment

end SteeredActors
