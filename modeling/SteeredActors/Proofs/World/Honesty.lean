import SteeredActors.Proofs.World.Responses
import SteeredActors.Proofs.World.Runs

/-!
# Failures that tell of the end

The runtime tells programs to unwind only in a run that has ended, or when an action unwinds though
nobody told it to. So in a run whose actions fail that way only when they were told to, none does
as long as the run goes on.
-/

set_option autoImplicit false
set_option relaxedAutoImplicit false

namespace SteeredActors

variable {σ : Type}

/-- A service that tells to unwind only in a run that has ended. -/
def Service.Truthful : Service σ → Prop
  | .now (.error failure) w => failure.isTermination = true → w.isOver = true
  | .now (.ok _) _ | .later _ _ => True

namespace World

variable {w : World σ}

/-! ## Requests -/

private theorem truthful_refuse {r : Refusal} (h : r.isTermination = false ∨ w.isOver = true) :
    (w.refuse r).Truthful := by
  intro ends
  rcases h with h | ceased
  · rw [show r.isTermination = true from ends] at h
    cases h
  · exact ceased

private theorem truthful_failAssertion (actor : Option ActorId) (message : String) :
    ((w.failAssertion actor message).2.refuse (w.failAssertion actor message).1).Truthful :=
  truthful_refuse (.inr (Controller.isOver_finish _ _))

private theorem truthful_ensureMachine {core : Option Core} {what : String} {r : Refusal}
    (failed : ensureMachine core what = .error r) : (w.refuse r).Truthful := by
  refine truthful_refuse (.inl ?_)
  unfold ensureMachine at failed
  split at failed
  · split at failed <;> cases failed
    rfl
  · cases failed

private theorem truthful_send (caller : Option Nat) (target : ActorId) (event : Event) :
    (w.serveTasks (w.send caller target event)).Truthful := by
  cases sent : w.send caller target event with
  | error r => exact send_eq_error sent
  | ok xs => trivial

private theorem truthful_sendAndExecute (caller : Option Nat) (target : ActorId) (event : Event) :
    (w.sendAndExecute caller target event).Truthful := by
  have sent := w.ofRendezvous caller target event
  generalize w.sendAndExecute caller target event = service at sent
  cases sent with
  | refused honest => exact honest
  | fails text => exact truthful_failAssertion _ text
  | brings => trivial

private theorem truthful_create (caller : Option Nat) (typeTag : String) (name : Option String)
    (event : Option Event) (execute : Bool) :
    (w.create caller typeTag name event execute).Truthful := by
  have created := w.ofCreation caller typeTag name event execute
  generalize w.create caller typeTag name event execute = service at created
  cases created with
  | refused honest => exact honest
  | overflows | taken => exact truthful_refuse (.inl rfl)
  | populates => cases execute <;> trivial

private theorem truthful_serveDemand (context : Option (Subject × Phase × Core)) (d : Demand) :
    (w.serveDemand context d).Truthful := by
  have demanded := w.ofDemand context d
  generalize w.serveDemand context d = service at demanded
  cases demanded with
  | nobody => exact truthful_refuse (.inl rfl)
  | fails text => exact truthful_failAssertion _ text
  | kept => trivial

private theorem isOver_of_choose {c : Controller σ} {kind : PointKind} {ask : σ → Answered σ Nat}
    (none : (c.choose kind ask).1 = none) : (c.choose kind ask).2.isOver = true := by
  unfold Controller.choose at none ⊢
  split
  · assumption
  · next running =>
    rw [if_neg running] at none
    simp only at none ⊢
    split
    · exact Controller.isOver_finish _ _
    · next within =>
      rw [if_neg within] at none
      split
      · exact Controller.isOver_finish _ _
      · next s installed =>
        simp only [installed] at none
        split
        · next value s' chosen =>
          rw [chosen] at none
          cases none
        · exact Controller.isOver_finish _ _

variable [Strategy σ]

private theorem truthful_randomBool : w.randomBool.Truthful := by
  unfold randomBool
  simp only
  split
  · trivial
  · next none =>
    refine truthful_refuse (.inr ?_)
    show w.controller.nextBool.2.isOver = true
    unfold Controller.nextBool at none ⊢
    cases mode : w.controller.mode with
    | production =>
      simp only [mode] at none ⊢
      split at none
      · assumption
      · cases none
    | exploration =>
      simp only [mode, Option.map_eq_none_iff] at none ⊢
      exact isOver_of_choose none

private theorem truthful_randomInt (max : Nat) : (w.randomInt max).Truthful := by
  unfold randomInt
  simp only
  split
  · trivial
  · next none =>
    refine truthful_refuse (.inr ?_)
    show (w.controller.nextInt max).2.isOver = true
    unfold Controller.nextInt at none ⊢
    cases mode : w.controller.mode with
    | production =>
      simp only [mode] at none ⊢
      split at none
      · assumption
      · cases none
    | exploration =>
      simp only [mode] at none ⊢
      exact isOver_of_choose none

/-- A request is refused with the signal to unwind only in a run that has ended. -/
theorem truthful_serve (caller : Option Nat) (speaker : Speaker) (voice : Voice)
    (request : Request) : (w.serve caller speaker voice request).Truthful := by
  cases request <;> simp only [serve]
  case send =>
    split
    · next failed => exact truthful_ensureMachine failed
    · exact truthful_send _ _ _
  case sendAndExecute =>
    split
    · next failed => exact truthful_ensureMachine failed
    · exact truthful_sendAndExecute _ _ _
  case create =>
    split
    · next failed => exact truthful_ensureMachine failed
    · exact truthful_create _ _ _ _ _
  case raise | goto | push | pop => exact truthful_serveDemand _ _
  case startTimer =>
    split
    · next failed => exact truthful_ensureMachine failed
    · exact truthful_refuse (.inl rfl)
    · exact truthful_create _ _ _ _ _
  case stopTimer =>
    split
    · next failed => exact truthful_ensureMachine failed
    · exact truthful_send _ _ _
  case assert =>
    unfold assert
    split
    · next ceased =>
      refine truthful_refuse (.inr ?_)
      simp only [Bool.and_eq_true] at ceased
      exact ceased.2
    · split
      · trivial
      · exact truthful_failAssertion _ _
  case randomBool => exact truthful_randomBool
  case randomInt => exact truthful_randomInt _
  case monitor =>
    split
    · next failed => exact truthful_ensureMachine failed
    · next failed => exact truthful_refuse (.inr (isOver_of_ensureRunning failed))
    · trivial
  case registerMonitor typeTag =>
    cases begun : w.registerMonitor typeTag with
    | error r => exact registerMonitor_eq_error begun
    | ok xs => trivial
  case waitForQuiescence =>
    split
    · exact truthful_refuse (.inl rfl)
    · trivial
  case access =>
    split
    · trivial
    · intro ends
      cases ends
  all_goals trivial

/-! ## Tasks -/

/-- A task unwinds with that signal only in a run that has ended, or if an action pretends so. -/
theorem isOver_or_feigns_of_exec {t : ThreadId} {x : Task} {failure : Failure} {v : World σ}
    (executed : w.exec t x = .answer (.error failure) v) (ends : failure.isTermination = true) :
    v.isOver = true ∨ x.Feigns := by
  cases responds_of_exec executed with
  | lacks _ _ own =>
    cases failure with
    | runtime r => exact absurd rfl (own r)
    | access | keyNotFound | other | within => cases ends
  | misses | repeats | strange => cases ends
  | ends _ _ ceased => exact .inl ceased
  | unwinds _ _ _ feigns => exact .inr feigns

/-! ## Calls that return -/

omit [Strategy σ] in
/-- An answer as the first of the tasks that waits for one gets it. -/
def received (a : Answer) (tasks : List Task) : Option Answer :=
  tasks.findSome? fun
    | .resume _ _ shared _ => some (adaptAnswer shared a)
    | _ => none

/-- What a call of the holder of the turn returns, if one does in the next step. -/
def answer? (w : World σ) : Option Answer :=
  let t := threadOf w.controller.scheduled
  match w.thread? t with
  | some ⟨.perform speaker (.ask voice request _) :: _, outside⟩ =>
    match w.serve (if outside || voice == .outsider then none else w.operation? t) speaker voice
        request with
    | .now a _ => some a
    | .later _ _ => none
  | some ⟨x :: rest, _⟩ =>
    match w.exec t x with
    | .answer a _ => received a rest
    | .wait | .go _ _ => none
  | some ⟨[], _⟩ | none => none

omit [Strategy σ] in
/-- What an action of the holder of the turn fails with, if one does in the next step. -/
def failure? (w : World σ) : Option Failure :=
  match w.next? with
  | some (.perform (.action _ _) (.finish _ (.failed failure))) => some failure
  | _ => none

omit [Strategy σ] in
private theorem received_error {a : Answer} {tasks : List Task} {failure : Failure}
    (got : received a tasks = some (.error failure)) (ends : failure.isTermination = true) :
    a = .error failure := by
  obtain ⟨x, _, adapted⟩ := List.exists_of_findSome?_eq_some got
  cases x
  case resume speaker outside shared next _ =>
    have adapted := Option.some.inj adapted
    unfold adaptAnswer at adapted
    split at adapted
    · cases shared with
      | true =>
        cases adapted
        cases ends
      | false => exact adapted
    · exact adapted
  all_goals cases adapted

end World

private theorem Posture.owned {own : Option Nat} {speaker : Speaker} {program : Program}
    {rest : List Task} {outside : Bool}
    (posture : Posture own ⟨.perform speaker program :: rest, outside⟩) :
    speaker.OwnedBy own (awaited rest) := by
  cases posture with
  | working works =>
    cases works with
    | test none => exact none
    | cons fits =>
      cases speaker with
      | action c phase => exact fits
      | test | sleeper j => exact fits.elim

/-- In a run that goes on a call returns the signal to unwind only if an action pretends that. -/
theorem Sound.feigns_of_answer [Strategy σ] {w w' : World σ} (h : Sound w) (poised : Poised w)
    (moved : w.stepThread? (World.threadOf w.controller.scheduled) = some w')
    (goesOn : w'.isOver = false) {failure : Failure} (answered : w.answer? = some (.error failure))
    (ends : failure.isTermination = true) : ∃ x, w.next? = some x ∧ x.Feigns := by
  obtain ⟨⟨tasks, outside⟩, found, posture, turn⟩ := h.holder poised
  have known := World.threadOf_ne_sleeper w.controller.scheduled
  cases tasks with
  | nil => simp [World.answer?, found] at answered
  | cons x rest =>
    have head := World.next?_of_thread found
    -- Whoever asks and is answered at once still has the thread.
    by_cases asks : ∃ speaker voice request next,
        x = .perform speaker (.ask voice request next)
    · exfalso
      obtain ⟨speaker, voice, request, next, rfl⟩ := asks
      simp only [World.answer?, found] at answered
      generalize hc : (if outside || voice == .outsider then none
        else w.operation? (World.threadOf w.controller.scheduled)) = caller at answered
      have inside : caller.isSome = true → (outside || voice == .outsider) = false := by
        intro some
        by_contra out
        rw [if_pos (by simpa only [Bool.not_eq_false] using out)] at hc
        rw [← hc] at some
        cases some
      have mild := w.mild_serve h.explores inside posture.owned voice request
      have truthful := w.truthful_serve caller speaker voice request
      cases served : w.serve caller speaker voice request with
      | later tasks w₁ => simp [served] at answered
      | now a w₁ =>
        rw [served] at answered mild truthful
        obtain rfl := Option.some.inj answered
        cases mild with
        | quiet still =>
          have executed : w.exec (World.threadOf w.controller.scheduled)
              (.perform speaker (.ask voice request next)) =
                .go [.perform speaker (next (.error failure))] w₁ := by
            simp only [World.exec, World.perform, found, hc, served]
          have kept := (still.thread? known).trans found
          rw [World.stepThread?_go found executed kept moved] at goesOn
          rw [World.isOver, World.controller_setThread] at goesOn
          exact Bool.false_ne_true (goesOn.symm.trans (truthful ends))
    · have other : w.answer? = match w.exec (World.threadOf w.controller.scheduled) x with
          | .answer a _ => World.received a rest
          | .wait | .go _ _ => none := by
        unfold World.answer?
        simp only [found]
        split
        · next e =>
          simp only [Option.some.injEq, Thread.mk.injEq, List.cons.injEq] at e
          exact absurd ⟨_, _, _, _, e.1.1⟩ asks
        · next e =>
          simp only [Option.some.injEq, Thread.mk.injEq, List.cons.injEq] at e
          obtain ⟨⟨rfl, rfl⟩, _⟩ := e
          rfl
        · next e => simp at e
        · next e => simp at e
      rw [other] at answered
      cases executed : w.exec (World.threadOf w.controller.scheduled) x with
      | wait | go => simp [executed] at answered
      | answer a w₁ =>
        rw [executed] at answered
        obtain rfl := World.received_error answered ends
        refine ⟨x, head, (World.isOver_or_feigns_of_exec executed ends).resolve_left fun ceased => ?_⟩
        rw [World.stepThread?_answer found executed moved, World.isOver, Controller.isOver,
          World.outcome_deliverAnswer] at goesOn
        rw [World.isOver, Controller.isOver, goesOn] at ceased
        cases ceased

namespace Experiment

variable [Strategy σ]

/-- As long as the run goes on, an action fails with the signal to unwind only after a call returned
it. -/
def Honest (e : Experiment) (ids : Allocator) (s : σ) : Prop :=
  ∀ n failure, (e.iterate n ids s).isOver = false →
    (e.iterate n ids s).failure? = some failure → failure.isTermination = true →
      ∃ m < n, (e.iterate m ids s).answer? = some (.error failure)

variable {e : Experiment} {ids : Allocator} {s : σ}

/-- In an honest run no action unwinds before the end. -/
theorem Honest.not_feigns (honest : e.Honest ids s) {n : Nat}
    (running : (e.iterate n ids s).isOver = false) {x : Task}
    (next : (e.iterate n ids s).next? = some x) : ¬x.Feigns := by
  induction n using Nat.strongRecOn generalizing x with
  | ind n ih =>
    intro feigns
    have fails : ∃ failure, (e.iterate n ids s).failure? = some failure ∧
        failure.isTermination = true := by
      unfold World.failure?
      rw [next]
      unfold Task.Feigns at feigns
      split at feigns
      · exact ⟨_, rfl, feigns⟩
      · exact feigns.elim
    obtain ⟨failure, fails, ends⟩ := fails
    obtain ⟨m, lt, answered⟩ := honest n failure running fails ends
    have goesOn := e.running_of_le ids s (m := m + 1) lt running
    have before := e.running_of_succ ids s goesOn
    obtain ⟨y, next', feigns'⟩ : ∃ y, (e.iterate m ids s).next? = some y ∧ y.Feigns := by
      have sound := e.sound before
      cases moved : (e.iterate m ids s).step? with
      | none =>
        rw [e.iterate_of_stuck moved (Nat.le_of_lt lt)] at next
        exact ⟨x, next, feigns⟩
      | some w =>
        have same : e.iterate (m + 1) ids s = w := by
          rw [e.iterate_succ, moved, Option.getD_some]
        rw [World.step?_of_running sound.explores before] at moved
        rw [same] at goesOn
        exact sound.feigns_of_answer (e.poised before) moved goesOn answered ends
    exact ih m lt before next' feigns'

end Experiment

end SteeredActors
