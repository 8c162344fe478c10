import SteeredActors.Proofs.Controller.Accounting

/-!
# Controllers of ended runs

Once a controller has an outcome, calls still change the statuses of operations and may take the
strategy away, and nothing else: neither the outcome nor the decisions, the steps or the turn. Whoever
could have had to wait is turned down, and whoever waited at the end goes on with the news of it.
-/

set_option autoImplicit false
set_option relaxedAutoImplicit false

namespace SteeredActors

variable {σ : Type}

/-- How a call is turned down once the run has ended. -/
def Call.refusal? : Call → Option Reply
  | .schedule _ _ | .waitForTurn _ => some (.passage .canceled)
  | .nextBool => some (.truth none)
  | .nextInt _ => some (.number none)
  | .reportBug _ | .terminate _ => some (.ended false)
  | .register _ | .enable _ | .disable _ | .block _ | .unblock _ | .complete _ _
  | .takeStrategy => none

namespace Controller

/-- A controller as it is made. -/
inductive Fresh : Controller σ → Prop where
  | production : Fresh (.production σ)
  | exploration (strategy : σ) (maxSteps : Nat) : Fresh (.exploration strategy maxSteps)

theorem Fresh.outcome {c : Controller σ} (fresh : c.Fresh) : c.outcome = none := by
  cases fresh <;> rfl

/-- Two controllers tell the same about their runs. -/
structure SameStory (c d : Controller σ) : Prop where
  outcome : d.outcome = c.outcome
  recorded : d.trace = c.trace
  steps : d.steps = c.steps
  scheduled : d.scheduled = c.scheduled

namespace SameStory

variable {c d e : Controller σ}

theorem refl (c : Controller σ) : c.SameStory c := ⟨rfl, rfl, rfl, rfl⟩

theorem trans (h : c.SameStory d) (k : d.SameStory e) : c.SameStory e :=
  ⟨k.outcome.trans h.outcome, k.recorded.trans h.recorded, k.steps.trans h.steps,
    k.scheduled.trans h.scheduled⟩

theorem isOver (h : c.SameStory d) : d.isOver = c.isOver := by
  rw [Controller.isOver, Controller.isOver, h.outcome]

end SameStory

/-- The controller after a call that decides nothing. -/
private def noted (c : Controller σ) : Call → Controller σ
  | .register name => (c.register name).2
  | .enable op => c.enable op
  | .disable op => c.disable op
  | .block op => c.block op
  | .unblock op => c.unblock op
  | .complete op _ => c.setStatus op [.enabled, .disabled, .blocked] .completed
  | .takeStrategy => c.takeStrategy.2
  | .schedule _ _ | .waitForTurn _ | .nextBool | .nextInt _ | .reportBug _ | .terminate _ => c

private theorem sameStory_noted (c : Controller σ) (call : Call) : c.SameStory (c.noted call) := by
  cases call <;> exact ⟨rfl, rfl, rfl, rfl⟩

/-- No strategy is asked for the answer of a call: any other strategy on the same states would leave
the same controller. -/
def Unasked (c : Controller σ) (call : Call) : Prop :=
  ∀ one other : Strategy σ,
    (@perform σ one c call).2 = (@perform σ other c call).2

variable [Strategy σ]

/-- No call decides anything in a run that has ended. -/
private theorem perform_of_isOver {c : Controller σ} (ceased : c.isOver = true) (call : Call) :
    (c.perform call).2 = c.noted call := by
  cases call with
  | register | enable | disable | block | unblock | waitForTurn | takeStrategy => rfl
  | complete op kind =>
    have done : (c.setStatus op [.enabled, .disabled, .blocked] .completed).isOver = true := ceased
    simp [perform, complete, done, noted]
  | schedule op kind => simp [perform, schedule, ceased, noted]
  | nextBool => simp [perform, nextBool_of_isOver ceased, noted]
  | nextInt max => simp [perform, nextInt_of_isOver ceased, noted]
  | reportBug report => exact finish_of_isOver ceased (.bugFound report)
  | terminate outcome => exact finish_of_isOver ceased outcome

theorem sameStory_perform {c : Controller σ} (ceased : c.isOver = true) (call : Call) :
    c.SameStory (c.perform call).2 :=
  perform_of_isOver ceased call ▸ c.sameStory_noted call

theorem sameStory_after {c : Controller σ} (ceased : c.isOver = true) (calls : List Call) :
    c.SameStory (c.after calls) := by
  induction calls using List.reverseRecOn with
  | nil => exact .refl c
  | append_singleton calls call ih =>
    rw [after_concat]
    exact ih.trans (sameStory_perform (ih.isOver.trans ceased) call)

omit [Strategy σ] in
theorem unasked_of_isOver {c : Controller σ} (ceased : c.isOver = true) (call : Call) :
    c.Unasked call :=
  fun one other => (@perform_of_isOver σ one c ceased call).trans
    (@perform_of_isOver σ other c ceased call).symm

theorem refused_of_isOver {c : Controller σ} (ceased : c.isOver = true) {call : Call} {reply : Reply}
    (refusal : call.refusal? = some reply) : (c.perform call).1 = reply := by
  cases call with
  | register | enable | disable | block | unblock | complete | takeStrategy => cases refusal
  | schedule op kind =>
    cases refusal
    simp [perform, schedule, ceased]
  | waitForTurn op =>
    cases refusal
    simp [perform, waitForTurn, ceased]
  | nextBool =>
    cases refusal
    simp [perform, nextBool_of_isOver ceased]
  | nextInt max =>
    cases refusal
    simp [perform, nextInt_of_isOver ceased]
  | reportBug report =>
    cases refusal
    simp [perform, reportBug, terminate, ceased]
  | terminate outcome =>
    cases refusal
    simp [perform, terminate, ceased]

/-- Whatever trace a bug is reported with, it is kept with the decisions recorded until then. -/
theorem reported_after {c₀ : Controller σ} (fresh : c₀.Fresh) (calls : List Call)
    {report : BugReport} (found : (c₀.after calls).outcome = some (.bugFound report)) :
    report.trace = (c₀.after calls).trace := by
  induction calls using List.reverseRecOn with
  | nil =>
    have none : (c₀.after []).outcome = none := fresh.outcome
    rw [none] at found
    cases found
  | append_singleton calls call ih =>
    rw [after_concat] at found ⊢
    cases ceased : (c₀.after calls).isOver with
    | true =>
      have same := sameStory_perform ceased call
      rw [same.recorded]
      exact ih (same.outcome ▸ found)
    | false =>
      by_cases given : call = .takeStrategy
      · subst given
        have running : (c₀.after calls).outcome = none := by simpa [isOver] using ceased
        have kept : ((c₀.after calls).perform .takeStrategy).2.outcome = none := running
        rw [kept] at found
        cases found
      · exact (Steers.perform _ given).reported ceased report found

end Controller

/-! ## Waiting callers -/

namespace Session

variable [Strategy σ]

/-- The session after some calls. -/
def after (s : Session σ) (calls : List Call) : Session σ :=
  calls.foldl (fun s call => (s.perform call).2) s

@[simp] theorem controller_after (s : Session σ) (calls : List Call) :
    (s.after calls).controller = s.controller.after calls := by
  induction calls generalizing s with
  | nil => rfl
  | cons call calls ih => exact ih (s.perform call).2

/-- A call that ends the run, or finds it ended, does not wait. -/
private theorem ofReply?_of_isOver {c : Controller σ} {call : Call}
    (ceased : (c.perform call).2.isOver = true) :
    Waiting.ofReply? call (c.perform call).1 = none := by
  cases call with
  | schedule op kind =>
    have canceled : (c.schedule op kind).1 ≠ .waits := by
      have ceased : (c.schedule op kind).2.isOver = true := ceased
      unfold Controller.schedule at ceased ⊢
      grind [Controller.passage_eq_canceled_iff]
    simp only [Controller.perform]
    cases answer : (c.schedule op kind).1 with
    | waits => exact absurd answer canceled
    | canceled | passed => rfl
  | waitForTurn op =>
    have ceased : c.isOver = true := ceased
    simp [Controller.perform, Controller.waitForTurn, ceased, Waiting.ofReply?]
  | register | enable | disable | block | unblock | complete | nextBool | nextInt | reportBug
  | terminate | takeStrategy => rfl

/-- Everyone who waits when the run ends is told so, and nobody waits any more. -/
theorem released {s : Session σ} {call : Call}
    (ceased : (s.perform call).2.controller.isOver = true) :
    (s.perform call).1.2 = s.waiting.map (·, .canceled) ∧ (s.perform call).2.waiting = [] := by
  have ceased : (s.controller.perform call).2.isOver = true := ceased
  have stands (w : Waiting) : (s.controller.perform call).2.passage w.operation = .canceled :=
    Controller.passage_eq_canceled_iff.2 ceased
  have goes : (Passage.canceled != .waits) = true := rfl
  have stays : (Passage.canceled == .waits) = false := rfl
  simp [perform, ofReply?_of_isOver ceased, stands, goes, stays]

end Session

/-! ## The end -/

/-- What the end of a run settles for the controller that calls have brought there. -/
structure Controller.Final [Strategy σ] (start : Controller σ) (calls : List Call) : Prop where
  /-- No later call changes the outcome, the decisions, the steps or the turn. -/
  kept : ∀ later, (start.after calls).SameStory (start.after (calls ++ later))
  unasked : ∀ later call, (start.after (calls ++ later)).Unasked call
  refused : ∀ later call, ∀ reply ∈ call.refusal?,
    ((start.after (calls ++ later)).perform call).1 = reply
  /-- The call with which the run ended released everyone who waited. -/
  released : ∀ before call rest, calls = before ++ call :: rest →
    (start.after (before ++ [call])).isOver = true →
    (((Session.ofController start).after before).perform call).1.2 =
        ((Session.ofController start).after before).waiting.map (·, .canceled) ∧
      (((Session.ofController start).after before).perform call).2.waiting = []
  reported : ∀ report, (start.after calls).outcome = some (.bugFound report) →
    report.trace = (start.after calls).trace

namespace Controller

variable [Strategy σ]

theorem after_append (c : Controller σ) (calls later : List Call) :
    c.after (calls ++ later) = (c.after calls).after later := by
  simp [after]

theorem final_of_isOver {start : Controller σ} {calls : List Call} (fresh : start.Fresh)
    (ceased : (start.after calls).isOver = true) : start.Final calls where
  kept later := start.after_append calls later ▸ sameStory_after ceased later
  unasked later call := by
    rw [after_append]
    exact unasked_of_isOver ((sameStory_after ceased later).isOver.trans ceased) call
  refused later call reply refusal := by
    rw [after_append]
    exact refused_of_isOver ((sameStory_after ceased later).isOver.trans ceased) refusal
  released before call rest _ ended := by
    have same := Session.controller_after (.ofController start) (before ++ [call])
    simp only [Session.after, List.foldl_append, List.foldl_cons, List.foldl_nil] at same
    exact Session.released (same ▸ ended)
  reported report found := reported_after fresh calls found

end Controller

end SteeredActors
