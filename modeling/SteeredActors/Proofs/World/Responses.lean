import SteeredActors.Exploration
import SteeredActors.Proofs.Controller.Turn

/-!
# What a task answers

One relation says what a task may answer the program that waits, and which world it leaves then. Few
tasks bring a value. An error tells that the request was out of order, that the run has ended, or that an
action unwinds. What holds of all answers is read off from that, without a look at how tasks are done.
-/

set_option autoImplicit false
set_option relaxedAutoImplicit false

namespace SteeredActors

variable {σ : Type}

/-- A task may answer, and leave a world. -/
inductive World.Responds (w : World σ) (t : ThreadId) : Task → Answer → World σ → Prop where
  -- With a value
  | collects (r : Nat) : Responds w t (.collect r) (.ok (.bool (w.collected r))) w
  | lists (value : Value) : Responds w t .listMonitors (.ok value) w
  | reads (typeTag : String) (value : Value) : Responds w t (.readMonitor typeTag) (.ok value) w
  | gives (value : Value) : Responds w t (.answer value) (.ok value) w
  | touches (object : Nat) (operation : SharedOperation) (value : Value) (v : World σ) :
      Responds w t (.touch object operation) (.ok value) v
  -- Since the request was out of order
  | lacks (object : Nat) (operation : SharedOperation) {failure : Failure}
      (own : ∀ r, failure ≠ .runtime r) (v : World σ) :
      Responds w t (.touch object operation) (.error failure) v
  | misses (typeTag : String) (event : Event) (absent : w.monitor? typeTag = none) :
      Responds w t (.notify typeTag event) (.error (.runtime (.unknownMonitor typeTag))) w
  | repeats (d : Descriptor) (id : ActorId) (present : (w.monitor? d.typeTag).isSome)
      (message : String) :
      Responds w t (.install d id) (.error (.runtime (.invalidOperation message))) w
  | strange (kind : PointKind) (nobody : w.caller? t = none) (message : String) :
      Responds w t (.point kind) (.error (.runtime (.invalidOperation message))) w
  -- Since the run has ended
  | ends (x : Task) {r : Refusal} (terminates : r.isTermination = true) {v : World σ}
      (ceased : v.isOver = true) : Responds w t x (.error (.runtime r)) v
  /-- An action unwinds, whether or not the run has ended. -/
  | unwinds (c : Subject) (phase : Phase) (memory : Memory) {failure : Failure}
      (feigns : failure.isTermination = true) (v : World σ) :
      Responds w t (.perform (.action c phase) (.finish memory (.failed failure)))
        (.error (.runtime .canceled)) v

/-- If a move answers, `P` tells the answer and the world. -/
@[simp] def Move.Responding (P : Answer → World σ → Prop) : Move σ → Prop
  | .answer a w => P a w
  | .wait | .go _ _ => True

namespace World

variable {w : World σ} {t : ThreadId} {x : Task} {P : Answer → World σ → Prop}

private theorem responding_withCore {c : Subject} {f : Core → Move σ}
    (h : ∀ core, (f core).Responding P) : (w.withCore c f).Responding P := by
  unfold withCore
  split
  · exact h _
  · trivial

private theorem responding_withActor {i : Nat} {f : Actor → Move σ}
    (h : ∀ a, (f a).Responding P) : (w.withActor i f).Responding P := by
  unfold withActor
  split
  · exact h _
  · trivial

private theorem responding_withMonitor {m : Nat} {f : Monitor → Move σ}
    (h : ∀ a, (f a).Responding P) : (w.withMonitor m f).Responding P := by
  unfold withMonitor
  split
  · exact h _
  · trivial

private theorem responding_ite {c : Prop} [Decidable c] {yes no : Move σ} (h : c → yes.Responding P)
    (h' : ¬c → no.Responding P) : (if c then yes else no).Responding P := by
  split
  · next holds => exact h holds
  · next fails => exact h' fails

/-! ## Interpretation -/

private theorem responds_canceled {v : World σ} (ceased : v.isOver = true) :
    (v.unwind .canceled).Responding (w.Responds t x) :=
  .ends x rfl ceased

private theorem responds_report (v : World σ) (report : BugReport) {r : Refusal}
    (terminates : r.isTermination = true) :
    ((v.report report).unwind r).Responding (w.Responds t x) :=
  .ends x terminates (Controller.isOver_finish _ _)

private theorem responding_obey {c : Subject} {core : Core} {again : Task} {otherwise : Move σ}
    (h : otherwise.Responding P) : (w.obey c core again otherwise).Responding P := by
  unfold obey
  split
  · exact h
  · trivial

private theorem responding_selectEvent (i : Nat) (a : Actor) : (w.selectEvent i a).Responding P := by
  unfold selectEvent
  split
  · trivial
  · simp only
    split <;> trivial

private theorem responding_finishAction (c : Subject) (phase : Phase) (memory : Memory)
    (ending : Ending) : (w.finishAction c memory ending).Responding
      (w.Responds t (.perform (.action c phase) (.finish memory ending))) := by
  have reported : ∀ (v : World σ) text, Move.Responding
      (w.Responds t (.perform (.action c phase) (.finish memory ending)))
      (if v.isOver then v.unwind .canceled
        else v.withCore c fun core => (v.report (faultReport core text)).unwind .canceled) :=
    fun v text => responding_ite responds_canceled fun _ =>
      responding_withCore fun core => responds_report v _ rfl
  unfold finishAction
  cases ending with
  | ok => trivial
  | failed failure =>
    refine responding_ite (fun feigns => ?_) fun _ => reported _ _
    exact .unwinds c phase memory feigns _
  | panicked message => exact reported _ _

/-! ## Waiting and deciding -/

private theorem responding_follow {p : Passage} (ceased : p = .canceled → w.isOver = true) :
    (w.follow p []).Responding (w.Responds t x) := by
  cases p with
  | canceled => exact responds_canceled (ceased rfl)
  | passed | waits => trivial

private theorem isOver_of_quiescence (canceled : w.controller.quiescence = .canceled) :
    w.isOver = true := by
  unfold Controller.quiescence at canceled
  split at canceled
  · assumption
  · split at canceled <;> cases canceled

private theorem responding_touch (object : Nat) (operation : SharedOperation) (o : SharedObject)
    (v : World σ) : Move.Responding (w.Responds t (.touch object operation))
      (.answer (operation.apply w.objects o).1 v) := by
  cases answered : (operation.apply w.objects o).1 with
  | ok value => exact .touches object operation value v
  | error failure =>
    refine .lacks object operation ?_ v
    rintro r rfl
    unfold SharedOperation.apply at answered
    split at answered
    · cases answered
    · simp only [DictionaryOperation.apply] at answered
      repeat' split at answered
      all_goals cases answered
    · cases answered
    · cases answered

variable [Strategy σ]

private theorem responding_perform (speaker : Speaker) (program : Program) :
    (w.perform t speaker program).Responding (w.Responds t (.perform speaker program)) := by
  cases program with
  | finish memory ending =>
    cases speaker with
    | action c phase => exact responding_finishAction c phase memory ending
    | test => trivial
    | sleeper j =>
      simp only [perform, finishFiring]
      split
      · split <;> trivial
      · trivial
  | ask voice request next =>
    simp only [perform]
    split
    · trivial
    · split <;> trivial

/-- A task answers what the relation tells. -/
theorem responding_exec (w : World σ) (t : ThreadId) (x : Task) :
    (w.exec t x).Responding (w.Responds t x) := by
  cases x <;> simp only [exec]
  case firstTurn | rest =>
    refine responding_withActor fun a => ?_
    split <;> trivial
  case wake =>
    refine responding_withActor fun a => ?_
    split
    · trivial
    · simp only
      split <;> trivial
  case cycle i =>
    refine responding_ite responds_canceled fun _ => responding_withActor fun a => ?_
    exact responding_ite (fun _ => trivial) fun _ => responding_obey (responding_selectEvent i a)
  case start | invoke | dropTop => exact responding_withCore fun core => trivial
  case handle =>
    refine responding_withCore fun core => ?_
    split
    · trivial
    · trivial
    · exact responding_ite (fun _ => trivial) fun _ => responds_report _ _ rfl
  case settle => exact responding_withActor fun a => trivial
  case switch => exact responding_withCore fun core => responding_ite (fun _ => trivial) fun _ => trivial
  case enter =>
    refine responding_withCore fun core => ?_
    split
    · trivial
    · exact responds_report _ _ rfl
  case pop =>
    exact responding_withCore fun core =>
      responding_ite (fun _ => responds_report _ _ rfl) fun _ => trivial
  case forward => split <;> trivial
  case notify typeTag event =>
    refine responding_ite (fun _ => trivial) fun _ => ?_
    split
    · trivial
    · next absent => exact .misses typeTag event absent
  case deliver =>
    refine responding_withMonitor fun monitor => ?_
    refine responding_ite (fun _ => trivial) fun _ => responding_ite (fun _ => trivial) fun _ => ?_
    exact responding_ite (fun _ => trivial) fun _ => trivial
  case drain =>
    exact responding_withMonitor fun monitor =>
      responding_ite (fun _ => trivial) fun _ => responding_obey trivial
  case defaults =>
    refine responding_withMonitor fun monitor => ?_
    split
    · exact responding_ite (fun _ => trivial) fun _ => trivial
    · trivial
  case install d id =>
    refine responding_ite (fun _ => trivial) fun _ => ?_
    split
    · next present => exact .repeats d id (by simp [present]) _
    · trivial
  case listMonitors => exact responding_ite (fun _ => trivial) fun _ => .lists _
  case readMonitor typeTag =>
    refine responding_ite (fun _ => trivial) fun _ => ?_
    split
    · exact .reads typeTag _
    · exact responding_withMonitor fun monitor =>
        responding_ite (fun _ => trivial) fun _ => .reads typeTag _
  case collect r => exact .collects r
  case answer value => exact .gives value
  case await =>
    unfold awaitReply
    split
    · trivial
    · exact responding_ite responds_canceled fun _ => trivial
  case point kind =>
    refine responding_ite responds_canceled fun _ => responding_ite (fun _ => trivial) fun _ => ?_
    cases known : w.caller? t with
    | some op => trivial
    | none =>
      unfold ensureKnown
      split
      · next failed =>
        split at failed <;> cases failed
        exact .strange kind known _
      · trivial
  case turn =>
    split
    · exact responding_follow Controller.passage_eq_canceled_iff.1
    · trivial
  case touch object operation =>
    split
    · exact responding_touch object operation _ _
    · exact .lacks object operation (by rintro _ ⟨⟩) _
  case awaitHalted =>
    exact responding_ite responds_canceled fun _ => responding_ite (fun _ => trivial) fun _ => trivial
  case awaitQuiescence => exact responding_follow isOver_of_quiescence
  case sleep =>
    unfold sleep
    split
    · trivial
    · exact responding_ite (fun _ => trivial) fun _ =>
        responding_ite (fun _ => trivial) fun _ => trivial
  case perform speaker program => exact responding_perform speaker program
  case retire | pass | resume => split <;> trivial
  all_goals trivial

theorem responds_of_exec {a : Answer} {v : World σ} (executed : w.exec t x = .answer a v) :
    w.Responds t x a v := by
  have responding := w.responding_exec t x
  rwa [executed] at responding

end World

end SteeredActors
