import SteeredActors.Proofs.World.Answers
import SteeredActors.Proofs.World.Creation

/-!
# Requests that are let through

A request is rejected if it is out of order: it names an actor, a monitor or a type that there is not, it
lacks a name or takes one twice, or whoever makes it may not. It is found out before anything is done, at
once or in the step that looks for a monitor. What is let through then may fail because the run ends, and
for no other reason.
-/

set_option autoImplicit false
set_option relaxedAutoImplicit false

namespace SteeredActors

variable {σ : Type}

/-- A request was out of order. That says nothing about the run: it has not ended, and no assertion
failed. -/
def Refusal.rejects : Refusal → Bool
  | .unknownActorType _ | .unknownActor _ | .unknownMonitor _ | .invalidOperation _
  | .identity (.nameRequired _) => true
  | .identity (.overflow _) | .assertionFailure _ | .canceled => false

/-- A request to the runtime failed because it was out of order. -/
def Failure.rejects : Failure → Bool
  | .runtime r => r.rejects
  | _ => false

/-- What programs ask of actors, monitors, timers and the run itself. -/
def Request.isOperation : Request → Bool
  | .create _ _ _ _ | .send _ _ | .sendAndExecute _ _ | .registerMonitor _ | .monitor _ _
  | .startTimer _ _ | .stopTimer _ | .waitForQuiescence => true
  | _ => false

theorem Request.isAccess_of_isOperation {request : Request} (operates : request.isOperation = true) :
    request.isAccess = false := by
  cases request <;> first | rfl | cases operates

/-! ## Which tasks reject -/

/-- A task that looks for a monitor. -/
def Task.looksUp : Task → Bool
  | .notify _ _ | .install _ _ => true
  | _ => false

namespace World

variable [Strategy σ] {w v : World σ} {t : ThreadId} {x : Task}

/-- A rejection changes nothing. It comes of a monitor that is not there, or is there already, or of a
thread that the controller does not know. -/
theorem doubts_of_exec {failure : Failure} (executed : w.exec t x = .answer (.error failure) v)
    (rejects : failure.rejects = true) :
    v = w ∧ (x.looksUp = true ∨ ∃ kind, x = .point kind ∧ w.caller? t = none) := by
  cases responds_of_exec executed with
  | misses | repeats => exact ⟨rfl, .inl rfl⟩
  | strange kind nobody => exact ⟨rfl, .inr ⟨kind, rfl, nobody⟩⟩
  | lacks _ _ own =>
    cases failure with
    | runtime r => exact absurd rfl (own r)
    | access | keyNotFound | other | within => cases rejects
  | @ends _ r terminates => cases r <;> first | cases rejects; done | cases terminates
  | unwinds => cases rejects

end World

/-! ## What has been let through -/

/-- A task that does not reject what it is done for, provided that the controller knows who calls if
`known` says so. -/
def Task.admits (known : Bool) : Task → Bool
  | .notify _ _ | .install _ _ | .firstTurn _ | .wake _ | .cycle _ | .rest _ => false
  | .point _ => known
  | _ => true

theorem Task.worker?_of_admits {known : Bool} {x : Task} (admits : x.admits known = true) :
    x.worker? = none := by
  cases x <;> first | rfl | cases admits

/-- What a thread has to do before a program gets the answer that it waits for. It is not rejected any
more, and `own` tells whether the thread runs under a strange name then. Programs that run in between may
be told whatever they ask for. -/
def Admitted (known own : Bool) : Bool → List Task → Prop
  | outside, [] => outside = own
  | _, .resume _ before _ _ :: tasks => Admitted known own before tasks
  | outside, x :: tasks =>
    (awaited tasks = true ∨ x.admits known = true) ∧ Admitted known own outside tasks

theorem admitted_cons {known own outside : Bool} {x : Task} (plain : x.waits = false)
    (tasks : List Task) : Admitted known own outside (x :: tasks) ↔
      (awaited tasks = true ∨ x.admits known = true) ∧ Admitted known own outside tasks := by
  cases x <;> first | rfl | cases plain

namespace Admitted

variable {known own outside : Bool} {xs ys : List Task}

/-- Without other programs the thread runs under the same name all the time. -/
theorem same (admitted : Admitted known own outside xs) (quiet : awaited xs = false) :
    outside = own := by
  induction xs with
  | nil => exact admitted
  | cons x xs ih =>
    obtain ⟨plain, quiet⟩ := Bool.or_eq_false_iff.1 ((awaited_cons x xs).symm.trans quiet)
    exact ih ((admitted_cons plain xs).1 admitted).2 quiet

theorem append (admitted : Admitted known own outside xs) (each : ∀ y ∈ ys,
    y.waits = false ∧ (awaited xs = true ∨ y.admits known = true)) :
    Admitted known own outside (ys ++ xs) := by
  induction ys with
  | nil => exact admitted
  | cons y ys ih =>
    obtain ⟨⟨plain, admits⟩, later⟩ := List.forall_mem_cons.1 each
    refine (admitted_cons plain _).2 ⟨?_, ih later⟩
    exact admits.imp (fun waiting => by simp [waiting]) id

/-- What is below another program. -/
theorem below {speaker : Speaker} {before shared : Bool} {next : Answer → Program}
    (admitted : Admitted known own outside (ys ++ .resume speaker before shared next :: xs)) :
    Admitted known own before xs := by
  induction ys generalizing outside with
  | nil => exact admitted
  | cons y ys ih =>
    cases waits : y.waits with
    | false => exact ih ((admitted_cons waits _).1 admitted).2
    | true =>
      cases y <;> first | cases waits; done | skip
      exact ih admitted

end Admitted

namespace World

variable {w w' v : World σ} {t : ThreadId} {x : Task}

/-- What does not belong to the work of an actor itself leads to nothing that rejects. -/
theorem Yields.admits {ys : List Task} (yields : w.Yields x ys) (unasked : x.request? = none)
    (known : Bool) : ∀ y ∈ ys, y.waits = false ∧ (x.worker? = none → y.admits known = true) := by
  have interprets : ∀ {ys : List Task}, (∀ y ∈ ys, y.interprets = true) →
      ∀ y ∈ ys, y.waits = false ∧ (x.worker? = none → y.admits known = true) := by
    intro ys each y mem
    have step := each y mem
    cases y <;> first | cases step; done | exact ⟨rfl, fun _ => rfl⟩
  cases yields with
  | nothing => simp
  | obeys own =>
    refine List.forall_mem_append.2 ⟨interprets (interprets_obedience _ _ _), ?_⟩
    rcases own with ⟨i, _, rfl, _⟩ | ⟨m, _, rfl⟩
    · exact List.forall_mem_singleton.2 ⟨rfl, fun none => by cases none⟩
    · exact List.forall_mem_singleton.2 ⟨rfl, fun _ => rfl⟩
  | enters => exact interprets (interprets_invocation _ _ _ _)
  | settles => exact interprets (interprets_settlement _ _ _)
  | consumes =>
    exact interprets (List.forall_mem_append.2
      ⟨interprets_consumption _ _ _ _, interprets_settlement _ _ _⟩)
  | pops =>
    exact interprets (List.forall_mem_append.2
      ⟨interprets_leaving _ _ _, List.forall_mem_singleton.2 rfl⟩)
  | wakes own | quits own =>
    rcases own with rfl | rfl <;> simp [Task.waits, Task.worker?, Task.admits]
  | goes | asks | creates => cases unasked
  | _ => simp [Task.waits, Task.worker?, Task.admits]

private theorem exists_other (t : ThreadId) : ∃ u, t ≠ u := by
  cases t with
  | driver | actor => exact ⟨.sleeper 0, by simp⟩
  | sleeper => exact ⟨.driver, by simp⟩

variable [Strategy σ]

/-- A task that asks for nothing leaves its thread alone. -/
theorem thread?_of_exec {thread : Thread} (found : w.thread? t = some thread)
    (unasked : x.request? = none) (plain : x.waits = false) {xs : List Task}
    (executed : w.exec t x = .go xs v) : v.thread? t = some thread := by
  obtain ⟨u, other⟩ := exists_other t
  cases touches : x.isTouch with
  | true =>
    cases x <;> first | cases touches; done | skip
    simp only [exec] at executed
    split at executed <;> cases executed
  | false =>
    have leads := w.bypasses_exec t u unasked touches (by simp [plain])
    rw [executed] at leads
    exact leads.1.others t thread other found

/-- So does what is asked for. -/
theorem thread?_of_service {thread : Thread} (found : w.thread? t = some thread) (old : Thread)
    (speaker : Speaker) (voice : Voice) (request : Request) :
    (w.service t old speaker voice request).All fun v => v.thread? t = some thread := by
  obtain ⟨u, other⟩ := exists_other t
  have brings := w.brings_serve u (if old.outside || voice == .outsider then none
    else w.operation? t) speaker voice request
  rw [← service] at brings
  generalize w.service t old speaker voice request = served at brings
  cases brings with
  | now retains | later retains => exact retains.others t thread other found
  | makes => cases t <;> exact found
  | accesses | sends => exact found

end World

/-! ## What requests come to -/

/-- What a request comes to, by whether the controller knows who makes it. If it is rejected at once the
world is as it was. Otherwise it has been let through, or a monitor is looked for first. -/
inductive Service.Fair (w : World σ) (known : Bool) : Service σ → Prop where
  | now {a : Answer} {v : World σ}
      (same : ∀ failure, a = .error failure → failure.rejects = true → v = w) :
      Fair w known (.now a v)
  | later {tasks : List Task} {v : World σ}
      (each : ∀ y ∈ tasks, y.waits = false ∧ y.admits known = true) :
      Fair w known (.later tasks v)
  | looksUp {x : Task} (running : w.isOver = false) (looks : x.looksUp = true) :
      Fair w known (.later [x, .answer .null] w)

namespace World

variable {w v : World σ}

section

variable {known : Bool}

private theorem fair_refuse (r : Refusal) : (w.refuse r).Fair w known := .now fun _ _ _ => rfl

private theorem fair_failAssertion (actor : Option ActorId) (message : String) :
    ((w.failAssertion actor message).2.refuse (w.failAssertion actor message).1).Fair w known := by
  refine .now fun failure failed rejects => ?_
  cases failed
  cases rejects

private theorem fair_sendAndExecute (caller : Option Nat) (target : ActorId) (event : Event) :
    (w.sendAndExecute caller target event).Fair w known := by
  have sent := w.ofRendezvous caller target event
  generalize w.sendAndExecute caller target event = service at sent
  cases sent with
  | refused => exact fair_refuse _
  | fails text => exact fair_failAssertion _ text
  | brings => exact .later (by simp [Task.waits, Task.admits])

variable {caller : Option Nat} (explores : w.explores = true)

include explores

private theorem fair_send (target : ActorId) (event : Event) :
    (w.serveTasks (w.send caller target event)).Fair w caller.isSome := by
  cases sent : w.send caller target event with
  | error r => exact fair_refuse r
  | ok xs =>
    obtain ⟨i, _, ensured, _, rfl⟩ := send_eq_ok sent
    have known := isSome_of_ensureKnown explores ensured
    exact .later (by simp [Task.waits, Task.admits, known])

variable (made : ∀ i core, w.core? (.actor i) = some core → w.ids.Made core.id)

include made

private theorem fair_create (typeTag : String) (name : Option String) (event : Option Event)
    (execute : Bool) : (w.create caller typeTag name event execute).Fair w caller.isSome := by
  have created := w.ofCreation caller typeTag name event execute
  generalize w.create caller typeTag name event execute = service at created
  cases created with
  | refused => exact fair_refuse _
  | overflows =>
    refine .now fun failure same rejects => ?_
    cases same
    cases rejects
  | taken _ numbered taken =>
    obtain rfl := eq_of_taken made numbered taken
    exact fair_refuse _
  | populates _ ensured =>
    have known := isSome_of_ensureKnown explores ensured
    unfold populate
    split
    · exact .later (forall_mem_ite (by simp [Task.waits, Task.admits])
        (by simp [Task.waits, Task.admits]))
    · exact .later (by simp [Task.waits, Task.admits, known])

/-- So it is with all of them while decisions are explored. -/
theorem fair_serve [Strategy σ] (speaker : Speaker) (voice : Voice) {request : Request}
    (operates : request.isOperation = true) :
    (w.serve caller speaker voice request).Fair w caller.isSome := by
  cases request <;> simp only [serve] <;> first | cases operates; done | skip
  case send | stopTimer =>
    split
    · exact fair_refuse _
    · exact fair_send explores _ _
  case sendAndExecute =>
    split
    · exact fair_refuse _
    · exact fair_sendAndExecute _ _ _
  case create =>
    split
    · exact fair_refuse _
    · exact fair_create explores made _ _ _ _
  case startTimer =>
    split
    · exact fair_refuse _
    · exact fair_refuse _
    · exact fair_create explores made _ _ _ _
  case monitor typeTag event =>
    split
    · exact fair_refuse _
    · exact fair_refuse _
    · next ensured => exact .looksUp (ensureRunning_eq_ok ensured) rfl
  case registerMonitor typeTag =>
    cases begun : w.registerMonitor typeTag with
    | error r => exact fair_refuse r
    | ok xs =>
      obtain ⟨d, id, running, _, rfl⟩ := registerMonitor_eq_ok begun
      exact .looksUp running rfl
  case waitForQuiescence =>
    rw [if_pos explores]
    exact fair_refuse _

end

end World

end SteeredActors
