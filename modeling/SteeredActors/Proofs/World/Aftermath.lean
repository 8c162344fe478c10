import SteeredActors.Proofs.World.Accesses
import SteeredActors.Proofs.World.Decisions
import SteeredActors.Proofs.World.Yields

/-!
# What still happens when a run has ended

A run may end while actions are running. Nobody takes an event from a queue any more and nobody does
what is raised in an actor, but an action that does not fail is followed by whatever else was to be
done. So a thread starts an action only after another one has returned to it.
-/

set_option autoImplicit false
set_option relaxedAutoImplicit false

namespace SteeredActors

variable {σ : Type}

/-! ## The order of tasks -/

namespace Task

/-- A thread has nothing else to do after this. -/
def closes : Task → Bool
  | .firstTurn _ | .wake _ | .cycle _ | .rest _ | .retire _ | .sleep _ | .perform .test _
  | .perform (.sleeper _) _ | .resume .test _ _ _ | .resume (.sleeper _) _ _ _ => true
  | _ => false

/-- The controller decides who goes next. -/
def passes : Task → Bool
  | .pass _ => true
  | _ => false

/-- The turn is waited for. -/
def parks : Task → Bool
  | .turn | .rest _ => true
  | _ => false

end Task

/-- What closes the work of a thread comes last. -/
def Closed : List Task → Prop
  | [] => True
  | x :: rest => (x.closes = true → rest = []) ∧ Closed rest

/-- What closes the work of a thread comes last, and who passes the turn on waits for it next. -/
structure Arranged (tasks : List Task) : Prop where
  closed : Closed tasks
  passes : ∀ y ∈ tasks.tail, y.passes = false
  parks : ∀ kind rest, tasks = .pass kind :: rest → ∃ y ys, rest = y :: ys ∧ y.parks = true

theorem closed_append {xs : List Task} (open_ : ∀ y ∈ xs, y.closes = false) (rest : List Task) :
    Closed (xs ++ rest) ↔ Closed rest := by
  induction xs with
  | nil => rfl
  | cons x xs ih =>
    obtain ⟨here, open_⟩ := List.forall_mem_cons.1 open_
    simp [Closed, here, ih open_]

theorem Closed.of_suffix {xs ys : List Task} (closed : Closed ys) (suffix : xs <:+ ys) :
    Closed xs := by
  induction ys with
  | nil =>
    obtain rfl := List.suffix_nil.1 suffix
    exact closed
  | cons y ys ih =>
    rcases List.suffix_cons_iff.1 suffix with rfl | suffix
    · exact closed
    · exact ih closed.2 suffix

private theorem plain_of_interprets {y : Task} (interprets : y.interprets = true) :
    y.closes = false ∧ y.passes = false := by
  cases y <;> first | exact ⟨rfl, rfl⟩ | cases interprets

private theorem plain_of_serves {y : Task} (serves : y.serves = true) :
    y.closes = false ∧ y.passes = false := by
  cases y <;> first | exact ⟨rfl, rfl⟩ | cases serves

/-- What stands for a task closes the work of a thread only if the task did, and then at the end; and
if it passes the turn on, it waits for the turn next. -/
private structure Task.Ordered (x : Task) (xs : List Task) : Prop where
  closes : (∀ y ∈ xs, y.closes = false) ∨
    x.closes = true ∧ ∃ ys z, xs = ys ++ [z] ∧ ∀ y ∈ ys, y.closes = false
  passes : (∀ y ∈ xs, y.passes = false) ∨
    ∃ kind y ys, xs = .pass kind :: y :: ys ∧ y.parks = true ∧ ∀ z ∈ y :: ys, z.passes = false

private theorem Task.Ordered.of_plain {x : Task} {xs : List Task}
    (plain : ∀ y ∈ xs, y.closes = false ∧ y.passes = false) : x.Ordered xs :=
  ⟨.inl fun y mem => (plain y mem).1, .inl fun y mem => (plain y mem).2⟩

private theorem Task.Ordered.of_last {x z : Task} {l : List Task} (closes : x.closes = true)
    (plain : ∀ y ∈ l, y.closes = false ∧ y.passes = false) (last : z.passes = false) :
    x.Ordered (l ++ [z]) :=
  ⟨.inr ⟨closes, l, z, rfl, fun y mem => (plain y mem).1⟩, .inl (List.forall_mem_append.2
    ⟨fun y mem => (plain y mem).2, by simpa using last⟩)⟩

private theorem World.Yields.ordered {w : World σ} {x : Task} {xs : List Task}
    (yields : w.Yields x xs) : x.Ordered xs := by
  cases yields with
  | nothing => exact .of_plain (by simp)
  | wakes own | quits own =>
    refine .of_last (l := []) ?_ (by simp) rfl
    rcases own with rfl | rfl <;> rfl
  | begins i event => exact .of_last (l := [_]) rfl (by simp [Task.closes, Task.passes]) rfl
  | goesOn i => exact .of_last (l := []) rfl (by simp) rfl
  | selects i envelope => exact .of_last (l := [_]) rfl (by simp [Task.closes, Task.passes]) rfl
  | defaults i => exact .of_last (l := [_, _]) rfl (by simp [Task.closes, Task.passes]) rfl
  | pauses i =>
    exact ⟨.inr ⟨rfl, [_], _, rfl, by simp [Task.closes]⟩,
      .inr ⟨_, _, _, rfl, rfl, by simp [Task.passes]⟩⟩
  | @obeys _ c core d own found raised =>
    rcases own with ⟨i, rfl, rfl, _⟩ | ⟨m, rfl, rfl⟩
    · exact .of_last rfl (fun y mem => plain_of_interprets (interprets_obedience _ core d y mem)) rfl
    · exact .of_plain (List.forall_mem_append.2
        ⟨fun y mem => plain_of_interprets (interprets_obedience _ core d y mem),
          by simp [Task.closes, Task.passes]⟩)
  | enters own entry =>
    exact .of_plain fun y mem => plain_of_interprets (interprets_invocation _ _ _ entry y mem)
  | settles c event r =>
    exact .of_plain fun y mem => plain_of_interprets (interprets_settlement c r false y mem)
  | consumes c event r core binding =>
    exact .of_plain (List.forall_mem_append.2
      ⟨fun y mem => plain_of_interprets (interprets_consumption c core event binding y mem),
        fun y mem => plain_of_interprets (interprets_settlement c r true y mem)⟩)
  | pops c core =>
    exact .of_plain (List.forall_mem_append.2
      ⟨fun y mem => plain_of_interprets (interprets_leaving c none core y mem),
        by simp [Task.closes, Task.passes]⟩)
  | forwards event => exact .of_plain (by simp [Task.closes, Task.passes])
  | invokes | switches | notifies | delivers | repeats | installs | awaits =>
    exact .of_plain (by simp [Task.closes, Task.passes])
  | engages =>
    exact ⟨.inl (by simp [Task.closes]), .inr ⟨_, _, _, rfl, rfl, by simp [Task.passes]⟩⟩
  | passes =>
    exact ⟨.inl (by simp [Task.closes]), .inr ⟨_, _, _, rfl, rfl, by simp [Task.passes]⟩⟩
  | fires j program => exact .of_last (l := []) rfl (by simp) rfl
  | goes speaker voice request next a =>
    cases speaker with
    | action => exact .of_plain (by simp [Task.closes, Task.passes])
    | test | sleeper => exact .of_last (l := []) rfl (by simp) rfl
  | asks speaker voice request next outside shared each =>
    have plain := fun y mem => plain_of_serves (each y mem)
    cases speaker with
    | action =>
      exact .of_plain (List.forall_mem_append.2 ⟨plain, by simp [Task.closes, Task.passes]⟩)
    | test | sleeper => exact .of_last rfl plain rfl
  | creates speaker voice request next outside shared v =>
    refine ⟨?_, .inr ⟨_, _, _, rfl, rfl, by simp [Task.passes]⟩⟩
    cases speaker with
    | action => exact .inl (by simp [Task.closes])
    | test | sleeper => exact .inr ⟨rfl, [_, _, _], _, rfl, by simp [Task.closes]⟩
  | ends => exact .of_last (l := []) rfl (by simp) rfl
  | sleeps => exact .of_last (l := []) rfl (by simp) rfl
  | resumes speaker outside shared next a =>
    cases speaker with
    | action => exact .of_plain (by simp [Task.closes, Task.passes])
    | test | sleeper => exact .of_last (l := []) rfl (by simp) rfl

/-- Tasks are in order at all times. -/
theorem enduring_arranged : Enduring σ Arranged where
  done := ⟨trivial, by simp, nofun⟩
  begins i := ⟨⟨fun _ => rfl, trivial⟩, by simp, nofun⟩
  sleeps j := ⟨⟨fun _ => rfl, trivial⟩, by simp, nofun⟩
  retires := ⟨⟨fun _ => rfl, trivial⟩, by simp, nofun⟩
  yields {w x xs rest} yields arranged := by
    obtain ⟨closed, passes, _⟩ := arranged
    obtain ⟨order, turns⟩ := yields.ordered
    have none : ∀ y ∈ rest, y.passes = false := passes
    refine ⟨?_, ?_, ?_⟩
    · rcases order with open_ | ⟨closes, ys, z, rfl, open_⟩
      · exact (closed_append open_ rest).2 closed.2
      · rw [closed.1 closes, List.append_nil]
        exact (closed_append open_ [z]).2 ⟨fun _ => rfl, trivial⟩
    · rcases turns with still | ⟨kind, y, ys, rfl, _, still⟩
      · exact fun y mem => List.forall_mem_append.2 ⟨still, none⟩ y (List.mem_of_mem_tail mem)
      · exact List.forall_mem_append.2 ⟨still, none⟩
    · rintro kind below split
      rcases turns with still | ⟨_, y, ys, rfl, parks, _⟩
      · have first := List.forall_mem_append.2 ⟨still, none⟩ (.pass kind)
          (by rw [split]; exact List.mem_cons_self)
        cases first
      · obtain ⟨_, rfl⟩ := List.cons.inj split
        exact ⟨y, ys ++ rest, rfl, parks⟩
  resumes {x speaker before shared next below rest} suffix arranged program := by
    obtain ⟨closed, passes, _⟩ := arranged
    have here := closed.2.of_suffix suffix
    refine ⟨⟨fun closes => here.1 ?_, here.2⟩, fun y mem => ?_, nofun⟩
    · cases speaker <;> first | rfl | cases closes
    · exact passes y (suffix.subset (List.mem_cons_of_mem _ mem))

/-! ## Threads that start nothing -/

namespace Task

/-- In an ended run this is the last that its thread does. -/
def rests : Task → Bool
  | .firstTurn _ | .rest _ | .retire _ | .sleep _ => true
  | _ => false

/-- A program goes on. -/
def runs : Task → Bool
  | .perform _ _ => true
  | _ => false

/-- An action returns. -/
def returns : Task → Bool
  | .perform (.action _ _) (.finish _ .ok) => true
  | _ => false

end Task

/-- A thread that starts no action in an ended run unless one returns to it. -/
inductive Thread.Held (t : ThreadId) : Thread → Prop where
  | done (outside : Bool) : Held t ⟨[], outside⟩
  | first {x : Task} (held : x.rests = true ∨ x.runs = true ∨ x.balks = true) (rest : List Task)
      (outside : Bool) : Held t ⟨x :: rest, outside⟩
  | turn (rest : List Task) (known : ∀ j, t ≠ .sleeper j) : Held t ⟨.turn :: rest, false⟩

namespace World

variable [Strategy σ] {w w' : World σ} {t u : ThreadId} {x : Task} {rest : List Task} {outside : Bool}

/-- What goes on with an answer, or is given up, starts nothing. -/
theorem held_of_unwinds {S : Subject → Prop} {a : Answer} (delivered : w' = w.deliverAnswer t a rest)
    {thread : Thread} (now : w'.thread? t = some thread) : thread.Held t := by
  have unwinds := unwinds_deliverAnswer (S := S) w t a rest
  rw [← delivered] at unwinds
  cases unwinds with
  | resumes =>
    rw [eq_of_thread?_setThread _ now]
    exact .first (.inr (.inl rfl)) _ _
  | ends =>
    rw [eq_of_thread?_setThread _ now]
    exact .done _
  | abandons =>
    rw [eq_of_thread?_setThread _ now]
    exact .first (.inl rfl) _ _

/-- Threads that do not move start nothing more. -/
theorem held_of_other (tended : w.Tended) (orderly : w.Orderly) (moved : w.stepThread? t = some w')
    (other : u ≠ t) (held : ∀ thread, w.thread? u = some thread → thread.Held u) {thread : Thread}
    (now : w'.thread? u = some thread) : thread.Held u := by
  rcases orderly.bystander moved other now with ⟨old, was, _⟩ | ⟨_, k, fresh⟩
  · obtain rfl := Option.some.inj (now.symm.trans ((tended.shares moved).others other was))
    exact held _ was
  · obtain ⟨tasks, outside⟩ := thread
    rcases fresh with rfl | rfl <;> exact .first (.inl rfl) _ _

omit [Strategy σ] in
private theorem isOver_congr (same : w'.controller.outcome = w.controller.outcome) :
    w'.isOver = w.isOver := by
  simp [isOver, Controller.isOver, same]

/-- Where the run has ended, a program that goes on starts nothing unless it returns to an action. -/
private theorem held_of_perform {speaker : Speaker} {program : Program}
    (found : w.thread? t = some ⟨.perform speaker program :: rest, outside⟩)
    (closed : (Task.perform speaker program).closes = true → rest = [])
    (silent : w.isOver = true → (Task.perform speaker program).returns = false) {xs : List Task}
    {w₁ : World σ} (executed : w.exec t (.perform speaker program) = .go xs w₁)
    (ended : w₁.isOver = true) (outside' : Bool) : Thread.Held t ⟨xs ++ rest, outside'⟩ := by
  cases program with
  | finish memory ending =>
    cases speaker with
    | action c phase =>
      -- what has failed unwinds, and to return ends nothing
      have kept (memory : Memory) :
          (w.modifyCore c fun core => { core with memory }).isOver = w.isOver := by
        rw [isOver, controller_modifyCore, isOver]
      have same : xs = [] ∧ w₁ = (w.modifyCore c fun core => { core with memory }) ∧
          (w.isOver = true → ending = .ok) := by
        simp only [exec, perform, finishAction, kept, withCore] at executed
        split at executed
        · cases executed
          exact ⟨rfl, rfl, fun _ => rfl⟩
        · split at executed
          · cases executed
          · split at executed
            · cases executed
            · next running =>
              split at executed <;> cases executed
              exact ⟨rfl, rfl, fun ceased => absurd ceased running⟩
        · split at executed
          · cases executed
          · next running =>
            split at executed <;> cases executed
            exact ⟨rfl, rfl, fun ceased => absurd ceased running⟩
      obtain ⟨rfl, rfl, ok⟩ := same
      rw [kept] at ended
      obtain rfl := ok ended
      cases silent ended
    | test =>
      simp only [exec, perform, finishTest] at executed
      cases executed
      exact .first (.inl rfl) _ _
    | sleeper j =>
      obtain rfl := closed rfl
      simp only [exec, perform, finishFiring] at executed
      split at executed
      · split at executed <;> cases executed
        · exact .first (.inl rfl) _ _
        · exact .done _
      · cases executed
        exact .done _
  | ask voice request next =>
    have leads := w.leaving_serve
      (if outside || voice == .outsider then none else w.operation? t) speaker voice request
    simp only [exec, perform, found] at executed
    split at executed
    · cases executed
      exact .first (.inr (.inl rfl)) _ _
    · next served =>
      cases executed
      rw [served] at leads
      rw [isOver, controller_setThread] at ended
      obtain ⟨y, ys, rfl, balks⟩ := leads.balks ((isOver_congr leads.outcome).symm.trans ended)
      exact .first (.inr (.inr balks)) _ _

omit [Strategy σ] in
theorem getElem?_of_monitor? {typeTag : String} {m : Nat} (found : w.monitor? typeTag = some m) :
    ∃ monitor, w.monitors[m]? = some monitor := by
  obtain ⟨lt, _⟩ := List.findIdx?_eq_some_iff_getElem.1 found
  exact ⟨_, List.getElem?_eq_getElem lt⟩

/-- In an ended run this waits or fails. -/
private theorem exec_of_balks (ceased : w.isOver = true) (balks : x.balks = true) {xs : List Task}
    {w₁ : World σ} : w.exec t x ≠ .go xs w₁ := by
  have ended : w.controller.isOver = true := ceased
  intro executed
  cases x <;> simp only [Task.balks, Bool.false_eq_true] at balks
  case point | awaitHalted => simp [exec, ceased, unwind] at executed
  case awaitQuiescence => simp [exec, Controller.quiescence, ended, follow, unwind] at executed
  case listMonitors =>
    simp only [exec] at executed
    split at executed <;> cases executed
  case readMonitor typeTag =>
    simp only [exec, readMonitor] at executed
    split at executed
    · cases executed
    · split at executed
      · cases executed
      · next there =>
        obtain ⟨monitor, found⟩ := getElem?_of_monitor? there
        simp only [withMonitor, found] at executed
        split at executed <;> cases executed

omit [Strategy σ] in
private theorem nothing_of_rests (ceased : w.isOver = true) (rests : x.rests = true)
    {xs : List Task} (yields : w.Yields x xs) : xs = [] := by
  cases yields with
  | nothing => rfl
  | wakes _ running | fires _ _ running => cases running.symm.trans ceased
  | quits own => rcases own with rfl | rfl <;> cases rests
  | obeys own => rcases own with ⟨_, _, rfl, _⟩ | ⟨_, _, rfl⟩ <;> cases rests
  | enters own => rcases own with rfl | ⟨_, rfl⟩ <;> cases rests
  | _ => cases rests

/-- A step of a thread that starts nothing in an ended run leaves one that starts nothing, unless an
action returns. -/
theorem held_of_step (ceased : w.isOver = true) (explores : w.explores = true)
    (found : w.thread? t = some ⟨x :: rest, outside⟩) (arranged : Arranged (x :: rest))
    (held : Thread.Held t ⟨x :: rest, outside⟩) (moved : w.stepThread? t = some w')
    (silent : x.returns = false) {thread : Thread} (now : w'.thread? t = some thread) :
    thread.Held t := by
  obtain ⟨x', rest', outside', found', steps⟩ := of_stepThread? moved
  cases found.symm.trans found'
  rcases steps with ⟨xs, w₁, old, executed, _, rfl⟩ | ⟨a, w₁, executed, delivered⟩
  · rw [w₁.eq_of_thread?_setThread now]
    have brings := w.leaving_exec t x
    rw [executed] at brings
    cases held with
    | turn _ known =>
      -- nobody is given the turn any more
      obtain ⟨op, caller⟩ := Option.isSome_iff_exists.1 ((isSome_caller? explores found).2 ⟨rfl, known⟩)
      have canceled : w.controller.passage op = .canceled := Controller.passage_eq_canceled_iff.2 ceased
      simp only [exec, caller, canceled, follow, unwind] at executed
      cases executed
    | first held =>
      rcases held with rests | runs | balks
      · obtain rfl : rest = [] := arranged.closed.1 (by cases x <;> first | rfl | cases rests)
        rw [nothing_of_rests ceased rests brings.yields]
        exact .done _
      · obtain ⟨speaker, program, rfl⟩ : ∃ speaker program, x = .perform speaker program := by
          cases x <;> first | exact ⟨_, _, rfl⟩ | cases runs
        have kept := outcome_exec ceased t (.perform speaker program)
        rw [executed] at kept
        exact held_of_perform found arranged.closed.1 (fun _ => silent) executed
          ((isOver_congr kept).trans ceased) _
      · exact absurd executed (exec_of_balks ceased balks)
  · exact held_of_unwinds (S := fun _ => True) delivered now

/-- Who passes the turn on, or is done, starts nothing until it gets the turn again. -/
theorem held_of_decision (known : ∀ j, t ≠ .sleeper j) {kind : PointKind}
    (own : x = .pass kind ∨ x = .retire kind) (found : w.thread? t = some ⟨x :: rest, false⟩)
    (arranged : Arranged (x :: rest)) (moved : w.stepThread? t = some w') {thread : Thread}
    (now : w'.thread? t = some thread) : thread.Held t := by
  obtain ⟨x', rest', outside', found', steps⟩ := of_stepThread? moved
  cases found.symm.trans found'
  have same : ∃ w₁, w.exec t x = .go [] w₁ ∧ w₁.thread? t = w.thread? t := by
    rcases own with rfl | rfl <;> simp only [exec] <;> split <;>
      exact ⟨_, rfl, by cases t <;> rfl⟩
  obtain ⟨w₁, executed, kept⟩ := same
  rcases steps with ⟨xs, w₂, old, executed', there, rfl⟩ | ⟨a, w₂, executed', _⟩ <;>
    cases executed.symm.trans executed'
  obtain rfl := Option.some.inj (there.symm.trans (kept.trans found))
  rw [eq_of_thread?_setThread _ now, List.nil_append]
  rcases own with rfl | rfl
  · obtain ⟨y, ys, rfl, parks⟩ := arranged.parks kind rest rfl
    cases y <;> simp only [Task.parks, Bool.false_eq_true] at parks
    · exact .first (.inl rfl) _ _
    · exact .turn _ known
  · rw [arranged.closed.1 rfl]
    exact .done _

/-- Whoever ends the run starts nothing more, unless an action returns. -/
theorem held_of_end (known : ∀ j, t ≠ .sleeper j) (found : w.thread? t = some ⟨x :: rest, outside⟩)
    (arranged : Arranged (x :: rest)) (moved : w.stepThread? t = some w')
    (running : w.isOver = false) (ended : w'.isOver = true) {thread : Thread}
    (now : w'.thread? t = some thread) : thread.Held t := by
  obtain ⟨x', rest', outside', found', steps⟩ := of_stepThread? moved
  cases found.symm.trans found'
  rcases steps with ⟨xs, w₁, old, executed, there, rfl⟩ | ⟨a, w₁, executed, delivered⟩
  · rw [isOver, controller_setThread] at ended
    have brings := w.leaving_exec t x
    rw [executed] at brings
    have decides : x.decides = true := by
      by_contra still
      have kept := isOver_congr (brings.outcome (by simpa using still))
      cases ended.symm.trans (kept.trans running)
    cases x <;> simp only [Task.decides, Bool.false_eq_true] at decides
    case retire kind =>
      rw [eq_of_thread?_setThread _ now, arranged.closed.1 rfl]
      simp only [exec] at executed
      split at executed <;> cases executed <;> exact .done _
    case pass kind =>
      cases outside with
      | false => exact held_of_decision known (.inl rfl) found arranged moved now
      | true =>
        simp only [exec, caller?, found, if_true] at executed
        cases executed
        cases running.symm.trans ended
    case perform =>
      rw [eq_of_thread?_setThread _ now]
      exact held_of_perform found arranged.closed.1
        (fun ceased => by cases running.symm.trans ceased) executed ended _
  · exact held_of_unwinds (S := fun _ => True) delivered now

end World

/-! ## Runs -/

/-- In the next step a thread starts an action. -/
def World.starts [Strategy σ] (w : World σ) (t : ThreadId) : Bool :=
  match w.does? t with
  | some (.invoke c _ _ _) => (w.core? c).isSome
  | _ => false

/-- In the next step an action returns to a thread. -/
def World.returns [Strategy σ] (w : World σ) (t : ThreadId) : Bool := (w.does? t).any (·.returns)

/-- How many actions a thread starts in some steps from the one after the first `m` on. -/
def Experiment.started [Strategy σ] (e : Experiment) (ids : Allocator) (s : σ) (t : ThreadId)
    (m k : Nat) : Nat :=
  (List.range k).countP fun j => (e.iterate (m + j) ids s).starts t

/-- How many actions return to a thread in some steps from the one after the first `m` on. -/
def Experiment.returned [Strategy σ] (e : Experiment) (ids : Allocator) (s : σ) (t : ThreadId)
    (m k : Nat) : Nat :=
  (List.range k).countP fun j => (e.iterate (m + j) ids s).returns t

namespace Experiment

variable [Strategy σ] {e : Experiment} (accepted : e.registry.Accepted) {ids : Allocator} {s : σ}
  {n : Nat}

include accepted

theorem arranged (n : Nat) : (e.iterate n ids s).Everywhere Arranged :=
  e.everywhere accepted ids s enduring_arranged (fun _ => ⟨⟨fun _ => rfl, trivial⟩, by simp, nofun⟩) n

/-- While a run goes on, whoever does not hold the turn starts nothing until it does. -/
theorem held_of_unscheduled (running : (e.iterate n ids s).isOver = false) {u : ThreadId}
    (other : u ≠ World.threadOf (e.iterate n ids s).controller.scheduled) {thread : Thread}
    (found : (e.iterate n ids s).thread? u = some thread) : thread.Held u := by
  induction n generalizing u thread with
  | zero =>
    cases u with
    | driver => exact absurd rfl other
    | actor i | sleeper j => cases found
  | succ n ih =>
    have before := e.running_of_succ ids s running
    have orderly := (e.reached n ids s).orderly accepted
    have succ := e.iterate_succ ids s n
    cases moved : (e.iterate n ids s).step? with
    | none =>
      rw [moved, Option.getD_none] at succ
      rw [succ] at other found
      exact ih before other found
    | some w' =>
      have transition := e.transition_of_step? running moved
      rw [moved, Option.getD_some] at succ
      rw [succ] at other found transition
      rw [World.step?_of_running (e.sound before).explores before] at moved
      by_cases mine : u = World.threadOf (e.iterate n ids s).controller.scheduled
      · subst mine
        rcases transition.scheduled with same | ⟨x, rest, there, kind, own⟩
        · exact absurd (congrArg World.threadOf same).symm other
        · exact World.held_of_decision (World.threadOf_ne_sleeper _) own there
            (arranged accepted n _ _ there) moved found
      · exact World.held_of_other (e.tended accepted ids s n) orderly moved mine
          (fun thread there => ih before mine there) found

omit accepted in
private theorem started_succ (t : ThreadId) (m k : Nat) :
    e.started ids s t m (k + 1) =
      e.started ids s t m k + ((e.iterate (m + k) ids s).starts t).toNat := by
  cases now : (e.iterate (m + k) ids s).starts t <;>
    simp [started, List.range_succ, now]

omit accepted in
private theorem returned_succ (t : ThreadId) (m k : Nat) :
    e.returned ids s t m (k + 1) =
      e.returned ids s t m k + ((e.iterate (m + k) ids s).returns t).toNat := by
  cases now : (e.iterate (m + k) ids s).returns t <;>
    simp [returned, List.range_succ, now]

omit accepted in
theorem isOver_of_le {m : Nat} (ended : (e.iterate m ids s).isOver = true) (le : m ≤ n) :
    (e.iterate n ids s).isOver = true := by
  by_contra running
  rw [e.running_of_le ids s le (by simpa using running)] at ended
  cases ended

/-- When the run has just ended no thread starts anything unless an action returns to it. -/
theorem held_of_first (running : (e.iterate n ids s).isOver = false)
    (ended : (e.iterate (n + 1) ids s).isOver = true) {u : ThreadId} {thread : Thread}
    (found : (e.iterate (n + 1) ids s).thread? u = some thread) : thread.Held u := by
  have succ := e.iterate_succ ids s n
  cases moved : (e.iterate n ids s).step? with
  | none =>
    rw [moved, Option.getD_none] at succ
    rw [succ, running] at ended
    cases ended
  | some w' =>
    rw [moved, Option.getD_some] at succ
    rw [succ] at ended found
    rw [World.step?_of_running (e.sound running).explores running] at moved
    by_cases mine : u = World.threadOf (e.iterate n ids s).controller.scheduled
    · subst mine
      obtain ⟨x, rest, outside, there, _⟩ := World.of_stepThread? moved
      exact World.held_of_end (World.threadOf_ne_sleeper _) there (arranged accepted n _ _ there) moved
        running ended found
    · exact World.held_of_other (e.tended accepted ids s n) ((e.reached n ids s).orderly accepted)
        moved mine (fun thread there => held_of_unscheduled accepted running mine there) found

end Experiment

/-- A thread has started `a` actions and `b` have returned to it, at least as many, and more if it may
start another one. -/
def World.Balanced (w : World σ) (t : ThreadId) (a b : Nat) : Prop :=
  a ≤ b ∧ (a < b ∨ ∀ thread, w.thread? t = some thread → thread.Held t)

namespace World.Balanced

variable [Strategy σ] {w w' : World σ} {t : ThreadId} {a b : Nat}

theorem of_idle (balanced : w.Balanced t a b) (idle : w.does? t = none)
    (keeps : (∀ thread, w.thread? t = some thread → thread.Held t) →
      ∀ thread, w'.thread? t = some thread → thread.Held t) :
    w'.Balanced t (a + (w.starts t).toNat) (b + (w.returns t).toNat) := by
  simp only [starts, returns, idle, Option.any_none, Bool.toNat_false, Nat.add_zero]
  exact balanced.imp id (Or.imp id keeps)

/-- After the end an own step starts an action only if one has returned that no start has followed. -/
theorem own (balanced : w.Balanced t a b) (ceased : w.isOver = true) (explores : w.explores = true)
    {x : Task} {rest : List Task} {outside : Bool}
    (found : w.thread? t = some ⟨x :: rest, outside⟩) (arranged : Arranged (x :: rest))
    (moved : w.stepThread? t = some w') (doing : w.does? t = some x) :
    w'.Balanced t (a + (w.starts t).toNat) (b + (w.returns t).toNat) := by
  obtain ⟨le, free⟩ := balanced
  have returns : w.returns t = x.returns := by simp [World.returns, doing]
  rw [returns]
  cases back : x.returns with
  | true =>
    have still : w.starts t = false := by
      cases x <;> first | (simp only [starts, doing]; done) | cases back
    rw [still]
    exact ⟨Nat.le_succ_of_le le, .inl (Nat.lt_succ_of_le le)⟩
  | false =>
    simp only [Bool.toNat_false, Nat.add_zero]
    cases begins : w.starts t with
    | false =>
      exact ⟨le, free.imp id fun held thread now =>
        held_of_step ceased explores found arranged (held _ found) moved back now⟩
    | true =>
      obtain ⟨c, action, event, phase, rfl, there⟩ : ∃ c action event phase,
          x = .invoke c action event phase ∧ (w.core? c).isSome = true := by
        cases x <;> simp only [starts, doing, Bool.false_eq_true] at begins
        exact ⟨_, _, _, _, rfl, begins⟩
      have lt : a < b := by
        refine free.resolve_right fun held => ?_
        cases held _ found with
        | first held => rcases held with held | held | held <;> cases held
      refine ⟨lt, .inr fun thread now => ?_⟩
      obtain ⟨core, there⟩ := Option.isSome_iff_exists.1 there
      have executed : w.exec t (.invoke c action event phase) = .go
          [.perform (.action c phase) (action ⟨core.id, core.stateName, event, core.memory⟩)] w := by
        simp [exec, invoke, withCore, there]
      rw [stepThread?_go found executed found moved] at now
      rw [w.eq_of_thread?_setThread now]
      exact .first (.inr (.inl rfl)) _ _

end World.Balanced

namespace Experiment

variable [Strategy σ] {e : Experiment} {ids : Allocator} {s : σ} {m n : Nat} {t : ThreadId}

theorem balanced_succ (accepted : e.registry.Accepted) (ended : (e.iterate n ids s).isOver = true)
    {a b : Nat} (balanced : (e.iterate n ids s).Balanced t a b) :
    (e.iterate (n + 1) ids s).Balanced t (a + ((e.iterate n ids s).starts t).toNat)
      (b + ((e.iterate n ids s).returns t).toNat) := by
  rw [e.iterate_succ]
  cases moved : (e.iterate n ids s).step? with
  | none => exact balanced.of_idle (by simp [World.does?, moved]) id
  | some w' =>
    rw [Option.getD_some]
    rcases World.of_step? moved with ⟨u, moves, does⟩ | ⟨unmoved, clock, rfl⟩
    · have tended := e.tended accepted ids s n
      obtain ⟨x, rest, outside, found, _⟩ := World.of_stepThread? does
      have doing := World.does?_of_step? moved moves found t
      by_cases mine : t = u
      · subst mine
        rw [if_pos rfl] at doing
        exact balanced.own ended tended.explores found (arranged accepted n _ _ found) does doing
      · rw [if_neg mine] at doing
        exact balanced.of_idle doing fun held thread now =>
          World.held_of_other tended ((e.reached n ids s).orderly accepted) does mine held now
    · refine balanced.of_idle (by simp [World.does?, unmoved]) fun held thread now => held thread ?_
      cases t <;> exact now

/-- From the end of a run on as many actions have returned to a thread as it has started, or more. -/
theorem balanced_of_end (accepted : e.registry.Accepted)
    (running : (e.iterate m ids s).isOver = false) (ended : (e.iterate (m + 1) ids s).isOver = true)
    (k : Nat) : (e.iterate (m + 1 + k) ids s).Balanced t (e.started ids s t (m + 1) k)
      (e.returned ids s t (m + 1) k) := by
  induction k with
  | zero => exact ⟨Nat.le_refl _, .inr fun thread => held_of_first accepted running ended⟩
  | succ k ih =>
    rw [started_succ, returned_succ]
    exact balanced_succ accepted (isOver_of_le ended (Nat.le_add_right _ _)) ih

/-- From the end of a run on an actor that would take its next event, or do what is raised, retires. -/
theorem retires_of_cycle (accepted : e.registry.Accepted) (ceased : (e.iterate n ids s).isOver = true)
    {i : Nat} (cycles : (e.iterate n ids s).does? (.actor i) = some (.cycle i)) :
    ((e.iterate (n + 1) ids s).thread? (.actor i)).map (·.tasks) = some [.retire .yield] := by
  have succ := e.iterate_succ ids s n
  have arranged : (e.iterate n ids s).Everywhere Arranged := arranged accepted n
  generalize e.iterate n ids s = w at ceased cycles succ arranged
  obtain ⟨moves, rest, outside, found⟩ := World.thread_of_does? cycles
  obtain rfl : rest = [] := (arranged _ _ found).closed.1 rfl
  rw [succ]
  cases moved : w.step? with
  | none => simp [World.does?, moved] at cycles
  | some w' =>
    rcases World.of_step? moved with ⟨u, moves', does⟩ | ⟨unmoved, _⟩
    · obtain rfl := Option.some.inj (moves.symm.trans moves')
      have executed : w.exec (.actor i) (.cycle i) = w.unwind .canceled := by
        simp [World.exec, World.cycleActor, ceased]
      have abandons : w' = (w.abandon i).setThread (.actor i) ⟨[.retire .yield], false⟩ :=
        World.stepThread?_answer found executed does
      have kept := (w.abandon i).thread?_setThread ((w.thread?_abandon _ i).trans found)
        ⟨[.retire .yield], false⟩
      rw [Option.getD_some, abandons, kept]
      rfl
    · cases unmoved.symm.trans moves

/-- Once a run has ended a thread starts an action only after another one has returned to it: each
time it has started at most as many as have returned since. So if all actions that are running fail,
none is started. Actors take no event and do nothing that was raised: in the next cycle they retire. -/
theorem starts_only_after_returns (e : Experiment) (accepted : e.registry.Accepted) (ids : Allocator)
    (s : σ) {m : Nat} (running : (e.iterate m ids s).isOver = false)
    (ended : (e.iterate (m + 1) ids s).isOver = true) :
    (∀ t k, e.started ids s t (m + 1) k ≤ e.returned ids s t (m + 1) k) ∧
      ∀ i n, m < n → (e.iterate n ids s).does? (.actor i) = some (.cycle i) →
        ((e.iterate (n + 1) ids s).thread? (.actor i)).map (·.tasks) = some [.retire .yield] := by
  exact ⟨fun t k => (balanced_of_end accepted running ended k).1,
    fun i n later cycles => retires_of_cycle accepted (isOver_of_le ended later) cycles⟩

private def silent : Action := fun o => .finish o.memory .ok

private def leaves : StateDescriptor :=
  { name := "Init", initial := true, base := none
    entry := some fun o => .ask .own (.raise (.ofType ⟨"Leave"⟩)) fun _ => .finish o.memory .ok
    exit := some fun o => .ask .own (.terminate .stopped) fun _ => .finish o.memory .ok
    bindings := [(⟨"Leave"⟩, .goto "Left" (some silent))] }

private def left : StateDescriptor :=
  ⟨"Left", false, none, some silent, none, []⟩

/-- A machine that ends the run when it leaves its first state. -/
private def quitter : Declaration :=
  { typeTag := "M", kind := .machine, inherited := [], observes := [], derived := [leaves, left] }

private def quitterDescriptor : Descriptor := ⟨"M", .machine, [leaves, left], leaves, []⟩

/-- The test creates the machine. -/
def quitting : Experiment where
  settings := .exploration
  registry := ⟨Timer.descriptors ++ [quitterDescriptor]⟩
  test := .ask .own (.create "M" none none false) fun _ => .finish {} .ok

private def turnsOfQuitting : ScriptedStrategy := .ofAnswers [.ok 1]

private theorem accepted_quitting : quitting.registry.Accepted := by
  have built : quitter.build = .ok quitterDescriptor :=
    Declaration.build_of_plain (by decide) rfl rfl rfl rfl rfl
  exact ⟨[quitterDescriptor], by simpa using ⟨quitter, built⟩, rfl⟩

/-- The exit action ends the run and does not fail. So the transition action and the entry action of
the next state are still started, each when the one before has returned. -/
theorem starts_only_after_returns_quitting :
    (quitting.iterate 12 ⟨0, 0⟩ turnsOfQuitting).isOver = false ∧
      (quitting.iterate 13 ⟨0, 0⟩ turnsOfQuitting).isOver = true ∧
      quitting.started ⟨0, 0⟩ turnsOfQuitting (.actor 0) 13 12 = 2 ∧
      quitting.returned ⟨0, 0⟩ turnsOfQuitting (.actor 0) 13 12 = 3 ∧
      ∀ k, quitting.started ⟨0, 0⟩ turnsOfQuitting (.actor 0) 13 k ≤
        quitting.returned ⟨0, 0⟩ turnsOfQuitting (.actor 0) 13 k :=
  ⟨rfl, rfl, rfl, rfl,
    (starts_only_after_returns quitting accepted_quitting ⟨0, 0⟩ turnsOfQuitting (m := 12) rfl
      rfl).1 (.actor 0)⟩

end Experiment

end SteeredActors
