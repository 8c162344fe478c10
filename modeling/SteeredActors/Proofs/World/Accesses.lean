import SteeredActors.Proofs.World.Conservation
import SteeredActors.Proofs.World.Errands

/-!
# Accesses to shared objects

A program that calls a method of a shared object first comes to a scheduling point and waits for its
turn. An error there takes the access back. Otherwise the access takes effect in the very next step:
its thread holds the turn, and nobody else moves in between.
-/

set_option autoImplicit false
set_option relaxedAutoImplicit false

namespace SteeredActors

variable {σ : Type}

/-- An operation on a shared object that a program asked for, with what its thread goes back to. -/
structure Access where
  object : Nat
  operation : SharedOperation
  speaker : Speaker
  outside : Bool
  next : Answer → Program
  below : List Task

/-- How far an access has come. -/
inductive Access.Stage where
  /-- It comes to its scheduling point. -/
  | arrives
  /-- It hands over the turn. -/
  | passes
  /-- It waits for its turn. -/
  | waits
  /-- Its scheduling point let it go on. -/
  | granted
deriving DecidableEq

namespace Access

/-- What the thread has to do. -/
def tasks (a : Access) (stage : Stage) : List Task :=
  let touch := [.touch a.object a.operation, .resume a.speaker a.outside true a.next] ++ a.below
  match stage with
  | .arrives => .point .sharedAccess :: touch
  | .passes => .pass .sharedAccess :: .turn :: touch
  | .waits => .turn :: touch
  | .granted => touch

/-- Tasks tell which access it is and how far it has come. -/
theorem tasks_inj {a b : Access} {stage stage' : Stage} (same : a.tasks stage = b.tasks stage') :
    a = b ∧ stage = stage' := by
  cases a
  cases b
  cases stage <;> cases stage' <;> cases same <;> exact ⟨rfl, rfl⟩

/-- How far an access comes next. -/
def Stage.next : Stage → Stage
  | .arrives => .passes
  | .passes => .waits
  | .waits | .granted => .granted

/-- The thread goes on with an answer. -/
def answered (a : Access) (answer : Answer) : Thread :=
  ⟨.perform a.speaker (a.next (World.adaptAnswer true answer)) :: a.below, a.outside⟩

end Access

/-- An access takes effect. -/
def Task.isTouch : Task → Bool
  | .touch _ _ => true
  | _ => false

/-! ## Who is known -/

namespace World

variable {w w' : World σ} {t : ThreadId}

/-- While decisions are explored the controller knows every thread but the sleepers, unless it is
outside. -/
theorem isSome_caller? {thread : Thread} (explores : w.explores = true)
    (found : w.thread? t = some thread) :
    (w.caller? t).isSome = true ↔ thread.outside = false ∧ ∀ j, t ≠ .sleeper j := by
  simp only [caller?, found]
  cases thread.outside with
  | true => simp
  | false =>
    cases t with
    | driver => simp [operation?, explores]
    | actor i =>
      obtain ⟨a, there, _⟩ := Option.map_eq_some_iff.1 found
      simp [operation?, there]
    | sleeper j => simp [operation?]

theorem thread?_setObjects (w : World σ) (t : ThreadId) (objects : List SharedObject) :
    thread? { w with objects } t = w.thread? t := by
  cases t <;> rfl

/-! ## At most one access at a time -/

/-- A thread has no access or one, which comes first. Only the holder of the turn has one that is
granted, and only as long as the run goes on. -/
inductive Tends (w : World σ) (t : ThreadId) (thread : Thread) : Prop where
  | rests (untouched : ∀ x ∈ thread.tasks, x.isTouch = false)
  | accesses (a : Access) (stage : Access.Stage) (tasks : thread.tasks = a.tasks stage)
      (below : ∀ x ∈ a.below, x.isTouch = false)
      (known : stage ≠ .arrives → thread.outside = false ∧ ∀ j, t ≠ .sleeper j)
      (granted : stage = .granted → w.isOver = false ∧ t = threadOf w.controller.scheduled)

/-- Every thread does. -/
structure Tended (w : World σ) : Prop where
  explores : w.explores = true
  threads : ∀ t thread, w.thread? t = some thread → w.Tends t thread

variable [Strategy σ] {a : Access} {outside : Bool}

/-! ## From stage to stage -/

/-- An access that comes to its scheduling point is refused there, or it hands over the turn. -/
theorem step_arrives (explores : w.explores = true)
    (found : w.thread? t = some ⟨a.tasks .arrives, outside⟩)
    (moved : w.stepThread? t = some w') :
    (∃ r, w' = w.setThread t (a.answered (.error (.runtime r)))) ∨
      (w.caller? t).isSome = true ∧ w' = w.setThread t ⟨a.tasks .passes, outside⟩ := by
  cases executed : w.exec t (.point .sharedAccess) with
  | wait =>
    rw [stepThread?_wait found executed] at moved
    cases moved
  | answer answer w₁ =>
    have same : ∃ r, answer = .error (.runtime r) ∧ w₁ = w := by
      simp only [exec] at executed
      split at executed
      · cases executed
        exact ⟨_, rfl, rfl⟩
      · split at executed
        · cases executed
        · split at executed
          · cases executed
            exact ⟨_, rfl, rfl⟩
          · cases executed
    obtain ⟨r, rfl, rfl⟩ := same
    exact .inl ⟨r, stepThread?_answer found executed moved⟩
  | go xs w₁ =>
    have same : xs = [.pass .sharedAccess, .turn] ∧ w₁ = w ∧ (w.caller? t).isSome = true := by
      simp only [exec] at executed
      split at executed
      · cases executed
      · rw [explores] at executed
        split at executed
        · next absurd_ => cases absurd_
        · split at executed
          · cases executed
          · next known =>
            cases executed
            refine ⟨rfl, rfl, ?_⟩
            by_contra unknown
            have none : w.caller? t = none := by simpa using unknown
            simp [ensureKnown, none, explores] at known
    obtain ⟨rfl, rfl, known⟩ := same
    exact .inr ⟨known, stepThread?_go found executed found moved⟩

/-- The decision at its scheduling point changes nothing but the controller. -/
theorem step_passes (found : w.thread? t = some ⟨a.tasks .passes, outside⟩)
    (moved : w.stepThread? t = some w') :
    ∃ c : Controller σ, c.mode = w.controller.mode ∧
      w' = World.setThread { w with controller := c } t ⟨a.tasks .waits, outside⟩ := by
  have executed : ∃ c : Controller σ, c.mode = w.controller.mode ∧
      w.exec t (.pass .sharedAccess) = .go [] { w with controller := c } := by
    simp only [exec]
    split
    · exact ⟨_, (Controller.Steers.schedule _ _ _).mode, rfl⟩
    · exact ⟨w.controller, rfl, rfl⟩
  obtain ⟨c, mode, executed⟩ := executed
  exact ⟨c, mode, stepThread?_go found executed ((thread?_setController w t c).trans found) moved⟩

/-- An access that waits for its turn gets it in a run that goes on, and is refused when the run has
ended. -/
theorem step_waits (explores : w.explores = true)
    (found : w.thread? t = some ⟨a.tasks .waits, outside⟩)
    (known : (w.caller? t).isSome = true) (moved : w.stepThread? t = some w') :
    w.isOver = true ∧ w' = w.setThread t (a.answered (.error (.runtime .canceled))) ∨
      w.isOver = false ∧ w' = w.setThread t ⟨a.tasks .granted, outside⟩ := by
  obtain ⟨op, called⟩ := Option.isSome_iff_exists.1 known
  have executed : w.exec t .turn = w.follow (w.controller.passage op) [] := by
    simp only [exec, called]
  cases ceased : w.isOver with
  | true =>
    have canceled : w.controller.passage op = .canceled := by
      have over' : w.controller.isOver = true := ceased
      simp [Controller.passage, over']
    rw [canceled] at executed
    exact .inl ⟨rfl, stepThread?_answer found executed moved⟩
  | false =>
    rw [Controller.passage_eq (mode_of_explores explores) ceased] at executed
    split at executed
    · have goes := stepThread?_go found executed found moved
      exact .inr ⟨rfl, goes⟩
    · rw [stepThread?_wait found executed] at moved
      cases moved

/-- An access that is granted takes effect. -/
theorem step_granted (found : w.thread? t = some ⟨a.tasks .granted, outside⟩)
    (moved : w.stepThread? t = some w') :
    (∀ o, w.objects[a.object]? = some o →
      w' = World.setThread
        { w with objects := w.objects.set a.object (a.operation.apply w.objects o).2 } t
        (a.answered (a.operation.apply w.objects o).1)) ∧
    (w.objects[a.object]? = none →
      w' = w.setThread t (a.answered (.error SharedOperation.unsupported))) := by
  refine ⟨fun o there => ?_, fun absent => ?_⟩
  · have executed : w.exec t (.touch a.object a.operation) =
        .answer (a.operation.apply w.objects o).1
          { w with objects := w.objects.set a.object (a.operation.apply w.objects o).2 } := by
      simp only [exec, there]
    exact stepThread?_answer found executed moved
  · have executed : w.exec t (.touch a.object a.operation) =
        .answer (.error SharedOperation.unsupported) w := by
      simp only [exec, absent]
    exact stepThread?_answer found executed moved

omit [Strategy σ] in
private theorem isTouch_of_plain {y : Task} (plain : y.isErrand = false) : y.isTouch = false := by
  cases y <;> first | rfl | cases plain

/-- A task that asks for nothing leaves shared objects alone, unless an access takes effect, and all
threads, unless a program goes on in its own. -/
theorem bypasses_exec (w : World σ) (t u : ThreadId) {x : Task} (unasked : x.request? = none)
    (plain : x.isTouch = false) (own : x.waits = true → u = t) :
    (w.exec t x).Leads (w.Bypasses u) fun _ => True := by
  cases registers : x.registers with
  | true =>
    cases x
    case install d id =>
      rcases w.exec_install t d id with ⟨executed, _⟩ | ⟨r, executed⟩ | ⟨_, executed⟩ <;> rw [executed]
      · trivial
      · exact Bypasses.refl w
      · exact ⟨⟨rfl, fun u _ _ found => by cases u <;> exact found⟩, fun _ _ => trivial⟩
    case enlist m => exact ⟨⟨rfl, fun u _ _ found => by cases u <;> exact found⟩, by simp⟩
    all_goals cases registers
  | false =>
    have leads := w.errands_exec_of t u unasked (by rintro object operation rfl; cases plain)
      registers own
    cases executed : w.exec t x with
    | wait => trivial
    | answer a w₁ =>
      rw [executed] at leads
      exact leads.toBypasses
    | go xs w₁ =>
      rw [executed] at leads
      exact ⟨leads.1.toBypasses, fun _ _ => trivial⟩

omit [Strategy σ] in
/-- A step that leaves all objects alone and may make one. -/
structure Makes (w w' : World σ) (t : ThreadId) (object : Option SharedObject) : Prop where
  objects : w'.objects = w.objects ++ object.toList
  others : ∀ u thread, u ≠ t → w.thread? u = some thread → w'.thread? u = some thread

omit [Strategy σ] in
theorem Bypasses.makes (bypasses : w.Bypasses t w') : w.Makes w' t none :=
  ⟨by rw [bypasses.objects, Option.toList_none, List.append_nil], bypasses.others⟩

omit [Strategy σ] in
private theorem Makes.setThread {object : Option SharedObject} (makes : w.Makes w' t object)
    (thread : Thread) : w.Makes (w'.setThread t thread) t object :=
  ⟨by rw [objects_setThread, makes.objects], fun u old other found => by
    rw [w'.thread?_setThread_ne other, makes.others u old other found]⟩

private theorem makes_service (w : World σ) (t : ThreadId) (thread : Thread) (speaker : Speaker)
    (voice : Voice) (request : Request) (next : Answer → Program) :
    (w.service t thread speaker voice request).Leads
      (w.Makes · t (Task.perform speaker (.ask voice request next)).makes?) fun _ => True := by
  have brings := w.brings_service t thread speaker voice request
  by_cases made : ∃ object, request = .newObject object
  · obtain ⟨object, rfl⟩ := made
    exact ⟨rfl, fun u _ _ found => by cases u <;> exact found⟩
  · have none : (Task.perform speaker (.ask voice request next)).makes? = none := by
      cases request <;> first | rfl | exact absurd ⟨_, rfl⟩ made
    rw [none]
    generalize w.service t thread speaker voice request = served at brings
    cases brings with
    | makes asks => exact absurd ⟨_, asks⟩ made
    | now retains => exact retains.toBypasses.makes
    | later retains => exact ⟨retains.toBypasses.makes, fun _ _ => trivial⟩
    | accesses | sends => exact ⟨(Bypasses.refl w).makes, fun _ _ => trivial⟩

/-- A step of a thread without an access leaves all objects alone and may make one. -/
theorem makes_of_untouched {x : Task} {rest : List Task}
    (found : w.thread? t = some ⟨x :: rest, outside⟩) (plain : x.isTouch = false)
    (moved : w.stepThread? t = some w') : w.Makes w' t x.makes? := by
  obtain ⟨x', rest', outside', found', steps⟩ := of_stepThread? moved
  cases found.symm.trans found'
  cases asks : x.request? with
  | none =>
    have none : x.makes? = none := by
      cases x
      case perform speaker program => cases program <;> first | rfl | cases asks
      all_goals rfl
    have leads := w.bypasses_exec t t asks plain fun _ => rfl
    rw [none]
    rcases steps with ⟨xs, w₁, old, executed, _, rfl⟩ | ⟨a, w₁, executed, rfl⟩ <;>
      rw [executed] at leads
    · exact leads.1.makes.setThread _
    · exact (leads.trans (w₁.bypasses_deliverAnswer t a rest)).makes
  | some request =>
    obtain ⟨speaker, voice, next, rfl⟩ := Task.of_request? asks
    have makes := w.makes_service t
      ⟨.perform speaker (.ask voice request next) :: rest, outside⟩ speaker voice request next
    rcases exec_ask found speaker voice request next with
      ⟨a, w₁, served, executed⟩ | ⟨tasks, w₁, outside', served, executed⟩ <;> rw [served] at makes
    all_goals rcases steps with ⟨xs, w₂, old, executed', _, rfl⟩ | ⟨_, _, executed', _⟩
    all_goals cases executed'.symm.trans executed
    · exact Makes.setThread makes _
    · exact (makes.1.setThread _).setThread _

omit [Strategy σ] in
/-- It may begin an access. -/
theorem arrives_of_leaves {x : Task} {rest tasks : List Task} (leaves : x.Leaves w rest tasks)
    (below : ∀ y ∈ rest, y.isTouch = false) : (∀ y ∈ tasks, y.isTouch = false) ∨
      ∃ a : Access, tasks = a.tasks .arrives ∧ ∀ y ∈ a.below, y.isTouch = false := by
  cases leaves with
  | goes plain =>
    exact .inl (List.forall_mem_append.2 ⟨fun y mem => isTouch_of_plain (plain y mem), below⟩)
  | installs => exact .inl (List.forall_mem_append.2 ⟨by simp [Task.isTouch], below⟩)
  | resumes program suffix =>
    exact .inl (List.forall_mem_cons.2
      ⟨rfl, fun y mem => below y (suffix.subset (List.mem_cons_of_mem _ mem))⟩)
  | retires | ends => exact .inl (by simp [Task.isTouch])
  | @accesses object operation speaker _ _ next outside =>
    exact .inr ⟨⟨object, operation, speaker, outside, next, rest⟩, rfl, below⟩
  | @sends _ _ _ y _ _ _ _ _ _ _ _ posts plain =>
    refine .inl (List.forall_mem_cons.2 ⟨rfl, List.forall_mem_cons.2 ⟨?_, ?_⟩⟩)
    · cases y <;> first | rfl | cases posts
    · exact List.forall_mem_append.2 ⟨fun y mem => isTouch_of_plain (plain y mem), below⟩

/-! ## Every thread keeps to it -/

/-- Who holds the turn moves next. -/
theorem mover?_of_running (explores : w.explores = true) (running : w.isOver = false) :
    w.mover? = some (threadOf w.controller.scheduled) := by
  simp [mover?, explores, running]

omit [Strategy σ] in
/-- What a step of a thread is to shared objects. -/
inductive Shares (w w' : World σ) (t : ThreadId) : Prop where
  /-- The thread has no access in hand. -/
  | rests {x : Task} {rest : List Task} {outside : Bool}
      (found : w.thread? t = some ⟨x :: rest, outside⟩)
      (untouched : ∀ y ∈ x :: rest, y.isTouch = false) (makes : w.Makes w' t x.makes?)
      (leaves : ∀ thread, w'.thread? t = some thread → x.Leaves w rest thread.tasks)
  /-- The scheduling point of its access returns an error. -/
  | refuses {a : Access} {stage : Access.Stage} {outside : Bool} {r : Refusal}
      (found : w.thread? t = some ⟨a.tasks stage, outside⟩) (early : stage ≠ .granted)
      (below : ∀ y ∈ a.below, y.isTouch = false) (ended : stage = .waits → w.isOver = true)
      (goes : w' = w.setThread t (a.answered (.error (.runtime r))))
  /-- Its access comes one stage further. -/
  | proceeds {a : Access} {stage : Access.Stage} {outside : Bool} {c : Controller σ}
      (found : w.thread? t = some ⟨a.tasks stage, outside⟩) (early : stage ≠ .granted)
      (below : ∀ y ∈ a.below, y.isTouch = false)
      (known : outside = false ∧ ∀ j, t ≠ .sleeper j)
      (decides : stage ≠ .passes → c = w.controller)
      (granted : stage = .waits → w.isOver = false)
      (goes : w' = World.setThread { w with controller := c } t ⟨a.tasks stage.next, outside⟩)
  /-- Its access takes effect. -/
  | lands {a : Access} {outside : Bool}
      (found : w.thread? t = some ⟨a.tasks .granted, outside⟩)
      (below : ∀ y ∈ a.below, y.isTouch = false) (running : w.isOver = false)
      (effect : ∀ o, w.objects[a.object]? = some o →
        w' = World.setThread
          { w with objects := w.objects.set a.object (a.operation.apply w.objects o).2 } t
          (a.answered (a.operation.apply w.objects o).1))
      (void : w.objects[a.object]? = none →
        w' = w.setThread t (a.answered (.error SharedOperation.unsupported)))

namespace Tended

theorem shares (tended : w.Tended) (moved : w.stepThread? t = some w') : w.Shares w' t := by
  obtain ⟨x, rest, outside, found, _⟩ := of_stepThread? moved
  cases tended.threads t _ found with
  | rests untouched =>
    exact .rests found untouched (makes_of_untouched found (untouched _ List.mem_cons_self) moved)
      fun _ now => leaves_of_stepThread? found moved now
  | accesses a stage tasks below known granted =>
    rw [show x :: rest = a.tasks stage from tasks] at found
    cases stage with
    | arrives =>
      rcases step_arrives tended.explores found moved with ⟨r, goes⟩ | ⟨called, goes⟩
      · exact .refuses found nofun below nofun goes
      · exact .proceeds found nofun below ((isSome_caller? tended.explores found).1 called)
          (fun _ => rfl) nofun goes
    | passes =>
      obtain ⟨c, _, goes⟩ := step_passes found moved
      exact .proceeds found nofun below (known nofun) (fun ne => absurd rfl ne) nofun goes
    | waits =>
      have called := (isSome_caller? tended.explores found).2 (known nofun)
      rcases step_waits tended.explores found called moved with ⟨ended, goes⟩ | ⟨running, goes⟩
      · exact .refuses found nofun below (fun _ => ended) goes
      · exact .proceeds found nofun below (known nofun) (fun _ => rfl) (fun _ => running) goes
    | granted =>
      have lands := step_granted found moved
      exact .lands found below (granted rfl).1 lands.1 lands.2

end Tended

omit [Strategy σ] in
/-- A step leaves other threads alone. -/
theorem Shares.others (shares : w.Shares w' t) {u : ThreadId} {thread : Thread} (other : u ≠ t)
    (found : w.thread? u = some thread) : w'.thread? u = some thread := by
  cases shares with
  | rests _ _ makes => exact makes.others u thread other found
  | refuses _ _ _ _ goes => rw [goes, w.thread?_setThread_ne other, found]
  | proceeds _ _ _ _ _ _ goes =>
    rw [goes, thread?_setThread_ne _ other, thread?_setController, found]
  | @lands a _ _ _ _ effect void =>
    cases there : w.objects[a.object]? with
    | none => rw [void there, w.thread?_setThread_ne other, found]
    | some o =>
      rw [effect o there, thread?_setThread_ne _ other, thread?_setObjects, found]

namespace Tended

/-- What the thread that moves has to do afterwards. -/
private theorem own (tended : w.Tended) (moves : w.mover? = some t) (shares : w.Shares w' t)
    {thread : Thread} (now : w'.thread? t = some thread) : w'.Tends t thread := by
  have settled : ∀ (w₁ : World σ) (a : Access) (answer : Answer),
      (∀ x ∈ a.below, x.isTouch = false) → w' = w₁.setThread t (a.answered answer) →
      w'.Tends t thread := by
    rintro w₁ a answer below rfl
    rw [w₁.eq_of_thread?_setThread now]
    exact .rests (List.forall_mem_cons.2 ⟨rfl, below⟩)
  cases shares with
  | rests _ untouched _ leaves =>
    rcases arrives_of_leaves (leaves thread now) (List.forall_mem_cons.1 untouched).2 with
      untouched | ⟨a, tasks, below⟩
    · exact .rests untouched
    · exact .accesses a .arrives tasks below (fun ne => absurd rfl ne) nofun
  | refuses _ _ below _ goes => exact settled _ _ _ below goes
  | @proceeds a stage outside c found early below known decides granted goes =>
    subst goes
    rw [eq_of_thread?_setThread _ now]
    refine .accesses a stage.next rfl below (fun _ => known) fun last => ?_
    have waited : stage = .waits := by
      cases stage <;> first | rfl | exact absurd rfl early | cases last
    obtain rfl := decides (by rw [waited]; nofun)
    have running := granted waited
    rw [mover?_of_running tended.explores running] at moves
    rw [World.isOver, controller_setThread]
    exact ⟨running, (Option.some.inj moves).symm⟩
  | @lands a outside found below running effect void =>
    cases there : w.objects[a.object]? with
    | some o => exact settled _ a _ below (effect o there)
    | none => exact settled _ a _ below (void there)

/-- Threads that do not move. -/
private theorem others (tended : w.Tended) (orderly : w.Orderly) (moves : w.mover? = some t)
    (moved : w.stepThread? t = some w') {u : ThreadId} (other : u ≠ t) {thread : Thread}
    (now : w'.thread? u = some thread) : w'.Tends u thread := by
  rcases orderly.bystander moved other now with ⟨old, was, _⟩ | ⟨_, k, fresh | fresh⟩
  · obtain rfl := Option.some.inj (now.symm.trans ((tended.shares moved).others other was))
    cases tended.threads u thread was with
    | rests untouched => exact .rests untouched
    | accesses a stage tasks below known granted =>
      refine .accesses a stage tasks below known fun last => ?_
      obtain ⟨running, turn⟩ := granted last
      rw [mover?_of_running tended.explores running] at moves
      exact absurd (turn.trans (Option.some.inj moves)) other
  all_goals
    refine .rests ?_
    rw [fresh]
    exact List.forall_mem_singleton.2 rfl

theorem step (tended : w.Tended) (orderly : w.Orderly) (moved : w.step? = some w') :
    w'.Tended := by
  have explores : w'.explores = true := by
    have mode := (orderly.evolves (moves_of_step? moved)).controller.mode
    have explores := tended.explores
    simp only [World.explores, Controller.explores, mode] at explores ⊢
    exact explores
  rcases of_step? moved with ⟨t, moves, does⟩ | ⟨_, clock, rfl⟩
  · refine ⟨explores, fun u thread now => ?_⟩
    by_cases mine : u = t
    · subst mine
      exact tended.own moves (tended.shares does) now
    · exact tended.others orderly moves does mine now
  · refine ⟨explores, fun u thread now => ?_⟩
    have was : w.thread? u = some thread := by cases u <;> exact now
    cases tended.threads u thread was with
    | rests untouched => exact .rests untouched
    | accesses a stage tasks below known granted => exact .accesses a stage tasks below known granted

omit [Strategy σ] in
theorem initial (strategy : σ) (maxSteps : Nat) (registry : Registry) (policy : DequeuePolicy)
    (ids : Allocator) (test : Program) :
    (World.new (.exploration strategy maxSteps) registry policy ids test).Tended := by
  refine ⟨rfl, fun t thread found => .rests ?_⟩
  cases t with
  | driver =>
    obtain rfl := Option.some.inj found
    exact List.forall_mem_singleton.2 rfl
  | actor i | sleeper j => cases found

end Tended

end World

/-- In every explored run. -/
theorem Experiment.tended [Strategy σ] (e : Experiment) (accepted : e.registry.Accepted)
    (ids : Allocator) (s : σ) (n : Nat) : (e.iterate n ids s).Tended := by
  induction n with
  | zero => exact .initial _ _ _ _ _ _
  | succ n ih =>
    rw [e.iterate_succ]
    cases moved : (e.iterate n ids s).step? with
    | none => exact ih
    | some w => exact ih.step ((e.reached n ids s).orderly accepted) moved

end SteeredActors
