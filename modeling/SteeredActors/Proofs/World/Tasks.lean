import SteeredActors.World.Step

/-!
# Task lists that arise

While a run goes on, the list of a working thread ends in what the thread does by itself, and all
that stands before it belongs to the thread or to monitors. A task that answers has a waiting program
below it, a task that speaks for the operation stands where the thread runs under its own name, and
an actor is interpreted only where no program of its own waits.
-/

set_option autoImplicit false
set_option relaxedAutoImplicit false

namespace SteeredActors

/-- The actor whose thread it is. -/
def ThreadId.own? : ThreadId → Option Nat
  | .actor i => some i
  | .driver | .sleeper _ => none

/-- Monitors may be interpreted by any thread, an actor only by its own and while no program waits
further down. -/
def Subject.OwnedBy (own : Option Nat) (below : Bool) : Subject → Prop
  | .actor i => own = some i ∧ below = false
  | .monitor _ => True

namespace Task

/-- A program waits for an answer. -/
def waits : Task → Bool
  | .resume _ _ _ _ => true
  | _ => false

/-- The tasks after which the stack of an actor is another one, and those that need one. -/
def shifts : Task → Bool
  | .start (.actor _) _ | .switch (.actor _) _ _ | .enter (.actor _) _ _ | .pop (.actor _)
  | .dropTop (.actor _) | .handle (.actor _) _ _ | .cycle _ => true
  | _ => false

/-- The tasks that act on others than the thread that does them, and requests, which may. -/
def acts : Task → Bool
  | .post _ _ | .engage _ _ | .pass _ | .perform _ (.ask _ _ _) => true
  | _ => false

/-- A task at which its thread has work and its actor has not halted. -/
def busy : Task → Bool
  | .cycle _ | .settle _ _ _ | .pass _ => false
  | _ => true

/-- The tasks between the turns of an actor and at its end. -/
def between : Task → Bool
  | .firstTurn _ | .wake _ | .rest _ | .retire _ => true
  | _ => false

/-- The rendezvous whose reply depends on a task, with the event that is to be handled or with what
it will be told. -/
def charge? : Task → Option (Nat × (Event ⊕ Bool))
  | .handle (.actor _) event (some r) => some (r, .inl event)
  | .settle _ r handled => some (r, .inr handled)
  | _ => none

end Task

/-- Some program waits for an answer. -/
def awaited (tasks : List Task) : Bool := tasks.any Task.waits

@[simp] theorem awaited_nil : awaited [] = false := rfl

@[simp] theorem awaited_cons (x : Task) (tasks : List Task) :
    awaited (x :: tasks) = (x.waits || awaited tasks) := rfl

@[simp] theorem awaited_append (xs ys : List Task) :
    awaited (xs ++ ys) = (awaited xs || awaited ys) := by
  simp [awaited]

/-- The rendezvous whose replies depend on tasks, with the events or with what they will be told. -/
def charges (tasks : List Task) : List (Nat × (Event ⊕ Bool)) := tasks.filterMap Task.charge?

/-- The rendezvous whose replies depend on tasks. -/
def carried (tasks : List Task) : List Nat := (charges tasks).map (·.1)

/-- With so many states on the stack of an actor, none of the tasks finds the stack empty. -/
def Grounded : List Task → Nat → Prop
  | [], _ => True
  | .cycle _ :: _, n => 0 < n
  | .start (.actor _) _ :: tasks, n | .enter (.actor _) _ _ :: tasks, n => Grounded tasks (n + 1)
  | .switch (.actor _) _ _ :: tasks, n => Grounded tasks (n - 1 + 1)
  | .dropTop (.actor _) :: tasks, n => Grounded tasks (n - 1)
  | .pop (.actor _) :: tasks, _ | .handle (.actor _) _ _ :: tasks, _ =>
    ∀ m, 0 < m → Grounded tasks m
  | _ :: tasks, n => Grounded tasks n

theorem grounded_cons {x : Task} (still : x.shifts = false) (tasks : List Task) (n : Nat) :
    Grounded (x :: tasks) n ↔ Grounded tasks n := by
  cases x <;> try rfl
  case cycle => cases still
  case start c _ | switch c _ _ | enter c _ _ | pop c | dropTop c | handle c _ _ =>
    cases c with
    | actor i => cases still
    | monitor m => rfl

theorem grounded_append {xs : List Task} (still : ∀ x ∈ xs, x.shifts = false) (tasks : List Task)
    (n : Nat) : Grounded (xs ++ tasks) n ↔ Grounded tasks n := by
  induction xs with
  | nil => rfl
  | cons x xs ih =>
    rw [List.cons_append, grounded_cons (still x (by simp))]
    exact ih fun y hy => still y (by simp [hy])

/-- The tasks that may stand above others in a thread. `outside` tells that a thread unknown to the
controller runs in its place, and `below` that a program waits for an answer further down. -/
def Task.Fits (own : Option Nat) (outside below : Bool) : Task → Prop
  | .start c _ | .invoke c _ _ _ | .switch c _ _ | .enter c _ _ | .pop c | .dropTop c =>
    c.OwnedBy own below
  | .handle (.monitor _) _ none => True
  | .perform (.action c _) _ => c.OwnedBy own below
  | .forward _ | .deliver _ _ | .drain _ | .defaults _ | .release _ | .enlist _ => True
  | .await _ | .awaitHalted _ | .awaitQuiescence => True
  | .notify _ _ | .install _ _ | .listMonitors | .readMonitor _ => below = true
  | .touch _ _ | .answer _ => below = true
  | .engage _ _ => outside = false ∧ below = true
  | .point _ => outside = false ∨ below = true
  | .post _ _ | .pass _ | .turn => outside = false
  | _ => False

namespace Task.Fits

variable {own : Option Nat} {outside below : Bool} {x : Task}

/-- No task that fits waits for an answer. -/
theorem waits (h : x.Fits own outside below) : x.waits = false := by
  cases x <;> try rfl
  exact h.elim

theorem busy (h : x.Fits own outside below) (modest : x.acts = false) : x.busy = true := by
  cases x <;> try rfl
  case pass => cases modest
  all_goals exact h.elim

/-- No reply depends on a task that fits. -/
theorem charge? (h : x.Fits own outside below) : x.charge? = none := by
  cases x <;> try rfl
  · next c _ r =>
    cases c with
    | actor i => cases r <;> exact h.elim
    | monitor m => rfl
  · exact h.elim

/-- Above a program that waits, the stack of the actor is left alone. -/
theorem not_shifts (h : x.Fits own outside true) : x.shifts = false := by
  cases x <;> try rfl
  case cycle => exact h.elim
  case start c _ | switch c _ _ | enter c _ _ | pop c | dropTop c =>
    cases c with
    | actor i => cases h.2
    | monitor m => rfl
  case handle c _ r =>
    cases c with
    | actor i => cases r <;> exact h.elim
    | monitor m => rfl

end Task.Fits

/-- Tasks that fit, above others, wait for nothing. -/
theorem awaited_of_fits {own : Option Nat} {outside below : Bool} {xs : List Task}
    (fits : ∀ x ∈ xs, x.Fits own outside below) : awaited xs = false := by
  simp only [awaited, List.any_eq_false]
  intro x hx
  simp [(fits x hx).waits]

theorem charges_append_of_fits {own : Option Nat} {outside below : Bool} {xs : List Task}
    (fits : ∀ x ∈ xs, x.Fits own outside below) (tasks : List Task) :
    charges (xs ++ tasks) = charges tasks := by
  have none : xs.filterMap Task.charge? = [] := by
    rw [List.filterMap_eq_nil_iff]
    exact fun x hx => (fits x hx).charge?
  rw [charges, List.filterMap_append, none, List.nil_append, charges]

theorem charges_cons_of_fits {own : Option Nat} {outside below : Bool} {x : Task}
    (fits : x.Fits own outside below) (tasks : List Task) :
    charges (x :: tasks) = charges tasks := by
  simp [charges, fits.charge?]

/-- The tasks of a thread at work, by whose it is and whether it runs under its own name. -/
inductive Working (own : Option Nat) : Bool → List Task → Prop where
  | cycle {i : Nat} (mine : own = some i) : Working own false [.cycle i]
  | settle {i : Nat} (mine : own = some i) (r : Nat) (handled : Bool) :
      Working own false [.settle i r handled, .cycle i]
  | handle {i : Nat} (mine : own = some i) (event : Event) (rendezvous : Option Nat) :
      Working own false [.handle (.actor i) event rendezvous, .cycle i]
  | test (none : own = none) (program : Program) : Working own false [.perform .test program]
  | testWaits (none : own = none) (outside shared : Bool) (next : Answer → Program) :
      Working own outside [.resume .test false shared next]
  | collect {tasks : List Task} (r : Nat) (waiting : awaited tasks = true)
      (rest : Working own false tasks) : Working own false (.collect r :: tasks)
  | waits {c : Subject} {tasks : List Task} (mine : c.OwnedBy own (awaited tasks)) (phase : Phase)
      (outside : Bool) {before : Bool} (shared : Bool) (next : Answer → Program)
      (rest : Working own before tasks) (below : own = none → awaited tasks = true) :
      Working own outside (.resume (.action c phase) before shared next :: tasks)
  | cons {outside : Bool} {x : Task} {tasks : List Task}
      (fits : x.Fits own outside (awaited tasks)) (rest : Working own outside tasks)
      (below : own = none → awaited tasks = true) : Working own outside (x :: tasks)

namespace Working

variable {own : Option Nat} {outside : Bool}

/-- Tasks that fit may be put in front. -/
theorem append {xs tasks : List Task} (rest : Working own outside tasks)
    (fits : ∀ x ∈ xs, x.Fits own outside (awaited tasks))
    (below : own = none → awaited tasks = true) : Working own outside (xs ++ tasks) := by
  induction xs with
  | nil => exact rest
  | cons x xs ih =>
    have later : ∀ y ∈ xs, y.Fits own outside (awaited tasks) :=
      fun y hy => fits y (by simp [hy])
    have same : awaited (xs ++ tasks) = awaited tasks := by
      rw [awaited_append, awaited_of_fits later, Bool.false_or]
    rw [List.cons_append]
    refine .cons ?_ (ih later) ?_
    · rw [same]
      exact fits x (by simp)
    · rw [same]
      exact below

theorem ne_nil {tasks : List Task} (h : Working own outside tasks) : tasks ≠ [] := by
  cases h <;> simp

theorem not_between {x : Task} {tasks : List Task} (h : Working own outside (x :: tasks)) :
    x.between = false := by
  cases h with
  | cons fits => cases x <;> first | rfl | exact fits.elim
  | cycle | settle | handle | test | testWaits | collect | waits => rfl

/-- A thread that is about to rest does not work. -/
theorem not_pausing {kind : PointKind} {i : Nat} : ¬Working own outside [.pass kind, .rest i] := by
  intro h
  cases h with
  | cons _ rest => cases rest.not_between

end Working

end SteeredActors
