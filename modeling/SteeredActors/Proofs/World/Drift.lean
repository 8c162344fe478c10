import SteeredActors.Proofs.World.Exclusion

/-!
# Work without decisions

A thread that neither asks for a decision nor takes events from a queue comes to an end unless it goes
round: programs make finitely many requests, interpreters lead to finitely many actions, and deliveries
to monitors nest only so deep. The argument follows the stack of tasks. What a thread can never have to
do is found from below: once it can neither get to what stands below a task nor to the programs that
wait there, it can not get to the task either.
-/

set_option autoImplicit false
set_option relaxedAutoImplicit false

namespace SteeredActors

variable {σ : Type}

namespace Task

/-- A decision comes of this, unless it is given up. -/
def schedules : Task → Bool
  | .pass _ | .retire _ | .point _ => true
  | _ => false

/-- The work of a timer that is asleep or fires. -/
def fires : Task → Bool
  | .sleep _ | .perform (.sleeper _) _ => true
  | _ => false

/-- The more may come of a task, the higher it ranks. -/
def rank : Task → Nat
  | .firstTurn _ | .rest _ => 10
  | .wake _ => 9
  | .cycle _ => 8
  | .handle _ _ _ => 7
  | .switch _ _ _ | .pop _ => 6
  | .start _ _ | .enter _ _ _ => 5
  | .invoke _ _ _ _ => 4
  | .perform _ _ => 3
  | .forward _ | .notify _ _ | .engage _ _ => 2
  | .deliver _ _ | .install _ _ => 1
  | _ => 0

/-- What does not lead to tasks of lower rank only: the work of an actor goes on, programs wait for answers,
and monitors are taken in hand. -/
def rises : Task → Bool
  | .cycle _ | .perform _ _ | .resume _ _ _ _ | .deliver _ _ | .install _ _ => true
  | _ => false

theorem rank_of_serves {x : Task} (serves : x.serves = true) : x.waits = false ∧ x.rank < 3 := by
  cases x <;> first | cases serves; done | simp [waits, rank]

end Task

section Parts

variable (c : Subject)

private theorem rank_invocation (event : Option Event) (phase : Phase) (a : Option Action) :
    ∀ y ∈ World.invocation c event phase a, y.waits = false ∧ y.rank < 5 := by
  cases a <;> simp [World.invocation, Task.waits, Task.rank]

private theorem rank_leaving (core : Core) (event : Option Event) :
    ∀ y ∈ World.leaving c core event, y.waits = false ∧ y.rank < 5 := by
  unfold World.leaving
  split
  · exact rank_invocation c event _ _
  · simp

private theorem rank_settlement (r : Option Nat) (handled : Bool) :
    ∀ y ∈ World.settlement c r handled, y.waits = false ∧ y.rank < 7 := by
  unfold World.settlement
  split <;> simp [Task.waits, Task.rank]

private theorem rank_consumption (core : Core) (event : Event) (binding : Binding) :
    ∀ y ∈ World.consumption c core event binding, y.waits = false ∧ y.rank < 7 := by
  cases binding with
  | goto target transition =>
    simp only [World.consumption, List.forall_mem_append, List.forall_mem_singleton]
    refine ⟨⟨fun y mem => ?_, fun y mem => ?_⟩, rfl, by simp [Task.rank]⟩
    · obtain ⟨plain, lower⟩ := rank_leaving c core _ y mem
      exact ⟨plain, by omega⟩
    · obtain ⟨plain, lower⟩ := rank_invocation c _ _ _ y mem
      exact ⟨plain, by omega⟩
  | push | action => simp [World.consumption, Task.waits, Task.rank]

end Parts

/-- A thread that does not go round comes to tasks of lower rank. -/
theorem World.Yields.rank_lt {w : World σ} {x : Task} {xs : List Task} (yields : w.Yields x xs)
    (plain : x.rises = false) (unscheduled : x.schedules = false) (awake : x.fires = false)
    (settled : w.goesRound x = false) : ∀ y ∈ xs, y.waits = false ∧ y.rank < x.rank := by
  cases yields with
  | nothing => simp
  | wakes own => rcases own with rfl | rfl <;> simp [Task.waits, Task.rank]
  | quits own =>
    rcases own with rfl | rfl
    · simp [Task.waits, Task.rank]
    · cases plain
  | obeys _ _ _ round | repeats _ round => cases settled.symm.trans round
  | enters own entry =>
    rcases own with rfl | ⟨target, rfl⟩ <;> exact rank_invocation _ _ _ entry
  | settles c event r => exact rank_settlement c r false
  | consumes c event r core binding =>
    exact List.forall_mem_append.2
      ⟨rank_consumption c core event binding, rank_settlement c r true⟩
  | pops c core =>
    refine List.forall_mem_append.2 ⟨fun y mem => ?_, by simp [Task.waits, Task.rank]⟩
    obtain ⟨plain, lower⟩ := rank_leaving c core none y mem
    exact ⟨plain, Nat.lt_succ_of_lt lower⟩
  | forwards event => simp [Task.waits, Task.rank]
  | begins | goesOn | invokes | switches | notifies | engages | awaits =>
    simp [Task.waits, Task.rank]
  | passes => cases unscheduled
  | fires => cases awake
  | _ => cases plain

/-- A thread that goes on for ever, without decisions, without events of its queue and without going
round. -/
structure Drift (w : Nat → World σ) (tasks : Nat → List Task) (bound : Nat) : Prop where
  busy : ∀ n, tasks n ≠ []
  goes : ∀ {n x rest}, tasks n = x :: rest → (w n).Goes x rest (tasks (n + 1))
  undecided : ∀ {n x rest}, tasks n = x :: rest → x.schedules = true → GivesUp rest (tasks (n + 1))
  unretired : ∀ {n kind rest}, tasks n ≠ .retire kind :: rest
  settled : ∀ {n x rest}, tasks n = x :: rest → (w n).goesRound x = false
  unselected : ∀ {n i rest envelope discarded}, tasks n = .cycle i :: rest →
    (w n).selection? i (.cycle i) ≠ some (.event envelope, discarded)
  awake : ∀ {n x rest}, tasks n = x :: rest → x.fires = false
  nests : ∀ n, (inHand (tasks n)).length ≤ bound

namespace Drift

variable {w : Nat → World σ} {T : Nat → List Task} {bound level : Nat} {x : Task}
  {xs rest : List Task}

/-! ## What is never to be done -/

/-- A thread never has to do just this. -/
def Avoids (T : Nat → List Task) (xs : List Task) : Prop := ∀ n, T n ≠ xs

/-- A thread gets neither to these tasks nor to what is left if they are given up. -/
structure Shuns (T : Nat → List Task) (rest : List Task) : Prop where
  here : Avoids T rest
  given : ∀ tasks, GivesUp rest tasks → Avoids T tasks

/-- A thread that shuns what stands below does not get to the task, where so many monitors are in hand
that the bound is reached by some more. -/
def Clears (T : Nat → List Task) (bound level : Nat) (x : Task) : Prop :=
  ∀ rest, bound < (inHand rest).length + level → Shuns T rest → Avoids T (x :: rest)

theorem givesUp_of_cons {tasks : List Task} (plain : x.waits = false)
    (gives : GivesUp (x :: rest) tasks) : GivesUp rest tasks := by
  cases gives with
  | resumes suffix a =>
    rcases List.suffix_cons_iff.1 suffix with same | suffix
    · obtain ⟨rfl, _⟩ := List.cons.inj same
      cases plain
    · exact .resumes suffix a
  | ends => exact .ends
  | retires => exact .retires

theorem givesUp_of_append {tasks : List Task} (plain : ∀ y ∈ xs, y.waits = false)
    (gives : GivesUp (xs ++ rest) tasks) : GivesUp rest tasks := by
  induction xs with
  | nil => exact gives
  | cons y ys ih =>
    obtain ⟨here, plain⟩ := List.forall_mem_cons.1 plain
    exact ih plain (givesUp_of_cons here gives)

theorem Shuns.cons (shuns : Shuns T rest) (plain : x.waits = false) (avoids : Avoids T (x :: rest)) :
    Shuns T (x :: rest) :=
  ⟨avoids, fun tasks gives => shuns.given tasks (givesUp_of_cons plain gives)⟩

theorem length_inHand_le (xs rest : List Task) :
    (inHand rest).length ≤ (inHand (xs ++ rest)).length := by
  rw [inHand_append, List.length_append]
  exact Nat.le_add_left _ _

theorem Shuns.append (shuns : Shuns T rest) (deep : bound < (inHand rest).length + level)
    (each : ∀ x ∈ xs, x.waits = false ∧ Clears T bound level x) : Shuns T (xs ++ rest) := by
  induction xs with
  | nil => exact shuns
  | cons x xs ih =>
    obtain ⟨⟨plain, clears⟩, each⟩ := List.forall_mem_cons.1 each
    have below := ih each
    refine below.cons plain (clears _ ?_ below)
    have more := length_inHand_le xs rest
    omega

theorem avoids_nil (drift : Drift w T bound) : Avoids T [] := drift.busy

theorem shuns_nil (drift : Drift w T bound) : Shuns T [] := by
  refine ⟨drift.avoids_nil, fun tasks gives => ?_⟩
  cases gives with
  | resumes suffix => cases List.suffix_nil.1 suffix
  | ends => exact drift.avoids_nil
  | retires => exact fun n => drift.unretired

/-- A thread does not get to a task if it gets to nothing that comes of it. -/
theorem avoids_of_yields (drift : Drift w T bound)
    (given : ∀ tasks, GivesUp rest tasks → Avoids T tasks)
    (done : ∀ n xs, T n = x :: rest → x.schedules = false → (w n).Yields x xs →
      Avoids T (xs ++ rest)) : Avoids T (x :: rest) := by
  intro n here
  cases schedules : x.schedules with
  | true => exact given _ (drift.undecided here schedules) (n + 1) rfl
  | false =>
    have goes := drift.goes here
    generalize next : T (n + 1) = tasks at goes
    cases goes with
    | does yields => exact done n _ here schedules yields (n + 1) next
    | gives gives => exact given _ gives (n + 1) next

theorem clears_of_yields (drift : Drift w T bound)
    (each : ∀ n xs rest, T n = x :: rest → x.schedules = false → (w n).Yields x xs →
      ∀ y ∈ xs, y.waits = false ∧ Clears T bound level y) : Clears T bound level x := by
  intro rest deep shuns
  refine drift.avoids_of_yields shuns.given fun n xs here unscheduled yields => ?_
  exact (shuns.append deep (each n xs rest here unscheduled yields)).here

/-- Where the bound is exceeded a thread has nothing to do. -/
theorem clears_zero (drift : Drift w T bound) (x : Task) : Clears T bound 0 x := by
  intro rest deep _ n here
  have nests := drift.nests n
  rw [here] at nests
  have more := length_inHand_le [x] rest
  rw [List.singleton_append] at more
  omega

/-! ## Tasks by what comes of them -/

theorem clears_of_schedules (drift : Drift w T bound) (schedules : x.schedules = true) :
    Clears T bound level x :=
  drift.clears_of_yields fun _ _ _ _ unscheduled _ => by cases schedules.symm.trans unscheduled

/-- A monitor is taken in hand, and what it does nests deeper. -/
private theorem shuns_hand (xs : List Task)
    (inner : ∀ x : Task, x.waits = false → Clears T bound level x) {m : Nat} {last : Task}
    (frees : last.frees? = some m) (plain : last.waits = false)
    (clears : Clears T bound (level + 1) last) (deep : bound < (inHand rest).length + (level + 1))
    (shuns : Shuns T rest) (each : ∀ y ∈ xs, y.waits = false) : Shuns T (xs ++ last :: rest) := by
  have below : Shuns T (last :: rest) := shuns.cons plain (clears rest deep shuns)
  have more : (inHand (last :: rest)).length = (inHand rest).length + 1 := by
    rw [inHand, List.filterMap_cons_some frees]
    rfl
  exact below.append (by omega) fun y mem => ⟨each y mem, inner y (each y mem)⟩

theorem clears_deliver (drift : Drift w T bound)
    (inner : ∀ x : Task, x.waits = false → Clears T bound level x)
    (low : ∀ m, Clears T bound (level + 1) (.release m)) (m : Nat) (event : Event) :
    Clears T bound (level + 1) (.deliver m event) := by
  intro rest deep shuns
  refine drift.avoids_of_yields shuns.given fun n xs _ _ yields => ?_
  cases yields with
  | nothing => exact shuns.here
  | delivers =>
    exact (shuns_hand [.handle (.monitor m) event none, .drain m, .defaults m] inner rfl rfl (low m) deep shuns (by simp [Task.waits])).here
  | wakes own | quits own => rcases own with own | own <;> cases own
  | obeys own => rcases own with ⟨_, _, own, _⟩ | ⟨_, _, own⟩ <;> cases own
  | enters own => rcases own with own | ⟨_, own⟩ <;> cases own

theorem clears_install (drift : Drift w T bound)
    (inner : ∀ x : Task, x.waits = false → Clears T bound level x)
    (low : ∀ m, Clears T bound (level + 1) (.enlist m)) (d : Descriptor) (id : ActorId) :
    Clears T bound (level + 1) (.install d id) := by
  intro rest deep shuns
  refine drift.avoids_of_yields shuns.given fun n xs _ _ yields => ?_
  cases yields with
  | nothing => exact shuns.here
  | installs _ _ m =>
    exact (shuns_hand [.start (.monitor m) none, .drain m, .defaults m] inner rfl rfl
      (low m) deep shuns (by simp [Task.waits])).here
  | wakes own | quits own => rcases own with own | own <;> cases own
  | obeys own => rcases own with ⟨_, _, own, _⟩ | ⟨_, _, own⟩ <;> cases own
  | enters own => rcases own with own | ⟨_, own⟩ <;> cases own

/-- A thread does not wait for an answer if it can not go on with any. -/
theorem shuns_resume (drift : Drift w T bound) (shuns : Shuns T rest) {speaker : Speaker}
    {next : Answer → Program} (goesOn : ∀ a, Avoids T (.perform speaker (next a) :: rest))
    (outside shared : Bool) : Shuns T (.resume speaker outside shared next :: rest) := by
  refine ⟨drift.avoids_of_yields shuns.given fun n xs _ _ yields => ?_, fun tasks gives => ?_⟩
  · cases yields with
    | nothing => exact shuns.here
    | resumes => exact goesOn _
    | wakes own | quits own => rcases own with own | own <;> cases own
    | obeys own => rcases own with ⟨_, _, own, _⟩ | ⟨_, _, own⟩ <;> cases own
    | enters own => rcases own with own | ⟨_, own⟩ <;> cases own
  · cases gives with
    | resumes suffix a =>
      rcases List.suffix_cons_iff.1 suffix with same | suffix
      · cases same
        exact goesOn a
      · exact shuns.given _ (.resumes suffix a)
    | ends => exact shuns.given _ .ends
    | retires => exact shuns.given _ .retires

/-- A program comes to its end: each request is one step in its tree. -/
theorem clears_perform (drift : Drift w T bound)
    (served : ∀ x : Task, x.waits = false → x.rank < 3 → Clears T bound level x)
    (speaker : Speaker) (program : Program) : Clears T bound level (.perform speaker program) := by
  induction program with
  | finish memory ending =>
    refine drift.clears_of_yields fun n xs rest here _ yields => ?_
    have awake := drift.awake here
    cases yields with
    | nothing => simp
    | ends => exact List.forall_mem_singleton.2 ⟨rfl, served _ rfl (by simp [Task.rank])⟩
    | sleeps => cases awake
    | wakes own | quits own => rcases own with own | own <;> cases own
    | obeys own => rcases own with ⟨_, _, own, _⟩ | ⟨_, _, own⟩ <;> cases own
    | enters own => rcases own with own | ⟨_, own⟩ <;> cases own
  | ask voice request next ih =>
    intro rest deep shuns
    have goesOn : ∀ a, Avoids T (.perform speaker (next a) :: rest) :=
      fun a => ih a rest deep shuns
    -- what is done for the request stands above the program that waits
    have serves : ∀ (xs : List Task) (outside shared : Bool),
        (∀ y ∈ xs, y.waits = false ∧ y.rank < 3) →
        Avoids T (xs ++ .resume speaker outside shared next :: rest) := by
      intro xs outside shared each
      refine ((drift.shuns_resume shuns goesOn outside shared).append deep fun y mem => ?_).here
      exact ⟨(each y mem).1, served y (each y mem).1 (each y mem).2⟩
    refine drift.avoids_of_yields shuns.given fun n xs _ _ yields => ?_
    cases yields with
    | nothing => exact shuns.here
    | goes => exact goesOn _
    | asks _ _ _ _ outside shared each =>
      rw [List.append_assoc]
      exact serves _ outside shared fun y mem => Task.rank_of_serves (each y mem)
    | creates _ _ _ _ outside shared v =>
      exact serves [.pass .create, .turn, .answer v] outside shared
        (by simp [Task.waits, Task.rank])
    | wakes own | quits own => rcases own with own | own <;> cases own
    | obeys own => rcases own with ⟨_, _, own, _⟩ | ⟨_, _, own⟩ <;> cases own
    | enters own => rcases own with own | ⟨_, own⟩ <;> cases own

/-- An actor that has nothing to do comes to rest. -/
theorem clears_cycle (drift : Drift w T bound) (i : Nat) : Clears T bound level (.cycle i) := by
  intro rest deep shuns
  -- with a decision at hand, the thread can only give up
  have schedules : ∀ {x : Task} (xs : List Task), x.schedules = true →
      (∀ y ∈ xs, y.waits = false) → Avoids T (x :: (xs ++ rest)) :=
    fun _ schedules plain n here =>
      shuns.given _ (givesUp_of_append plain (drift.undecided here schedules)) (n + 1) rfl
  refine drift.avoids_of_yields shuns.given fun n xs here _ yields => ?_
  have settled := drift.settled here
  cases yields with
  | nothing => exact shuns.here
  | quits => exact fun n => drift.unretired
  | selects _ _ _ selected => exact absurd selected (drift.unselected here)
  | defaults => exact schedules [_, _] rfl (by simp [Task.waits])
  | pauses => exact schedules [_] rfl (by simp [Task.waits])
  | obeys _ _ _ round => cases settled.symm.trans round
  | wakes own => rcases own with own | own <;> cases own
  | enters own => rcases own with own | ⟨_, own⟩ <;> cases own

/-- Whatever a thread has to do it gets to do something else, if monitors nest only so deep. -/
theorem clears_succ (drift : Drift w T bound)
    (inner : ∀ x : Task, x.waits = false → Clears T bound level x) (x : Task)
    (plain : x.waits = false) : Clears T bound (level + 1) x := by
  induction rank : x.rank using Nat.strongRecOn generalizing x with
  | _ r ih =>
    subst rank
    have lower : ∀ y : Task, y.waits = false → y.rank < x.rank → Clears T bound (level + 1) y :=
      fun y plain lower => ih y.rank lower y plain rfl
    cases rises : x.rises with
    | false =>
      cases schedules : x.schedules with
      | true => exact drift.clears_of_schedules schedules
      | false =>
        refine drift.clears_of_yields fun n xs rest here _ yields y mem => ?_
        obtain ⟨plain, less⟩ :=
          yields.rank_lt rises schedules (drift.awake here) (drift.settled here) y mem
        exact ⟨plain, lower y plain less⟩
    | true =>
      cases x
      case cycle i => exact drift.clears_cycle i
      case perform speaker program =>
        exact drift.clears_perform lower speaker program
      case deliver m event =>
        exact drift.clears_deliver inner (fun m => lower _ rfl (by simp [Task.rank])) m event
      case install d id =>
        exact drift.clears_install inner (fun m => lower _ rfl (by simp [Task.rank])) d id
      case resume => cases plain
      all_goals cases rises

/-- There is no thread that goes on like this. -/
theorem absurd (drift : Drift w T bound) : False := by
  have clears : ∀ level (x : Task), x.waits = false → Clears T bound level x := by
    intro level
    induction level with
    | zero => exact fun x _ => drift.clears_zero x
    | succ level ih => exact drift.clears_succ ih
  have shuns : ∀ xs, Shuns T xs := by
    intro xs
    induction xs with
    | nil => exact drift.shuns_nil
    | cons x rest ih =>
      have deep : bound < (inHand rest).length + (bound + 1) := by omega
      cases waits : x.waits with
      | false => exact ih.cons waits (clears (bound + 1) x waits rest deep ih)
      | true =>
        cases x
        case resume speaker outside shared next =>
          exact drift.shuns_resume ih
            (fun a => clears (bound + 1) (.perform speaker (next a)) rfl rest deep ih) outside shared
        all_goals cases waits
  exact (shuns (T 0)).here 0 rfl

end Drift

end SteeredActors
