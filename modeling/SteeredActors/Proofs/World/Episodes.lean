import SteeredActors.Proofs.World.Answers
import SteeredActors.Proofs.World.Exclusion

/-!
# What an interpreter has begun

What an interpreter begins it goes on with until it is done: each of its tasks is followed by the next
one, and nothing else stands between them. Only above a program that waits for an answer may there be
work of others.
-/

set_option autoImplicit false
set_option relaxedAutoImplicit false

namespace SteeredActors

variable {σ : Type}

/-- The task in which an interpreter does what was raised. -/
def Subject.round : Subject → Task
  | .actor i => .cycle i
  | .monitor m => .drain m

namespace Task

/-- The interpreter that has begun what a task goes on with. -/
def begun? : Task → Option Subject
  | .cycle i => some (.actor i)
  | .resume (.action c _) _ _ _ => some c
  | .enlist m => some (.monitor m)
  | x => x.subject?

/-- The interpreter that is done with a task. -/
def ends? : Task → Option Subject
  | .cycle i => some (.actor i)
  | x => x.frees?.map .monitor

/-- Which kind of action goes on or waits. -/
def phase? : Task → Option Phase
  | .perform (.action _ phase) _ | .resume (.action _ phase) _ _ _ => some phase
  | _ => none

/-- An interpreter goes on to what was raised. -/
def Closes (c : Subject) (next : Option Task) : Prop :=
  next = some c.round ∨ ∃ i r handled, c = .actor i ∧ next = some (.settle i r handled)

/-- An interpreter goes on to leave its state. -/
def Departs (c : Subject) (next : Option Task) : Prop :=
  (∃ action event, next = some (.invoke c action event .exit)) ∨
    (∃ target event, next = some (.switch c target event)) ∨ next = some (.dropTop c)

/-- What comes after an action. -/
def Returns (c : Subject) (phase : Phase) (next : Option Task) : Prop :=
  if phase = .exit then Departs c next else Closes c next

/-- What comes next has not been begun, or it waits for an answer. -/
def Calm (next : Option Task) : Prop := ∀ y, next = some y → y.begun? = none ∨ y.waits = true

/-- What comes after a task. -/
def Comes : Task → Option Task → Prop
  | .start c _, next | .switch c _ _, next | .enter c _ _, next | .pop c, next
  | .dropTop c, next => Closes c next
  | .handle c _ _, next => next = some c.round
  | .invoke c _ _ phase, next | .perform (.action c phase) _, next
  | .resume (.action c phase) _ _ _, next => Returns c phase next
  | .settle i _ _, next => next = some (.cycle i)
  | .cycle _, next | .firstTurn _, next | .wake _, next | .rest _, next => next = none
  | .drain m, next => next = some (.defaults m)
  | .defaults m, next => next = some (.release m) ∨ next = some (.enlist m)
  | .point _, next | .turn, next =>
    Calm next ∨ ∃ i, next = some (.handle (.actor i) (.ofType .default) none)
  | _, next => Calm next

theorem Calm.nil : Calm none := by
  intro y next
  cases next

theorem Calm.of_none {y : Task} (plain : y.begun? = none) : Calm (some y) := by
  rintro _ ⟨⟩
  exact .inl plain

theorem Calm.of_waits {y : Task} (waits : y.waits = true) : Calm (some y) := by
  rintro _ ⟨⟩
  exact .inr waits

@[simp] theorem begun?_round (c : Subject) : c.round.begun? = some c := by cases c <;> rfl

@[simp] theorem phase?_round (c : Subject) : c.round.phase? = none := by cases c <;> rfl

/-- What an interpreter does it has begun. -/
theorem begun?_of_subject? {x : Task} {c : Subject} (own : x.subject? = some c) :
    x.begun? = some c := by
  cases x <;> first | exact own | cases own

/-- What somebody is done with was begun. -/
theorem begun?_of_ends? {x : Task} {c : Subject} (ends : x.ends? = some c) : x.begun? = some c := by
  cases x <;> first | exact ends | cases ends

theorem frees?_of_ends? {x : Task} {m : Nat} (ends : x.ends? = some (.monitor m)) :
    x.frees? = some m := by
  cases x <;> cases ends <;> rfl

theorem eq_of_ends? {x : Task} {i : Nat} (ends : x.ends? = some (.actor i)) : x = .cycle i := by
  cases x <;> cases ends
  rfl

section

variable {c : Subject} {next : Option Task} {phase : Phase}

theorem Closes.exists_next (closes : Closes c next) :
    ∃ y, next = some y ∧ y.begun? = some c ∧ y.phase? = none := by
  rcases closes with rfl | ⟨i, r, handled, rfl, rfl⟩
  · exact ⟨_, rfl, begun?_round c, phase?_round c⟩
  · exact ⟨_, rfl, rfl, rfl⟩

theorem Returns.exists_next (returns : Returns c phase next) :
    ∃ y, next = some y ∧ y.begun? = some c ∧ y.phase? = none := by
  unfold Returns at returns
  split at returns
  · rcases returns with ⟨_, _, rfl⟩ | ⟨_, _, rfl⟩ | rfl <;> exact ⟨_, rfl, rfl, rfl⟩
  · exact Closes.exists_next returns

/-- An interpreter that is not done goes on. -/
theorem Comes.exists_next {x : Task} (comes : x.Comes next) (begun : x.begun? = some c) :
    x.ends? = some c ∨ ∃ y, next = some y ∧ y.begun? = some c ∧ y.phase? = none := by
  cases x
  case start | switch | enter | pop | dropTop =>
    cases begun
    exact .inr (Closes.exists_next comes)
  case invoke =>
    cases begun
    exact .inr (Returns.exists_next comes)
  case perform speaker _ | resume speaker _ _ _ =>
    cases speaker <;> cases begun
    exact .inr (Returns.exists_next comes)
  case handle =>
    cases begun
    exact .inr ⟨_, comes, begun?_round _, phase?_round _⟩
  case settle | drain =>
    cases begun
    exact .inr ⟨_, comes, rfl, rfl⟩
  case defaults =>
    cases begun
    rcases comes with rfl | rfl <;> exact .inr ⟨_, rfl, rfl, rfl⟩
  case cycle | release | enlist => exact .inl begun
  all_goals cases begun

end

/-- Who is done has nothing begun to go on with. -/
theorem Comes.of_ends {x : Task} {c : Subject} {next : Option Task} (comes : x.Comes next)
    (ends : x.ends? = some c) : Calm next := by
  cases x
  case cycle =>
    obtain rfl : next = none := comes
    exact .nil
  case release | enlist => exact comes
  all_goals cases ends

/-- Others leave room for what an interpreter has begun only where it waits, or where an actor gets
the reserved event. -/
theorem Comes.of_apart {x y : Task} {c : Subject} (comes : x.Comes (some y))
    (begun : y.begun? = some c) (apart : x.begun? ≠ some c) :
    y.waits = true ∨ ∃ i, y = .handle (.actor i) (.ofType .default) none := by
  have calm : Calm (some y) → y.waits = true := by
    intro calm
    rcases calm y rfl with none | waits
    · rw [none] at begun
      cases begun
    · exact waits
  cases other : x.begun? with
  | some d =>
    rcases comes.exists_next other with ends | ⟨z, same, begun', _⟩
    · exact .inl (calm (comes.of_ends ends))
    · obtain rfl := Option.some.inj same
      obtain rfl := Option.some.inj (begun.symm.trans begun')
      exact absurd other apart
  | none =>
    cases x
    case point | turn =>
      rcases comes with comes | ⟨i, same⟩
      · exact .inl (calm comes)
      · exact .inr ⟨i, Option.some.inj same⟩
    case perform speaker _ | resume speaker _ _ _ =>
      cases speaker with
      | action c phase => cases other
      | test | sleeper j => exact .inl (calm comes)
    case firstTurn | wake | rest => cases comes
    all_goals first | exact .inl (calm comes) | cases other

/-- What is done for a request nobody has begun. -/
theorem begun?_of_serves {x : Task} (serves : x.serves = true) : x.begun? = none := by
  cases x <;> first | rfl | cases serves

theorem comes_of_serves {x : Task} (serves : x.serves = true) {next : Option Task}
    (calm : Calm next) : x.Comes next := by
  cases x <;> first | exact calm | exact .inl calm | cases serves

end Task

open SteeredActors.Task

/-! ## What tasks lead to -/

section Parts

variable {c : Subject} {core : Core} {event : Option Event} {next : Option Task}

/-- What nobody has begun may come before anything that nobody has begun. -/
private theorem linked_of_calm {xs : List Task}
    (each : ∀ y ∈ xs, y.begun? = none ∧ ∀ next, Calm next → y.Comes next) (calm : Calm next) :
    Linked Comes xs next := by
  induction xs with
  | nil => trivial
  | cons x xs ih =>
    obtain ⟨⟨_, comes⟩, each⟩ := List.forall_mem_cons.1 each
    refine ⟨comes _ ?_, ih each⟩
    cases xs with
    | nil => exact calm
    | cons y ys => exact .of_none (each y List.mem_cons_self).1

private theorem linked_invocation {phase : Phase} (a : Option Action)
    (returns : Returns c phase next) : Linked Comes (World.invocation c event phase a) next := by
  cases a with
  | none => trivial
  | some a => exact ⟨returns, trivial⟩

private theorem departs_invocation (a : Option Action) (departs : Departs c next) :
    Departs c ((World.invocation c event .exit a).head?.or next) := by
  cases a with
  | none => exact departs
  | some a => exact .inl ⟨a, event, rfl⟩

private theorem linked_leaving (departs : Departs c next) :
    Linked Comes (World.leaving c core event) next := by
  unfold World.leaving
  split
  · exact linked_invocation _ departs
  · trivial

private theorem linked_settlement (r : Option Nat) (handled : Bool)
    (round : next = some c.round) : Linked Comes (World.settlement c r handled) next := by
  subst round
  cases c with
  | actor i =>
    cases r with
    | none => trivial
    | some r => exact ⟨rfl, trivial⟩
  | monitor m => trivial

private theorem closes_settlement (r : Option Nat) (handled : Bool) (round : next = some c.round) :
    Closes c ((World.settlement c r handled).head?.or next) := by
  cases c with
  | actor i =>
    cases r with
    | none => exact .inl round
    | some r => exact .inr ⟨i, r, handled, rfl, rfl⟩
  | monitor m => exact .inl round

private theorem linked_consumption {event : Event} {binding : Binding} (closes : Closes c next) :
    Linked Comes (World.consumption c core event binding) next := by
  cases binding with
  | goto target transition =>
    have departs : Departs c (some (.switch c target (some event))) := .inr (.inl ⟨_, _, rfl⟩)
    exact Linked.append_iff.2 ⟨Linked.append_iff.2
      ⟨linked_leaving (departs_invocation _ departs), linked_invocation _ departs⟩, closes, trivial⟩
  | push target => exact ⟨closes, trivial⟩
  | action a => exact ⟨closes, trivial⟩

private theorem linked_obedience {d : Demand} (round : next = some c.round) :
    Linked Comes (World.obedience c core d) next := by
  cases d with
  | event event => exact ⟨round, trivial⟩
  | goto target =>
    exact Linked.append_iff.2 ⟨linked_leaving (.inr (.inl ⟨_, _, rfl⟩)), .inl round, trivial⟩
  | push target => exact ⟨.inl round, trivial⟩
  | pop => exact ⟨.inl round, trivial⟩

end Parts

/-! ## Who has begun what a task leads to -/

section Begun

variable {c : Subject} {core : Core} {event : Option Event}

private theorem begun_invocation (phase : Phase) (a : Option Action) :
    ∀ y ∈ World.invocation c event phase a, y.begun? = some c ∧ y.phase? = none := by
  intro y mem
  cases a with
  | none => cases mem
  | some a =>
    obtain rfl := List.mem_singleton.1 mem
    exact ⟨rfl, rfl⟩

private theorem begun_leaving :
    ∀ y ∈ World.leaving c core event, y.begun? = some c ∧ y.phase? = none := by
  unfold World.leaving
  split
  · exact begun_invocation _ _
  · exact List.forall_mem_nil _

/-- What is settled afterwards is settled by the same interpreter. -/
theorem begun_settlement (r : Option Nat) (handled : Bool) :
    ∀ y ∈ World.settlement c r handled, y.begun? = some c ∧ y.phase? = none := by
  intro y mem
  cases c with
  | actor i =>
    cases r with
    | none => cases mem
    | some r =>
      obtain rfl := List.mem_singleton.1 mem
      exact ⟨rfl, rfl⟩
  | monitor m => cases mem

private theorem begun_consumption (event : Event) (binding : Binding) :
    ∀ y ∈ World.consumption c core event binding, y.begun? = some c ∧ y.phase? = none := by
  cases binding with
  | goto target transition =>
    intro y mem
    simp only [World.consumption, List.mem_append, List.mem_singleton] at mem
    rcases mem with (mem | mem) | rfl
    · exact begun_leaving y mem
    · exact begun_invocation _ _ y mem
    · exact ⟨rfl, rfl⟩
  | push target | action a => simp [World.consumption, begun?, subject?, phase?]

/-- An interpreter itself does what was raised. -/
theorem begun_obedience (d : Demand) :
    ∀ y ∈ World.obedience c core d, y.begun? = some c ∧ y.phase? = none := by
  cases d with
  | goto target =>
    intro y mem
    simp only [World.obedience, List.mem_append, List.mem_singleton] at mem
    rcases mem with mem | rfl
    · exact begun_leaving y mem
    · exact ⟨rfl, rfl⟩
  | event event | push target | pop => simp [World.obedience, begun?, subject?, phase?]

end Begun

namespace World.Yields

variable {w : World σ} {x y : Task} {xs : List Task} {c : Subject}

/-- What leads to something of an interpreter is its own, or the interpreter begins with it. An action
goes on as it is, or it is invoked. -/
theorem of_begun (yields : w.Yields x xs) (mem : y ∈ xs) (begun : y.begun? = some c) :
    x.begun? = some c ∧ (y.phase? = x.phase? ∨
        ∃ action event phase, x = .invoke c action event phase) ∨
      y.phase? = none ∧ ((∃ i, c = .actor i ∧ x = .wake i) ∨
        (∃ m event, c = .monitor m ∧ x = .deliver m event) ∨
        ∃ m d id, c = .monitor m ∧ x = .install d id) := by
  have own : ∀ {d : Subject} {ys : List Task}, (∀ z ∈ ys, z.begun? = some d ∧ z.phase? = none) →
      x.begun? = some d → x.phase? = none → y ∈ ys →
        x.begun? = some c ∧ (y.phase? = x.phase? ∨
          ∃ action event phase, x = .invoke c action event phase) := by
    intro d ys each mine quiet mem
    obtain ⟨begun', phase⟩ := each y mem
    obtain rfl := Option.some.inj (begun.symm.trans begun')
    exact ⟨mine, .inl (phase.trans quiet.symm)⟩
  cases yields with
  | nothing => cases mem
  | wakes | quits | notifies | fires | ends | sleeps =>
    obtain rfl := List.mem_singleton.1 mem
    cases begun
  | pauses | awaits | passes | engages =>
    simp only [List.mem_cons, List.not_mem_nil, or_false] at mem
    rcases mem with rfl | rfl | rfl <;> cases begun
  | forwards event =>
    obtain ⟨m, _, rfl⟩ := List.mem_map.1 mem
    cases begun
  | begins i | goesOn i =>
    simp only [List.mem_cons, List.not_mem_nil, or_false] at mem
    rcases mem with rfl | rfl <;> cases begun <;> exact .inr ⟨rfl, .inl ⟨i, rfl, rfl⟩⟩
  | selects | defaults | repeats =>
    simp only [List.mem_cons, List.not_mem_nil, or_false] at mem
    rcases mem with rfl | rfl | rfl <;> cases begun <;> exact .inl ⟨rfl, .inl rfl⟩
  | obeys round =>
    rcases List.mem_append.1 mem with obeys | last
    · rcases round with ⟨i, rfl, rfl, _⟩ | ⟨m, rfl, rfl⟩ <;>
        exact .inl (own (begun_obedience _) rfl rfl obeys)
    · obtain rfl := List.mem_singleton.1 last
      exact .inl ⟨begun, .inl rfl⟩
  | enters enters entry =>
    rcases enters with rfl | ⟨target, rfl⟩ <;>
      exact .inl (own (begun_invocation .entry entry) rfl rfl mem)
  | settles c event r => exact .inl (own (begun_settlement r false) rfl rfl mem)
  | consumes c event r core binding =>
    rcases List.mem_append.1 mem with mem | mem
    · exact .inl (own (begun_consumption event binding) rfl rfl mem)
    · exact .inl (own (begun_settlement r true) rfl rfl mem)
  | invokes =>
    obtain rfl := List.mem_singleton.1 mem
    cases begun
    exact .inl ⟨rfl, .inr ⟨_, _, _, rfl⟩⟩
  | switches =>
    obtain rfl := List.mem_singleton.1 mem
    cases begun
    exact .inl ⟨rfl, .inl rfl⟩
  | pops c core =>
    rcases List.mem_append.1 mem with mem | mem
    · exact .inl (own begun_leaving rfl rfl mem)
    · obtain rfl := List.mem_singleton.1 mem
      cases begun
      exact .inl ⟨rfl, .inl rfl⟩
  | delivers m event =>
    simp only [List.mem_cons, List.not_mem_nil, or_false] at mem
    rcases mem with rfl | rfl | rfl | rfl <;> cases begun <;>
      exact .inr ⟨rfl, .inr (.inl ⟨m, event, rfl, rfl⟩)⟩
  | installs descriptor id m =>
    simp only [List.mem_cons, List.not_mem_nil, or_false] at mem
    rcases mem with rfl | rfl | rfl | rfl <;> cases begun <;>
      exact .inr ⟨rfl, .inr (.inr ⟨m, descriptor, id, rfl, rfl⟩)⟩
  | goes speaker | resumes speaker =>
    obtain rfl := List.mem_singleton.1 mem
    cases speaker <;> cases begun
    exact .inl ⟨rfl, .inl rfl⟩
  | asks speaker _ _ _ _ _ each =>
    rcases List.mem_append.1 mem with mem | mem
    · rw [begun?_of_serves (each y mem)] at begun
      cases begun
    · obtain rfl := List.mem_singleton.1 mem
      cases speaker <;> cases begun
      exact .inl ⟨rfl, .inl rfl⟩
  | creates speaker =>
    simp only [List.mem_cons, List.not_mem_nil, or_false] at mem
    rcases mem with rfl | rfl | rfl | rfl <;> try cases begun
    cases speaker <;> cases begun
    exact .inl ⟨rfl, .inl rfl⟩

/-- To settle leads to nothing else. -/
theorem eq_nil_of_settle {i r : Nat} {handled : Bool} (yields : w.Yields (.settle i r handled) xs) :
    xs = [] := by
  generalize same : Task.settle i r handled = x at yields
  cases yields with
  | nothing => rfl
  | wakes own | quits own => rcases own with rfl | rfl <;> cases same
  | obeys own => rcases own with ⟨_, _, rfl, _⟩ | ⟨_, _, rfl⟩ <;> cases same
  | enters own => rcases own with rfl | ⟨_, rfl⟩ <;> cases same
  | _ => cases same

end World.Yields

/-- What a task leads to comes before whatever came after the task. -/
theorem World.Yields.comes {w : World σ} {x : Task} {xs : List Task} (yields : w.Yields x xs)
    {next : Option Task} (comes : x.Comes next) : Linked Comes xs next := by
  cases yields with
  | nothing => trivial
  | wakes own => rcases own with rfl | rfl <;> exact ⟨comes, trivial⟩
  | quits own =>
    obtain rfl : next = none := by rcases own with rfl | rfl <;> exact comes
    exact ⟨.nil, trivial⟩
  | begins => exact ⟨.inl rfl, comes, trivial⟩
  | goesOn => exact ⟨comes, trivial⟩
  | selects => exact ⟨rfl, comes, trivial⟩
  | defaults i => exact ⟨.inr ⟨i, rfl⟩, rfl, comes, trivial⟩
  | pauses => exact ⟨.of_none rfl, comes, trivial⟩
  | obeys own =>
    rcases own with ⟨i, rfl, rfl, _⟩ | ⟨m, rfl, rfl⟩ <;>
      exact Linked.append_iff.2 ⟨linked_obedience rfl, comes, trivial⟩
  | enters own entry =>
    rcases own with rfl | ⟨target, rfl⟩ <;> exact linked_invocation entry comes
  | settles c event r => exact linked_settlement r false comes
  | consumes c event r core binding =>
    exact Linked.append_iff.2 ⟨linked_consumption (closes_settlement r true comes),
      linked_settlement r true comes⟩
  | invokes | switches | notifies | fires | ends | sleeps => exact ⟨comes, trivial⟩
  | pops => exact Linked.append_iff.2 ⟨linked_leaving (.inr (.inr rfl)), comes, trivial⟩
  | forwards event =>
    refine linked_of_calm (fun y mem => ?_) comes
    obtain ⟨m, _, rfl⟩ := List.mem_map.1 mem
    exact ⟨rfl, fun _ calm => calm⟩
  | delivers => exact ⟨rfl, rfl, .inl rfl, comes, trivial⟩
  | repeats => exact ⟨rfl, rfl, comes, trivial⟩
  | installs => exact ⟨.inl rfl, rfl, .inr rfl, comes, trivial⟩
  | engages => exact ⟨.of_none rfl, .inl (.of_none rfl), comes, trivial⟩
  | awaits => exact ⟨.of_none rfl, comes, trivial⟩
  | passes => exact ⟨.of_none rfl, comes, trivial⟩
  | goes speaker => cases speaker <;> exact ⟨comes, trivial⟩
  | asks speaker _ _ _ _ _ each =>
    refine Linked.append_iff.2 ⟨linked_of_calm (fun y mem => ?_) (.of_waits rfl), ?_, trivial⟩
    · exact ⟨begun?_of_serves (each y mem), fun _ calm => comes_of_serves (each y mem) calm⟩
    · cases speaker <;> exact comes
  | creates speaker =>
    refine ⟨.of_none rfl, .inl (.of_none rfl), .of_waits rfl, ?_, trivial⟩
    cases speaker <;> exact comes
  | resumes speaker => cases speaker <;> exact ⟨comes, trivial⟩

/-- At all times, each task comes before the one that has to come after it. -/
theorem enduring_comes : Enduring σ (Linked Comes · none) where
  done := trivial
  begins _ := ⟨rfl, trivial⟩
  sleeps _ := ⟨.nil, trivial⟩
  retires := ⟨.nil, trivial⟩
  yields yields linked := Linked.append_iff.2 ⟨yields.comes linked.1, linked.2⟩
  resumes {_ speaker _ _ _ _ _} suffix linked _ := by
    have below := linked.2.of_suffix suffix
    cases speaker <;> exact ⟨below.1, below.2⟩

/-! ## What is to be done for an interpreter -/

/-- The first of the tasks that go on with what an interpreter has begun. -/
def Subject.first? (c : Subject) (tasks : List Task) : Option Task :=
  tasks.find? (·.begun? == some c)

namespace Subject

variable {c : Subject} {x y : Task} {xs rest tasks : List Task}

theorem first?_eq_none : c.first? tasks = none ↔ ∀ x ∈ tasks, x.begun? ≠ some c := by
  simp [first?]

theorem first?_cons_self (begun : x.begun? = some c) : c.first? (x :: rest) = some x :=
  List.find?_cons_of_pos (by simp [begun])

theorem first?_cons_of_ne (apart : x.begun? ≠ some c) : c.first? (x :: rest) = c.first? rest :=
  List.find?_cons_of_neg (by simpa using apart)

theorem first?_append_of_none (none : ∀ x ∈ xs, x.begun? ≠ some c) :
    c.first? (xs ++ rest) = c.first? rest := by
  rw [first?, List.find?_append, List.find?_eq_none.2 (by simpa using none), Option.none_or, first?]

theorem first?_append_of_some (first : c.first? xs = some y) : c.first? (xs ++ rest) = some y := by
  rw [first?] at first ⊢
  rw [List.find?_append, first, Option.some_or]

/-- Programs of others. -/
theorem begun?_ne_of_speaker {speaker : Speaker} (other : ∀ phase, speaker ≠ .action c phase)
    (program : Program) (outside shared : Bool) (next : Answer → Program) :
    (Task.perform speaker program).begun? ≠ some c ∧
      (Task.resume speaker outside shared next).begun? ≠ some c := by
  cases speaker with
  | action d phase =>
    have ne : d ≠ c := fun same => other phase (by rw [same])
    exact ⟨fun begun => ne (Option.some.inj begun), fun begun => ne (Option.some.inj begun)⟩
  | test | sleeper j => exact ⟨nofun, nofun⟩

theorem begun?_of_first? (first : c.first? tasks = some y) : y.begun? = some c := by
  simpa using List.find?_some first

theorem mem_of_first? (first : c.first? tasks = some y) : y ∈ tasks := List.mem_of_find?_eq_some first

end Subject

section Lists

variable {c : Subject} {x y : Task} {rest tasks : List Task} {next : Option Task}

/-- What was begun is done at last. -/
theorem Linked.exists_ends (linked : Linked Comes tasks none) (mem : y ∈ tasks)
    (begun : y.begun? = some c) : ∃ z ∈ tasks, z.ends? = some c := by
  induction tasks generalizing y with
  | nil => cases mem
  | cons x rest ih =>
    rcases List.mem_cons.1 mem with rfl | mem
    · rcases linked.1.exists_next begun with ends | ⟨z, next, begun, _⟩
      · exact ⟨y, List.mem_cons_self, ends⟩
      · obtain ⟨z', mem, ends⟩ := ih linked.2 (List.mem_of_head? (by simpa using next)) begun
        exact ⟨z', List.mem_cons_of_mem _ mem, ends⟩
    · obtain ⟨z, mem, ends⟩ := ih linked.2 mem begun
      exact ⟨z, List.mem_cons_of_mem _ mem, ends⟩

/-- What others stand before is waiting, or it is the reserved event of an actor. -/
theorem Linked.of_apart (linked : Linked Comes (x :: rest) none) (apart : x.begun? ≠ some c)
    (first : c.first? rest = some y) :
    y.waits = true ∨ ∃ i, y = .handle (.actor i) (.ofType .default) none := by
  induction rest generalizing x with
  | nil => cases first
  | cons z rest ih =>
    by_cases begun : z.begun? = some c
    · rw [Subject.first?_cons_self begun] at first
      obtain rfl := Option.some.inj first
      exact linked.1.of_apart begun apart
    · rw [Subject.first?_cons_of_ne begun] at first
      exact ih linked.2 begun first

/-- An actor that handles an event goes on with its own work only. -/
theorem Linked.eq_of_handle {i : Nat} {event : Event} {r : Option Nat}
    (linked : Linked Comes (.handle (.actor i) event r :: rest) none) : rest = [.cycle i] := by
  have next : rest.head?.or none = some (.cycle i) := linked.1
  cases rest with
  | nil => cases next
  | cons x below =>
    obtain rfl := Option.some.inj next
    have last : below.head?.or none = none := linked.2.1
    cases below with
    | nil => rfl
    | cons y ys => cases last

end Lists

namespace World

/-- An interpreter has begun something and goes on with a task. -/
def Pursues (w : World σ) (c : Subject) (x : Task) : Prop :=
  ∃ t thread, w.thread? t = some thread ∧ c.first? thread.tasks = some x

/-- What all threads have to do fits together. -/
structure Composed (w : World σ) : Prop where
  comes : w.Everywhere (Linked Comes · none)
  staffed : w.Staffed
  exclusive : w.Exclusive

namespace Composed

variable {w : World σ} {c : Subject} {t u : ThreadId} {thread thread' : Thread} {x y : Task}

/-- What an interpreter has begun is in one thread. -/
theorem eq_thread (composed : w.Composed) (found : w.thread? t = some thread)
    (found' : w.thread? u = some thread') (mem : x ∈ thread.tasks) (mem' : y ∈ thread'.tasks)
    (begun : x.begun? = some c) (begun' : y.begun? = some c) : t = u := by
  obtain ⟨z, mem, ends⟩ := (composed.comes t thread found).exists_ends mem begun
  obtain ⟨z', mem', ends'⟩ := (composed.comes u thread' found').exists_ends mem' begun'
  cases c with
  | actor i =>
    obtain rfl := eq_of_ends? ends
    obtain rfl := eq_of_ends? ends'
    rw [composed.staffed.own t thread found _ mem i rfl,
      composed.staffed.own u thread' found' _ mem' i rfl]
  | monitor m =>
    by_contra apart
    exact composed.exclusive.apart t u thread thread' apart found found' m
      (List.mem_filterMap.2 ⟨z, mem, frees?_of_ends? ends⟩)
      (List.mem_filterMap.2 ⟨z', mem', frees?_of_ends? ends'⟩)

theorem pursues_unique (composed : w.Composed) (h : w.Pursues c x) (k : w.Pursues c y) : x = y := by
  obtain ⟨t, thread, found, first⟩ := h
  obtain ⟨u, thread', found', first'⟩ := k
  obtain rfl := composed.eq_thread found found' (Subject.mem_of_first? first)
    (Subject.mem_of_first? first') (Subject.begun?_of_first? first)
    (Subject.begun?_of_first? first')
  obtain rfl := Option.some.inj (found.symm.trans found')
  exact Option.some.inj (first.symm.trans first')

/-- Below the task with which an interpreter is done it has begun nothing. -/
theorem first?_of_ends (composed : w.Composed) {rest : List Task} {outside : Bool}
    (found : w.thread? t = some ⟨x :: rest, outside⟩) (ends : x.ends? = some c) :
    c.first? rest = none := by
  have comes := composed.comes t _ found
  refine Subject.first?_eq_none.2 fun y mem begun => ?_
  obtain ⟨z, mem, ends'⟩ := comes.2.exists_ends mem begun
  cases c with
  | actor i =>
    obtain rfl := eq_of_ends? ends
    have none : rest = [] := by
      have next : rest.head?.or none = none := comes.1
      simpa using next
    subst none
    cases mem
  | monitor m =>
    have once := composed.exclusive.once t _ found
    rw [inHand, List.filterMap_cons_some (frees?_of_ends? ends)] at once
    exact (List.nodup_cons.1 once).1 (List.mem_filterMap.2 ⟨z, mem, frees?_of_ends? ends'⟩)

/-- A monitor that has begun something is in hand. -/
theorem taken_of_pursues (composed : w.Composed) {m : Nat} (h : w.Pursues (.monitor m) x) :
    w.Taken m := by
  obtain ⟨t, thread, found, first⟩ := h
  obtain ⟨z, mem, ends⟩ := (composed.comes t thread found).exists_ends (Subject.mem_of_first? first)
    (Subject.begun?_of_first? first)
  exact composed.exclusive.taken t thread found m
    (List.mem_filterMap.2 ⟨z, mem, frees?_of_ends? ends⟩)

/-- An actor goes on in its own thread. -/
theorem own_of_pursues (composed : w.Composed) {i : Nat} (h : w.Pursues (.actor i) x) :
    ∃ thread, w.thread? (.actor i) = some thread ∧ Subject.first? (.actor i) thread.tasks = some x := by
  obtain ⟨t, thread, found, first⟩ := h
  obtain ⟨z, mem, ends⟩ := (composed.comes t thread found).exists_ends (Subject.mem_of_first? first)
    (Subject.begun?_of_first? first)
  obtain rfl := eq_of_ends? ends
  obtain rfl := composed.staffed.own t thread found _ mem i rfl
  exact ⟨thread, found, first⟩

end Composed

end World

namespace World

/-- An answer reaches what an interpreter has begun only where it waits, or it finds an actor that is
about to handle the reserved event, with nobody who waits. -/
theorem first?_of_answer [Strategy σ] {v : World σ} {t : ThreadId} {old thread : Thread} {c : Subject}
    {x : Task} {rest : List Task} {a : Answer} (there : v.thread? t = some old)
    (linked : Linked Comes (x :: rest) none) (apart : x.begun? ≠ some c)
    (now : (v.deliverAnswer t a rest).thread? t = some thread) :
    c.first? thread.tasks = c.first? rest ∨
      (∃ phase outside shared next b,
        c.first? rest = some (.resume (.action c phase) outside shared next) ∧
          c.first? thread.tasks = some (.perform (.action c phase) (next b))) ∨
      ∃ i, c.first? rest = some (.handle (.actor i) (.ofType .default) none) ∧
        c.first? thread.tasks = none := by
  cases waiting : awaited rest with
  | true =>
    obtain ⟨above, speaker, outside, shared, next, below, rfl, quiet⟩ := exists_waiting waiting
    have answered := thread?_deliverAnswer_of_waits there a quiet speaker outside shared next below
    obtain rfl := Option.some.inj (now.symm.trans answered)
    have none : ∀ y ∈ above, y.begun? ≠ some c := by
      refine Subject.first?_eq_none.1 (Option.eq_none_iff_forall_not_mem.2 fun y first => ?_)
      rcases linked.of_apart apart (Subject.first?_append_of_some first) with waits | ⟨i, rfl⟩
      · have awaits := List.any_eq_true.2 ⟨y, Subject.mem_of_first? first, waits⟩
        exact absurd awaits (by simpa [awaited] using quiet)
      · obtain ⟨before, after, rfl⟩ := List.append_of_mem (Subject.mem_of_first? first)
        rw [List.append_assoc] at linked
        have alone := (Linked.append_iff.1 linked.2).2.eq_of_handle
        have mem : Task.resume speaker outside shared next ∈ [Task.cycle i] := by
          rw [← alone]
          simp
        simp at mem
    rw [Subject.first?_append_of_none none]
    by_cases mine : ∃ phase, speaker = .action c phase
    · obtain ⟨phase, rfl⟩ := mine
      exact .inr (.inl ⟨phase, outside, shared, next, _, Subject.first?_cons_self rfl,
        Subject.first?_cons_self rfl⟩)
    · have others := Subject.begun?_ne_of_speaker (not_exists.1 mine)
        (next (adaptAnswer shared a)) outside shared next
      exact .inl ((Subject.first?_cons_of_ne others.1).trans
        (Subject.first?_cons_of_ne others.2).symm)
  | false =>
    have gone : c.first? thread.tasks = none := by
      obtain ⟨tasks, outside⟩ := thread
      cases v.givesUp_of_deliverAnswer now with
      | resumes suffix =>
        have awaits : rest.any Task.waits = true :=
          List.any_eq_true.2 ⟨_, suffix.subset List.mem_cons_self, rfl⟩
        exact absurd awaits (by simpa [awaited] using waiting)
      | ends | retires => rfl
    cases first : c.first? rest with
    | none => exact .inl gone
    | some y =>
      rcases linked.of_apart apart first with waits | ⟨i, rfl⟩
      · have awaits := List.any_eq_true.2 ⟨y, Subject.mem_of_first? first, waits⟩
        exact absurd awaits (by simpa [awaited] using waiting)
      · exact .inr (.inr ⟨i, rfl, gone⟩)

end World

namespace Experiment

variable [Strategy σ] (e : Experiment)

theorem composed (accepted : e.registry.Accepted) (ids : Allocator) (s : σ) (n : Nat) :
    (e.iterate n ids s).Composed where
  comes := e.everywhere accepted ids s enduring_comes (fun _ => ⟨.nil, trivial⟩) n
  staffed := e.staffed accepted ids s n
  exclusive := e.exclusive accepted ids s n

end Experiment

end SteeredActors
