import SteeredActors.Proofs.World.Effects
import SteeredActors.Proofs.World.Runs

/-!
# Worlds that can be reached

All worlds that come of a world in which nothing has happened: by steps of any thread, in whatever
order they are taken, by time, and in production by driving the run and shutting it down. In all of
them every interpreter is fit and every task is founded.
-/

set_option autoImplicit false
set_option relaxedAutoImplicit false

namespace SteeredActors

variable {σ : Type} [Strategy σ]

/-! ## One step of a thread -/

/-- How a thread goes on after an answer: with the program that waits for it, or not at all. -/
inductive World.Unwinds (S : Subject → Prop) (w : World σ) (t : ThreadId) (tasks : List Task) :
    World σ → Prop where
  | resumes {w₁ : World σ} {speaker : Speaker} {rest : List Task} {before shared outside : Bool}
      {next : Answer → Program} (works : w.Works S w₁)
      (suffix : .resume speaker before shared next :: rest <:+ tasks) (a : Answer) :
      Unwinds S w t tasks (w₁.setThread t ⟨.perform speaker (next a) :: rest, outside⟩)
  | ends {w₁ : World σ} (works : w.Works S w₁) (other : ∀ i, t ≠ .actor i) :
      Unwinds S w t tasks (w₁.setThread t ⟨[], false⟩)
  | abandons {w₁ : World σ} {i : Nat} (works : w.Works S w₁) (mine : t = .actor i) :
      Unwinds S w t tasks ((w₁.abandon i).setThread t ⟨[.retire .yield], false⟩)

theorem World.unwinds_deliverAnswer {S : Subject → Prop} (w : World σ) (t : ThreadId) (a : Answer)
    (tasks : List Task) : w.Unwinds S t tasks (w.deliverAnswer t a tasks) := by
  induction tasks generalizing w with
  | nil =>
    cases t with
    | driver | sleeper j => exact .ends (.refl w) (by simp)
    | actor i => exact .abandons (.refl w) rfl
  | cons x rest ih =>
    have skipped : ∀ w₁ : World σ, w.Works S w₁ →
        w.Unwinds S t (x :: rest) (w₁.deliverAnswer t a rest) := by
      intro w₁ works
      have unwinds := ih w₁
      generalize w₁.deliverAnswer t a rest = w₂ at unwinds ⊢
      cases unwinds with
      | resumes works₁ suffix a =>
        exact .resumes (works.trans works₁) (suffix.trans (List.suffix_cons x rest)) a
      | ends works₁ other => exact .ends (works.trans works₁) other
      | abandons works₁ mine => exact .abandons (works.trans works₁) mine
    cases x
    case resume => exact .resumes (.refl w) List.suffix_rfl _
    case release m => exact skipped _ (.modifyMonitor w m fun a _ => .refl a.core)
    case enlist m => exact skipped _ (.modifyMonitor w m fun a _ => .refl a.core)
    all_goals exact skipped w (.refl w)

/-- What a thread has to do after its task `x`, with `rest` still to be done. -/
inductive World.Follows (w : World σ) (x : Task) (rest : List Task) : List Task → Prop where
  | spawns {xs : List Task} (each : ∀ y ∈ xs, y.Spawned (x.Restacks w) w) :
      Follows w x rest (xs ++ rest)
  /-- An actor goes on with its own work. -/
  | turns {xs : List Task} {y : Task} {i : Nat} (own : x.worker? = some i)
      (each : ∀ y ∈ xs, y.Spawned (x.Restacks w) w) (next : y.worker? = some i)
      (founded : y.Founded w) : Follows w x rest (xs ++ y :: rest)
  /-- A program goes on with an answer. -/
  | resumes {speaker : Speaker} {outside shared : Bool} {next : Answer → Program}
      (program : Program) {below : List Task}
      (suffix : .resume speaker outside shared next :: below <:+ rest) :
      Follows w x rest (.perform speaker program :: below)
  | retires : Follows w x rest [.retire .yield]
  | ends : Follows w x rest []

/-- The thread itself goes on with what remains, and the others have the same to do. -/
theorem World.Unwinds.threads {S : Subject → Prop} {w w' : World σ} {t : ThreadId}
    {rest : List Task} (h : w.Unwinds S t rest w') (w₀ : World σ) (x : Task) :
    ∃ w₁ tasks outside, w.Acts S w₁ ∧ w₀.Follows x rest tasks ∧
      w' = w₁.setThread t ⟨tasks, outside⟩ := by
  cases h with
  | resumes works suffix => exact ⟨_, _, _, works.toActs, .resumes _ suffix, rfl⟩
  | ends works => exact ⟨_, _, _, works.toActs, .ends, rfl⟩
  | abandons works => exact ⟨_, _, _, works.toActs.trans (acts_abandon _ _), .retires, rfl⟩

/-- A step of a thread does its next task. -/
theorem World.of_stepThread? {w w' : World σ} {t : ThreadId} (moved : w.stepThread? t = some w') :
    ∃ x rest outside, w.thread? t = some ⟨x :: rest, outside⟩ ∧
      ((∃ xs w₁ old, w.exec t x = .go xs w₁ ∧ w₁.thread? t = some old ∧
          w' = w₁.setThread t ⟨xs ++ rest, old.outside⟩) ∨
        ∃ a w₁, w.exec t x = .answer a w₁ ∧ w' = w₁.deliverAnswer t a rest) := by
  cases found : w.thread? t with
  | none => simp [World.stepThread?, found] at moved
  | some thread =>
    obtain ⟨tasks, outside⟩ := thread
    cases tasks with
    | nil => simp [World.stepThread?, found] at moved
    | cons x rest =>
      refine ⟨x, rest, outside, rfl, ?_⟩
      rw [World.stepThread?_cons found] at moved
      cases executed : w.exec t x with
      | wait => simp [executed] at moved
      | answer a w₁ =>
        simp only [executed, Option.some.injEq] at moved
        exact .inr ⟨a, w₁, rfl, moved.symm⟩
      | go xs w₁ =>
        cases kept : w₁.thread? t with
        | none => simp [executed, kept] at moved
        | some thread =>
          simp only [executed, kept, Option.some.injEq] at moved
          exact .inl ⟨xs, w₁, thread, rfl, kept, moved.symm⟩

/-! ## Reachability -/

/-- One step of a world, whoever takes it. -/
inductive World.Moves (w : World σ) : World σ → Prop where
  | does {t : ThreadId} {w' : World σ} (moved : w.stepThread? t = some w') : Moves w w'
  | waits (clock : Nat) : Moves w { w with clock }
  /-- The driver gets another program. -/
  | drives (journal : List JournalLine) {test : Test} (program : Program)
      (begins : test.thread.tasks = [.perform .test program]) : Moves w { w with journal, test }
  /-- The run is shut down. -/
  | stops (outcome : Outcome) : Moves w { w with controller := (w.controller.terminate outcome).2 }

/-- The worlds that come of running a test in a world in which nothing has happened. -/
def World.Reached (registry : Registry) (w : World σ) : Prop :=
  ∃ controller policy ids test,
    Relation.ReflTransGen World.Moves (World.new controller registry policy ids test) w

/-- What holds of every world that can be reached. -/
structure World.Orderly (w : World σ) : Prop where
  fit : w.Fit
  founded : ∀ t thread, w.thread? t = some thread → ∀ x ∈ thread.tasks, x.Founded w

/-- What doing a founded task leads to. -/
theorem World.Orderly.exec {w : World σ} (h : w.Orderly) (t : ThreadId) {x : Task}
    (founded : x.Founded w) :
    (w.exec t x).Leads (w.Acts (x.Restacks w)) fun y =>
      y.Founded w ∧ ∀ m, y.opens? = some m → x.Restacks w (.monitor m) := by
  cases own : x.worker? with
  | none =>
    have acts := World.acts_exec h.fit t founded own fun _ => id
    cases executed : w.exec t x with
    | wait => trivial
    | answer a w₁ =>
      rw [executed] at acts
      exact acts
    | go xs w₁ =>
      rw [executed] at acts
      exact ⟨acts.1, fun y mem => ⟨(acts.2 y mem).1, (acts.2 y mem).2.2⟩⟩
  | some i =>
    have turns := World.turns_exec (S := x.Restacks w) h.fit t own
    cases executed : w.exec t x with
    | wait => trivial
    | answer a w₁ =>
      rw [executed] at turns
      exact turns
    | go xs w₁ =>
      rw [executed] at turns
      obtain ⟨acts, xs, ys, rfl, each, last⟩ := turns
      refine ⟨acts, List.forall_mem_append.2
        ⟨fun y mem => ⟨(each y mem).1, (each y mem).2.2⟩, fun y mem => ?_⟩⟩
      rcases last with rfl | rfl | rfl | rfl
      · cases mem
      all_goals
        obtain rfl := List.mem_singleton.1 mem
        exact ⟨trivial, nofun⟩

/-- One step of a thread, by what it does to interpreters and to threads. -/
theorem World.Orderly.step {w w' : World σ} (h : w.Orderly) {t : ThreadId}
    (moved : w.stepThread? t = some w') :
    ∃ x rest outside w₁ tasks outside', w.thread? t = some ⟨x :: rest, outside⟩ ∧
      w.Acts (x.Restacks w) w₁ ∧ w.Follows x rest tasks ∧ w' = w₁.setThread t ⟨tasks, outside'⟩ := by
  obtain ⟨x, rest, outside, found, steps⟩ := World.of_stepThread? moved
  have founded : x.Founded w := h.founded t _ found x List.mem_cons_self
  have leads := h.exec t founded
  refine ⟨x, rest, outside, ?_⟩
  rcases steps with ⟨xs, w₁, old, executed, _, rfl⟩ | ⟨a, w₁, executed, rfl⟩
  · rw [executed] at leads
    refine ⟨w₁, _, old.outside, found, leads.1, ?_, rfl⟩
    cases own : x.worker? with
    | none =>
      have acts := World.acts_exec h.fit t founded own fun _ => id
      rw [executed] at acts
      exact .spawns acts.2
    | some i =>
      have turns := World.turns_exec (S := x.Restacks w) h.fit t own
      rw [executed] at turns
      obtain ⟨_, xs, ys, rfl, each, last⟩ := turns
      rcases last with rfl | rfl | rfl | rfl
      · have spawns : w.Follows x rest (xs ++ rest) := .spawns each
        simpa using spawns
      all_goals
        rw [List.append_assoc]
        exact .turns own each rfl trivial
  · rw [executed] at leads
    obtain ⟨w₂, tasks, outside', acts₂, follows, same⟩ :=
      (w₁.unwinds_deliverAnswer t a rest).threads w x
    exact ⟨w₂, tasks, outside', found, leads.trans acts₂, follows, same⟩

/-- The thread that moves stays. -/
theorem World.Orderly.stays {w w' : World σ} (h : w.Orderly) {t : ThreadId}
    (moved : w.stepThread? t = some w') : ∃ thread, w'.thread? t = some thread := by
  obtain ⟨_, _, _, w₁, _, _, found, acts, _, rfl⟩ := h.step moved
  obtain ⟨_, kept, _⟩ := acts.kept t _ found
  exact ⟨_, w₁.thread?_setThread kept _⟩

/-- A thread that does not move has to do what it had to do, or has not begun. -/
theorem World.Orderly.bystander {w w' : World σ} (h : w.Orderly) {t u : ThreadId}
    (moved : w.stepThread? t = some w') (other : u ≠ t) {thread : Thread}
    (now : w'.thread? u = some thread) :
    (∃ old, w.thread? u = some old ∧ thread.tasks = old.tasks) ∨
      w.thread? u = none ∧ ∃ k, thread.tasks = [.firstTurn k] ∨ thread.tasks = [.sleep k] := by
  obtain ⟨_, _, _, w₁, _, _, _, acts, _, rfl⟩ := h.step moved
  rw [w₁.thread?_setThread_ne other] at now
  cases was : w.thread? u with
  | none =>
    have fresh := acts.begun u thread was now
    cases u with
    | driver => exact fresh.elim
    | actor i => exact .inr ⟨rfl, i, .inl fresh⟩
    | sleeper j => exact .inr ⟨rfl, j, .inr fresh⟩
  | some old =>
    obtain ⟨_, kept, same⟩ := acts.kept u old was
    obtain rfl := Option.some.inj (now.symm.trans kept)
    exact .inl ⟨old, rfl, same⟩

omit [Strategy σ] in
/-- What a thread has to do next is founded. -/
theorem World.Follows.founded {w : World σ} {x : Task} {rest tasks : List Task}
    (h : w.Follows x rest tasks) (below : ∀ y ∈ rest, y.Founded w) : ∀ y ∈ tasks, y.Founded w := by
  intro y mem
  cases h with
  | spawns each =>
    rcases List.mem_append.1 mem with mem | mem
    · exact (each y mem).1
    · exact below y mem
  | turns own each next founded =>
    rcases List.mem_append.1 mem with mem | mem
    · exact (each y mem).1
    · rcases List.mem_cons.1 mem with rfl | mem
      · exact founded
      · exact below y mem
  | resumes program suffix =>
    rcases List.mem_cons.1 mem with rfl | mem
    · -- whoever waited goes on
      exact below (.resume _ _ _ _) (suffix.subset List.mem_cons_self)
    · exact below y (suffix.subset (List.mem_cons_of_mem _ mem))
  | retires =>
    obtain rfl := List.mem_singleton.1 mem
    trivial
  | ends => cases mem

private theorem World.Orderly.does {w w' : World σ} (h : w.Orderly) {t : ThreadId}
    (moved : w.stepThread? t = some w') : w'.Orderly := by
  obtain ⟨x, rest, outside, w₁, tasks, outside', found, acts, follows, rfl⟩ := h.step moved
  have evolves : w.Evolves (x.Restacks w) (w₁.setThread t ⟨tasks, outside'⟩) :=
    acts.toEvolves.trans (.setThread w₁ t _)
  refine ⟨h.fit.evolve evolves, fun u thread found' y mem => ?_⟩
  by_cases e : u = t
  · subst e
    rw [World.eq_of_thread?_setThread w₁ found'] at mem
    have below : ∀ y ∈ rest, y.Founded w := fun y mem =>
      h.founded u _ found y (List.mem_cons_of_mem _ mem)
    exact (follows.founded below y mem).evolve evolves
  · rw [w₁.thread?_setThread_ne e] at found'
    cases before : w.thread? u with
    | some old =>
      obtain ⟨thread', found₁, same⟩ := acts.kept u old before
      obtain rfl := Option.some.inj (found'.symm.trans found₁)
      exact (h.founded u old before y (same ▸ mem)).evolve evolves
    | none =>
      have fresh := acts.begun u thread before found'
      cases u with
      | driver => exact fresh.elim
      | actor i | sleeper i =>
        rw [show thread.tasks = _ from fresh, List.mem_singleton] at mem
        exact mem ▸ trivial

private theorem World.Orderly.move {w w' : World σ} (h : w.Orderly) (moves : w.Moves w') :
    w'.Orderly := by
  cases moves with
  | does moved => exact h.does moved
  | waits clock =>
    have works : w.Works (fun _ => False) { w with clock } :=
      .of_parts rfl rfl (.refl _) rfl rfl rfl rfl rfl
    exact ⟨h.fit.evolve works.toEvolves, fun u thread found x mem =>
      (h.founded u thread (by cases u <;> exact found) x mem).evolve works.toEvolves⟩
  | stops outcome =>
    have works := World.Works.of_controller (S := fun _ => False) w
      (Controller.Steers.terminate w.controller outcome)
    exact ⟨h.fit.evolve works.toEvolves, fun u thread found x mem =>
      (h.founded u thread (by cases u <;> exact found) x mem).evolve works.toEvolves⟩
  | @drives journal test program begins =>
    have evolves : w.Evolves (fun _ => False) { w with journal, test } :=
      .of_same rfl rfl (.refl _) rfl rfl fun c => by cases c <;> rfl
    refine ⟨h.fit.evolve evolves, fun u thread found x mem => ?_⟩
    cases u with
    | driver =>
      obtain rfl := Option.some.inj found
      rw [begins, List.mem_singleton] at mem
      exact mem ▸ trivial
    | actor i => exact (h.founded (.actor i) thread found x mem).evolve evolves
    | sleeper j => exact (h.founded (.sleeper j) thread found x mem).evolve evolves

/-- In every world that can be reached interpreters are fit and tasks are founded. -/
theorem World.Reached.orderly {registry : Registry} (accepted : registry.Accepted) {w : World σ}
    (reached : World.Reached registry w) : w.Orderly := by
  obtain ⟨controller, policy, ids, test, moves⟩ := reached
  induction moves with
  | refl =>
    refine ⟨⟨accepted, fun c core found => ?_, fun i core found => ?_⟩,
      fun u thread found x mem => ?_⟩
    · cases c <;> cases found
    · cases found
    · cases u with
      | driver =>
        obtain rfl := Option.some.inj found
        obtain rfl := List.mem_singleton.1 mem
        trivial
      | actor i | sleeper i => cases found
  | tail _ moves ih => exact ih.move moves

/-- What interpreters and the controller become in one step. -/
theorem World.Orderly.evolves {w w' : World σ} (h : w.Orderly) (moves : w.Moves w') :
    w.Evolves (fun _ => True) w' := by
  cases moves with
  | does moved =>
    obtain ⟨x, rest, outside, w₁, tasks, outside', _, acts, _, rfl⟩ := h.step moved
    exact (acts.mono fun _ _ => trivial).toEvolves.trans (.setThread w₁ _ _)
  | waits clock => exact .of_same rfl rfl (.refl _) rfl rfl fun c => by cases c <;> rfl
  | stops outcome => exact (World.Works.of_controller w (.terminate w.controller outcome)).toEvolves
  | drives journal program begins =>
    exact .of_same rfl rfl (.refl _) rfl rfl fun c => by cases c <;> rfl

/-! ## Explored iterations -/

/-- Every step of a world is taken by a thread, or it lets time pass. -/
theorem World.moves_of_step? {w w' : World σ} (moved : w.step? = some w') : w.Moves w' := by
  unfold World.step? at moved
  split at moved
  · exact .does moved
  · split at moved
    · next found =>
      obtain ⟨t, _, does⟩ := List.exists_of_findSome?_eq_some found
      cases moved
      exact .does does
    · split at moved
      · cases moved
      · unfold World.passTime? at moved
        split at moved
        · split at moved
          · cases moved
            exact .waits _
          · cases moved
        · cases moved

theorem World.Reached.run {registry : Registry} {w : World σ} (reached : World.Reached registry w)
    (n : Nat) : World.Reached registry (w.run n) := by
  induction n generalizing w with
  | zero => exact reached
  | succ n ih =>
    unfold World.run
    split
    · next w' moved =>
      obtain ⟨controller, policy, ids, test, moves⟩ := reached
      exact ih ⟨controller, policy, ids, test, moves.tail (World.moves_of_step? moved)⟩
    · exact reached

theorem Experiment.reached (e : Experiment) (n : Nat) (ids : Allocator) (s : σ) :
    World.Reached e.registry (e.iterate n ids s) :=
  World.Reached.run ⟨_, _, _, _, .refl⟩ n

/-- What interpreters and the controller become in an iteration. -/
theorem Experiment.evolves (e : Experiment) (accepted : e.registry.Accepted) (ids : Allocator)
    (s : σ) {m n : Nat} (le : m ≤ n) :
    (e.iterate m ids s).Evolves (fun _ => True) (e.iterate n ids s) := by
  induction le with
  | refl => exact .refl _
  | @step n _ ih =>
    rw [e.iterate_succ]
    cases moved : (e.iterate n ids s).step? with
    | none => exact ih
    | some w' =>
      exact ih.trans (((e.reached n ids s).orderly accepted).evolves (World.moves_of_step? moved))

end SteeredActors
