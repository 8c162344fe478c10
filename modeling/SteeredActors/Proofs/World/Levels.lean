import SteeredActors.Proofs.World.Reached

/-!
# How many states monitors have

Monitors neither push nor pop. While a run is explored and goes on, a monitor that has not halted has
exactly one state. The only exception is the moment in which it goes from one state to the next: then
it has none, and the holder of the turn is about to put the next one on its stack.
-/

set_option autoImplicit false
set_option relaxedAutoImplicit false

namespace SteeredActors

variable {σ : Type}

namespace World

/-- The monitor that the holder of the turn is about to give a state. -/
def opening? (w : World σ) : Option Nat := w.next?.bind Task.opens?

/-- As many states as a monitor should have. -/
structure Level (w : World σ) : Prop where
  behind : ∀ t x rest outside, w.thread? t = some ⟨x :: rest, outside⟩ →
    ∀ y ∈ rest, y.opens? = none
  ahead : ∀ t x rest outside, w.thread? t = some ⟨x :: rest, outside⟩ → x.opens?.isSome = true →
    t = threadOf w.controller.scheduled
  depth : ∀ m core, w.core? (.monitor m) = some core → core.halted = false →
    core.stack.length = if w.opening? = some m then 0 else 1

variable [Strategy σ] {w w₁ : World σ} {t : ThreadId} {x : Task} {rest tasks : List Task}
  {outside : Bool}

omit [Strategy σ] in
theorem restacks?_of_opens {m : Nat} (opens : x.opens? = some m) :
    x.restacks? w = some (.monitor m) := by
  unfold Task.opens? at opens
  split at opens <;> cases opens <;> rfl

/-- Who does not hold the turn opens nothing. -/
private theorem Level.others (level : w.Level) {S : Subject → Prop} (acts : w.Acts S w₁)
    {u : ThreadId} (other : u ≠ threadOf w.controller.scheduled) {thread : Thread}
    (found : w₁.thread? u = some thread) : ∀ y ∈ thread.tasks, y.opens? = none := by
  intro y mem
  cases before : w.thread? u with
  | none =>
    have fresh := acts.begun u thread before found
    cases u with
    | driver => exact fresh.elim
    | actor i | sleeper i =>
      rw [show thread.tasks = _ from fresh, List.mem_singleton] at mem
      exact mem ▸ rfl
  | some old =>
    obtain ⟨thread', found', same⟩ := acts.kept u old before
    obtain rfl := Option.some.inj (found.symm.trans found')
    obtain ⟨tasks, outside⟩ := old
    rw [same] at mem
    cases tasks with
    | nil => cases mem
    | cons z rest =>
      rcases List.mem_cons.1 mem with rfl | mem
      · by_contra opens
        exact other (level.ahead u _ _ _ before (Option.isSome_iff_ne_none.2 opens))
      · exact level.behind u z rest outside before y mem

/-- What the next step opens is what the thread that has just moved does next. -/
private theorem Level.opening_setThread (level : w.Level) {S : Subject → Prop} (acts : w.Acts S w₁)
    {outside' : Bool} {m : Nat}
    (opens : (w₁.setThread (threadOf w.controller.scheduled) ⟨tasks, outside'⟩).opening? = some m) :
    tasks.head?.bind Task.opens? = some m := by
  obtain ⟨y, next, opensY⟩ := Option.bind_eq_some_iff.1 opens
  obtain ⟨below, out, found⟩ := thread_of_next? next
  rw [controller_setThread] at found
  by_cases same : threadOf w₁.controller.scheduled = threadOf w.controller.scheduled
  · rw [same] at found
    have own := w₁.eq_of_thread?_setThread found
    obtain rfl := (Thread.mk.inj own).1
    exact opensY
  · rw [w₁.thread?_setThread_ne same] at found
    cases (level.others acts same found y List.mem_cons_self).symm.trans opensY

/-- A step that keeps the level of the monitor that it has to do with keeps all levels. -/
private theorem Level.setThread (level : w.Level)
    (found : w.thread? (threadOf w.controller.scheduled) = some ⟨x :: rest, outside⟩)
    (acts : w.Acts (x.Restacks w) w₁) (behind : ∀ y ∈ tasks.tail, y.opens? = none)
    (ahead : ∀ y ∈ tasks.head?, ∀ m, y.opens? = some m → x.restacks? w = some (.monitor m) ∧
      w₁.controller.scheduled = w.controller.scheduled)
    (own : ∀ m core, x.restacks? w = some (.monitor m) → w₁.core? (.monitor m) = some core →
      core.halted = false →
      core.stack.length = if tasks.head?.bind Task.opens? = some m then 0 else 1)
    (outside' : Bool) :
    (w₁.setThread (threadOf w.controller.scheduled) ⟨tasks, outside'⟩).Level := by
  have mine := fun {u thread} (h : (w₁.setThread (threadOf w.controller.scheduled)
      ⟨tasks, outside'⟩).thread? u = some thread) (same : u = threadOf w.controller.scheduled) =>
    w₁.eq_of_thread?_setThread (same ▸ h)
  have others := fun {u thread} (h : (w₁.setThread (threadOf w.controller.scheduled)
      ⟨tasks, outside'⟩).thread? u = some thread) (other : u ≠ threadOf w.controller.scheduled) =>
    level.others acts other ((w₁.thread?_setThread_ne other _).symm.trans h)
  refine ⟨fun u y below out h z mem => ?_, fun u y below out h opens => ?_,
    fun m core there running => ?_⟩
  · by_cases same : u = threadOf w.controller.scheduled
    · have tasks_eq := (Thread.mk.inj (mine h same)).1
      exact behind z (by rw [← tasks_eq]; exact mem)
    · exact others h same z (List.mem_cons_of_mem _ mem)
  · by_cases same : u = threadOf w.controller.scheduled
    · have tasks_eq := (Thread.mk.inj (mine h same)).1
      obtain ⟨m, opens⟩ := Option.isSome_iff_exists.1 opens
      rw [controller_setThread, (ahead y (by rw [← tasks_eq]; rfl) m opens).2, same]
    · rw [others h same y List.mem_cons_self] at opens
      cases opens
  · have there' : w₁.core? (.monitor m) = some core := by
      rw [← there]
      cases threadOf w.controller.scheduled <;> rfl
    by_cases moves : x.restacks? w = some (.monitor m)
    · rw [own m core moves there' running]
      refine if_congr ⟨fun opens => ?_, level.opening_setThread acts⟩ rfl rfl
      obtain ⟨y, first, opensY⟩ := Option.bind_eq_some_iff.1 opens
      obtain ⟨old, kept, _⟩ := acts.kept _ _ found
      have turn := (ahead y first m opensY).2
      rw [opening?, next?, controller_setThread, turn, w₁.thread?_setThread kept]
      simp [first, opensY]
    · have level_eq : core.stack.length = 1 := by
        cases before : w.core? (.monitor m) with
        | none => exact absurd ((acts.fresh _ core before there').1 rfl) moves
        | some old =>
          obtain ⟨core', found', becomes⟩ := acts.cores _ old before
          obtain rfl := Option.some.inj (there'.symm.trans found')
          obtain ⟨stack, halted⟩ := becomes.still moves
          rw [stack, level.depth m old before (halted ▸ running), if_neg]
          rw [opening?, next?_of_thread found]
          exact fun opens => moves (restacks?_of_opens opens)
      rw [level_eq, if_neg]
      intro opens
      obtain ⟨y, first, opensY⟩ := Option.bind_eq_some_iff.1 (level.opening_setThread acts opens)
      exact moves (ahead y first m opensY).1

/-! ## Tasks about the stack of a monitor -/

/-- Where a task about the stack of a monitor leads: the monitor has one state, or it has none and
gets one next. -/
def Lands (w : World σ) (m : Nat) : Move σ → Prop
  | .wait => True
  | .go tasks w₁ =>
    (∀ y ∈ tasks.tail, y.opens? = none) ∧
      (∀ y ∈ tasks.head?, ∀ k, y.opens? = some k →
        k = m ∧ w₁.controller.scheduled = w.controller.scheduled) ∧
      ∀ core, w₁.core? (.monitor m) = some core → core.halted = false →
        core.stack.length = if tasks.head?.bind Task.opens? = some m then 0 else 1
  | .answer _ w₁ => w₁.isOver = true ∨ w₁.core? (.monitor m) = none

omit [Strategy σ] in
/-- Nothing is opened, and the monitor has one state. -/
private theorem lands_closed {m : Nat} (closed : ∀ y ∈ tasks, y.opens? = none)
    (one : ∀ core, w₁.core? (.monitor m) = some core → core.halted = false → core.stack.length = 1) :
    w.Lands m (.go tasks w₁) := by
  refine ⟨fun y mem => closed y (List.mem_of_mem_tail mem), fun y first k opens => ?_,
    fun core there running => ?_⟩
  · cases (closed y (List.mem_of_mem_head? first)).symm.trans opens
  · rw [one core there running, if_neg]
    intro opens
    obtain ⟨y, first, opensY⟩ := Option.bind_eq_some_iff.1 opens
    cases (closed y (List.mem_of_mem_head? first)).symm.trans opensY

omit [Strategy σ] in
private theorem lands_withCore {m : Nat} {f : Core → Move σ}
    (h : ∀ core, w.core? (.monitor m) = some core → w.Lands m (f core)) :
    w.Lands m (w.withCore (.monitor m) f) := by
  unfold withCore
  split
  · next core found => exact h core found
  · next absent => exact lands_closed (by simp) fun core there => by simp [absent] at there

private theorem closed_invocation (c : Subject) (event : Option Event) (phase : Phase)
    (action : Option Action) : ∀ y ∈ invocation c event phase action, y.opens? = none := by
  cases action <;> simp [invocation, Task.opens?]

omit [Strategy σ] in
private theorem lands_pushState {m : Nat} {core : Core} (found : w.core? (.monitor m) = some core)
    (empty : core.halted = false → core.stack = []) (s : StateDescriptor) (event : Option Event) :
    w.Lands m (w.pushState (.monitor m) core s event) := by
  refine lands_closed (closed_invocation _ _ _ _) fun core' there running => ?_
  rw [core?_setStack found, Option.some.injEq] at there
  subst there
  rw [empty running]
  rfl

private theorem lands_halt {m : Nat} {core : Core} (found : w.core? (.monitor m) = some core)
    (r : Option Nat) :
    w.Lands m
      (.go (settlement (.monitor m) r false) ((w.setStack (.monitor m) []).halt (.monitor m)))
    := by
  refine lands_closed (by simp [settlement]) fun core' there running => ?_
  have stopped : core'.halted = true := by
    rw [halt, core?_setStack found] at there
    simp only at there
    split at there
    · next halted =>
      rw [core?_setStack found, Option.some.injEq] at there
      rw [← there, halted]
    · obtain ⟨old, was, becomes⟩ := (Works.observe (S := fun _ => False)
        ((w.setStack (.monitor m) []).modifyCore (.monitor m) fun core =>
          { core with halted := true, stack := [], raised := none }) (.destroyed core.id)).cores
        (.monitor m) _ (core?_modifyCore (core?_setStack found []) _)
      obtain rfl := Option.some.inj (there.symm.trans was)
      exact becomes.halted rfl
  rw [running] at stopped
  cases stopped

/-- An event leaves the monitor its one state, or none is left and it halts or the run ends. -/
private theorem lands_handle {m : Nat} (fit : w.Fit)
    (one : ∀ core, w.core? (.monitor m) = some core → core.halted = false → core.stack.length = 1)
    (event : Event) (r : Option Nat) : w.Lands m (w.handle (.monitor m) event r) := by
  refine lands_withCore fun core found => ?_
  -- of one state that is not popped, one is left
  have kept : ∀ stack, stack <:+ core.stack → stack ≠ [] → ∀ core',
      (w.setStack (.monitor m) stack).core? (.monitor m) = some core' → core'.halted = false →
      core'.stack.length = 1 := by
    intro stack suffix some core' there running
    rw [core?_setStack found, Option.some.injEq] at there
    subst there
    have le := suffix.length_le
    rw [one core found running] at le
    have pos := List.length_pos_iff.2 some
    simp only
    omega
  cases resolved : resolveEvent event.type core.stack with
  | ignored stack =>
    obtain ⟨suffix, some⟩ := resolveEvent_ignored resolved
    exact lands_closed (by simp [settlement]) (kept stack suffix some)
  | bound binding stack =>
    obtain ⟨suffix, top, first, _⟩ := resolveEvent_bound resolved
    have some : stack ≠ [] := fun none => by simp [none] at first
    refine lands_closed (fun y mem => ?_) (kept stack suffix some)
    rcases List.mem_append.1 mem with mem | mem
    · have spawned := spawned_consumption (S := fun _ => False) (fit.cores _ _ found) found resolved
        y mem
      exact Option.eq_none_iff_forall_ne_some.2 spawned.2.2
    · simp [settlement] at mem
  | exhausted =>
    simp only
    split
    · exact lands_halt found r
    · refine .inl ?_
      exact isOver_report _ _

/-- Whatever a task does to the stack of a monitor, the monitor lands on its feet. -/
private theorem Level.lands (level : w.Level) (fit : w.Fit)
    (found : w.thread? (threadOf w.controller.scheduled) = some ⟨x :: rest, outside⟩)
    (founded : x.Founded w) {m : Nat} (moves : x.restacks? w = some (.monitor m)) (t : ThreadId) :
    w.Lands m (w.exec t x) := by
  have opening : w.opening? = x.opens? := by rw [opening?, next?_of_thread found]; rfl
  -- a monitor that is being opened has no state, and otherwise it has one
  have depth := fun core there running => (level.depth m core there running).trans
    (if_congr (by rw [opening]) rfl rfl)
  cases x <;> cases moves
  case start.refl event =>
    refine lands_withCore fun core there => lands_pushState there (fun running => ?_) _ _
    simpa [Task.opens?] using depth core there running
  case enter.refl target event =>
    refine lands_withCore fun core there => ?_
    split
    · refine lands_pushState there (fun running => ?_) _ _
      simpa [Task.opens?] using depth core there running
    · exact .inl (isOver_report _ _)
  case switch.refl target event =>
    refine lands_withCore fun core there => ?_
    split
    · next halted =>
      exact lands_closed (by simp) fun core' there' running => by simp_all
    · next running =>
      have one := depth core there (by simpa using running)
      refine ⟨by simp, fun y first k opens => ?_, fun core' there' _ => ?_⟩
      · obtain rfl := Option.some.inj first
        exact ⟨(Option.some.inj opens).symm, rfl⟩
      · rw [core?_setStack there, Option.some.injEq] at there'
        subst there'
        simp [Task.opens?, one]
  case handle.refl event r =>
    refine lands_handle fit (fun core there running => ?_) event r
    simpa [Task.opens?] using depth core there running
  case dropTop.refl => cases founded
  case install.refl d id =>
    simp only [exec, install]
    split
    · trivial
    · split
      · exact .inr (by simp [core?])
      · refine ⟨by simp [Task.opens?], fun y first k opens => ?_, fun core there _ => ?_⟩
        · obtain rfl := Option.some.inj first
          exact ⟨(Option.some.inj opens).symm, rfl⟩
        · simp only [core?, List.getElem?_concat_length, Option.map_some, Option.some.injEq] at there
          subst there
          simp [Task.opens?, Core.new]

/-- A step of the holder of the turn that does not end the run keeps the levels. -/
theorem Level.step {w' : World σ} (level : w.Level) (orderly : w.Orderly)
    (moved : w.stepThread? (threadOf w.controller.scheduled) = some w')
    (running : w'.isOver = false) : w'.Level := by
  obtain ⟨x, rest, outside, found, steps⟩ := of_stepThread? moved
  have founded : x.Founded w := orderly.founded _ _ found x List.mem_cons_self
  have leads := orderly.exec (threadOf w.controller.scheduled) founded
  have below := level.behind _ x rest outside found
  have lands := fun m moves => level.lands orderly.fit found founded (m := m) moves
    (threadOf w.controller.scheduled)
  rcases steps with ⟨xs, w₁, old, executed, _, rfl⟩ | ⟨a, w₁, executed, rfl⟩
  · rw [executed] at leads lands
    obtain ⟨acts, each⟩ := leads
    refine level.setThread found acts (fun y mem => ?_) (fun y first m opens => ?_)
      (fun m core moves there goesOn => ?_) _
    · cases xs with
      | nil => exact below y (List.mem_of_mem_tail mem)
      | cons z zs =>
        rcases List.mem_append.1 mem with mem | mem
        · refine Option.eq_none_iff_forall_ne_some.2 fun m opens => ?_
          have moves := (each y (List.mem_cons_of_mem _ mem)).2 m opens
          cases ((lands m moves).1 y mem).symm.trans opens
        · exact below y mem
    · cases xs with
      | nil => cases (below y (List.mem_of_mem_head? first)).symm.trans opens
      | cons z zs =>
        obtain rfl := Option.some.inj first
        have moves := (each z List.mem_cons_self).2 m opens
        exact ⟨moves, ((lands m moves).2.1 z rfl m opens).2⟩
    · rw [(lands m moves).2.2 core there goesOn]
      cases xs with
      | cons z zs => rfl
      | nil =>
        have closed : (List.head? rest).bind Task.opens? ≠ some m := by
          intro opens
          obtain ⟨y, first, opensY⟩ := Option.bind_eq_some_iff.1 opens
          cases (below y (List.mem_of_mem_head? first)).symm.trans opensY
        simp [closed]
  · rw [executed] at leads lands
    have goesOn : w₁.isOver = false := by
      rw [isOver, Controller.isOver, outcome_deliverAnswer] at running
      exact running
    -- what a thread goes on with after an answer opens nothing
    have answered : ∀ {w₂ : World σ} {tasks : List Task} (outside' : Bool),
        w₁.Acts (fun _ => False) w₂ → (∀ y ∈ tasks, y.opens? = none) →
        (w₂.setThread (threadOf w.controller.scheduled) ⟨tasks, outside'⟩).Level := by
      intro w₂ tasks outside' acts closed
      refine level.setThread found (leads.trans (acts.mono fun _ => False.elim))
        (fun y mem => closed y (List.mem_of_mem_tail mem)) (fun y first m opens => ?_)
        (fun m core moves there _ => ?_) _
      · cases (closed y (List.mem_of_mem_head? first)).symm.trans opens
      · rcases lands m moves with finished | absent
        · rw [goesOn] at finished
          cases finished
        · exact ((acts.fresh _ core absent there).1 rfl).elim
    have unwinds := w₁.unwinds_deliverAnswer (S := fun _ => False)
      (threadOf w.controller.scheduled) a rest
    generalize w₁.deliverAnswer (threadOf w.controller.scheduled) a rest = w₂ at unwinds
    cases unwinds with
    | resumes works suffix =>
      refine answered _ works.toActs (List.forall_mem_cons.2 ⟨rfl, fun y mem => ?_⟩)
      exact below y (suffix.subset (List.mem_cons_of_mem _ mem))
    | ends works => exact answered _ works.toActs (by simp)
    | abandons works =>
      exact answered _ (works.toActs.trans (acts_abandon _ _)) (by simp [Task.opens?])

end World

end SteeredActors
