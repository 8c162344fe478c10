import SteeredActors.Proofs.World.Honesty
import SteeredActors.Proofs.World.Sendings

/-!
# What monitors do

What a monitor does with an event it does at once, in the thread that hands it the event: its own
work, and what its actions ask for, comes in front of whatever that thread has to do afterwards and is
gone before the thread goes on. Monitors may neither send nor create. Only an action of a monitor that
comes to a scheduling point, or that pretends that the run is over, gets in the way.
-/

set_option autoImplicit false
set_option relaxedAutoImplicit false

namespace SteeredActors

variable {σ : Type}

/-- A request that comes to a scheduling point even if a monitor makes it. -/
def Request.isPoint : Request → Bool
  | .point _ | .access _ _ _ => true
  | _ => false

/-- An action of a monitor that comes to a scheduling point or pretends that the run is over. -/
def Task.interrupts : Task → Bool
  | .perform (.action (.monitor _) _) (.ask _ request _) => request.isPoint
  | .perform (.action (.monitor _) _) (.finish _ (.failed failure)) => failure.isTermination
  | _ => false

/-- A task that waits for an answer. -/
def Task.isResume : Task → Bool
  | .resume _ _ _ _ => true
  | _ => false

/-- What a task comes from that an action of a monitor waits for. -/
def Task.isAwaited : Task → Bool
  | .notify _ _ | .deliver _ _ | .install _ _ | .listMonitors | .readMonitor _ | .answer _
  | .awaitHalted _ => true
  | _ => false

/-- A task of a monitor, or one that an action of a monitor waits for. -/
inductive Task.Watches : Task → Prop where
  | works {x : Task} {m : Nat} (own : x.subject? = some (.monitor m)) : Watches x
  | resumes {m : Nat} {phase : Phase} {outside shared : Bool} {next : Answer → Program} :
      Watches (.resume (.action (.monitor m) phase) outside shared next)
  | enlists {m : Nat} : Watches (.enlist m)
  | awaited {x : Task} (h : x.isAwaited = true) : Watches x

theorem Task.isAwaited_of_subject {x : Task} {c : Subject} (own : x.subject? = some c) :
    x.isAwaited = false := by
  cases x <;> first | rfl | cases own

theorem Task.isResume_of_subject {x : Task} {c : Subject} (own : x.subject? = some c) :
    x.isResume = false := by
  cases x <;> first | rfl | cases own

theorem Task.Watches.posting? {x : Task} (watches : x.Watches) : x.posting? = none := by
  cases watches with
  | works own => cases x <;> first | rfl | cases own
  | resumes | enlists => rfl
  | awaited h => cases x <;> first | rfl | cases h

/-- Tasks of monitors. What an action waits for comes before the task in which it waits. -/
inductive Watching : List Task → Prop where
  | nil : Watching []
  | cons {x : Task} {xs : List Task} (watches : x.Watches)
      (heeded : x.isAwaited = true → ∃ y ∈ xs, y.isResume = true) (below : Watching xs) :
      Watching (x :: xs)

namespace Watching

variable {xs ys : List Task}

theorem plain {x : Task} (watches : x.Watches) (quiet : x.isAwaited = false)
    (below : Watching xs) : Watching (x :: xs) := by
  refine .cons watches (fun awaited => ?_) below
  rw [quiet] at awaited
  cases awaited

/-- More of the work of a monitor. -/
theorem work (below : Watching xs) {m : Nat} (works : ∀ y ∈ ys, y.subject? = some (.monitor m)) :
    Watching (ys ++ xs) := by
  induction ys with
  | nil => exact below
  | cons y ys ih =>
    obtain ⟨own, works⟩ := List.forall_mem_cons.1 works
    exact .plain (.works own) (Task.isAwaited_of_subject own) (ih works)

theorem posting? (watching : Watching xs) : ∀ y ∈ xs, y.posting? = none := by
  induction watching with
  | nil => simp
  | cons watches _ _ ih => exact List.forall_mem_cons.2 ⟨watches.posting?, ih⟩

/-- An action of a monitor waits for something. -/
theorem waits {x : Task} (awaited : x.isAwaited = true) (m : Nat) (phase : Phase)
    (outside shared : Bool) (next : Answer → Program) (below : Watching xs) :
    Watching ([x, .resume (.action (.monitor m) phase) outside shared next] ++ xs) :=
  .cons (.awaited awaited) (fun _ => ⟨_, List.mem_cons_self, rfl⟩) (.plain .resumes rfl below)

theorem waitsTwice {x y : Task} (first : x.isAwaited = true) (second : y.isAwaited = true) (m : Nat)
    (phase : Phase) (outside shared : Bool) (next : Answer → Program) (below : Watching xs) :
    Watching ([x, y, .resume (.action (.monitor m) phase) outside shared next] ++ xs) :=
  .cons (.awaited first) (fun _ => ⟨_, List.mem_cons_of_mem _ List.mem_cons_self, rfl⟩)
    (below.waits second m phase outside shared next)

end Watching

namespace World

variable [Strategy σ] {w w' : World σ} {t : ThreadId}

/-! ## What monitors ask for -/

omit [Strategy σ] in
private theorem create_of_unknown (explores : w.explores = true) (typeTag : String)
    (name : Option String) (event : Option Event) (execute : Bool) :
    ∃ r, w.create none typeTag name event execute = w.refuse r := by
  unfold create
  cases running : w.ensureRunning with
  | error r => exact ⟨r, rfl⟩
  | ok _ => simp [ensureKnown, explores, bind, Except.bind]

omit [Strategy σ] in
theorem serveDemand_ne_later {context : Option (Subject × Phase × Core)} {d : Demand}
    {tasks : List Task} {v : World σ} : w.serveDemand context d ≠ .later tasks v := by
  have demanded := w.ofDemand context d
  generalize w.serveDemand context d = service at demanded
  cases demanded <;> rintro ⟨⟩

/-- What a monitor may wait for. -/
theorem awaited_of_serve (fit : w.Fit) (explores : w.explores = true) {m : Nat} {core : Core}
    (found : w.core? (.monitor m) = some core) {caller : Option Nat} {phase : Phase} {voice : Voice}
    (unknown : voice = .outsider → caller = none) {request : Request}
    (discreet : request.isPoint = false) {tasks : List Task} {v : World σ}
    (served : w.serve caller (.action (.monitor m) phase) voice request = .later tasks v) :
    (∃ x, tasks = [x] ∧ x.isAwaited = true) ∨
      ∃ x y, tasks = [x, y] ∧ x.isAwaited = true ∧ y.isAwaited = true := by
  cases sends : request.sent? with
  | some sent =>
    obtain ⟨a, v', now⟩ := serve_of_monitor explores fit found phase unknown sends
    cases now.symm.trans served
  | none =>
  cases request <;> simp only [serve] at served
  case send | sendAndExecute | stopTimer => cases sends
  case create typeTag name event execute =>
    cases voice with
    | own =>
      simp only [context?_of_action found, Option.map_some, ensureMachine_of_monitor fit found]
        at served
      cases served
    | outsider =>
      obtain ⟨r, refused⟩ := create_of_unknown explores typeTag name event execute
      rw [unknown rfl] at served
      cases refused.symm.trans served
  case raise | goto | push | pop => exact absurd served serveDemand_ne_later
  case startTimer period periodic =>
    cases voice with
    | own =>
      simp only [context?_of_action found, Option.map_some, ensureMachine_of_monitor fit found]
        at served
      cases served
    | outsider => cases served
  case assert =>
    unfold assert at served
    split at served
    · cases served
    · split at served <;> cases served
  case randomBool =>
    unfold randomBool at served
    simp only at served
    split at served <;> cases served
  case randomInt =>
    unfold randomInt at served
    simp only at served
    split at served <;> cases served
  case monitor =>
    split at served <;> cases served
    exact .inr ⟨_, _, rfl, rfl, rfl⟩
  case registerMonitor typeTag =>
    cases begun : w.registerMonitor typeTag with
    | error r =>
      rw [begun] at served
      cases served
    | ok xs =>
      obtain ⟨d, id, _, _, rfl⟩ := registerMonitor_eq_ok begun
      rw [begun] at served
      cases served
      exact .inr ⟨_, _, rfl, rfl, rfl⟩
  case point | access => cases discreet
  case waitForQuiescence => cases (if_pos explores).symm.trans served
  case awaitHalted =>
    cases served
    exact .inr ⟨_, _, rfl, rfl, rfl⟩
  case monitors | monitorState =>
    cases served
    exact .inl ⟨_, rfl, rfl⟩
  all_goals cases served

/-! ## Steps -/

/-- What an interpreter does ends early only with the run, or because an action pretends so. -/
theorem isOver_of_answer {x : Task} {c : Subject} (own : x.subject? = some c)
    {a : Answer} {v : World σ} (executed : w.exec t x = .answer a v) :
    v.isOver = true ∨ x.Feigns := by
  cases responds_of_exec executed with
  | ends _ _ ceased => exact .inl ceased
  | unwinds _ _ _ feigns => exact .inr feigns
  | collects | lists | reads | gives | touches | lacks | misses | repeats | strange => cases own

/-- What a monitor that is handed an event does is its own work. -/
theorem delivery_works (w : World σ) (t : ThreadId) (m : Nat) (event : Event) :
    w.exec t (.deliver m event) = .wait ∨ ∃ xs v, w.exec t (.deliver m event) = .go xs v ∧
      ∀ y ∈ xs, y.subject? = some (.monitor m) := by
  rcases w.exec_deliver t m event with ⟨waits, _⟩ | goes | ⟨_, goes⟩
  · exact .inl waits
  · exact .inr ⟨_, _, goes, by simp⟩
  · exact .inr ⟨_, _, goes, by simp [Task.subject?]⟩

omit [Strategy σ] in
/-- Answers reach the action that waits for them. -/
private theorem watching_deliverAnswer {xs after : List Task} (watching : Watching xs)
    (heeded : ∃ y ∈ xs, y.isResume = true) (v : World σ) (a : Answer) {thread : Thread}
    (now : (v.deliverAnswer t a (xs ++ after)).thread? t = some thread) :
    ∃ ys, thread.tasks = ys ++ after ∧ Watching ys := by
  induction watching generalizing v with
  | nil => simp at heeded
  | @cons x xs watches _ below ih =>
    cases resumes : x.isResume with
    | true =>
      cases watches with
      | resumes =>
        rw [eq_of_thread?_setThread _ now]
        exact ⟨_ :: xs, rfl, .plain (.works rfl) rfl below⟩
      | works own =>
        rw [Task.isResume_of_subject own] at resumes
        cases resumes
      | enlists => cases resumes
      | awaited h =>
        have other : x.isResume = false := by cases x <;> first | rfl | cases h
        rw [other] at resumes
        cases resumes
    | false =>
      have there : ∃ y ∈ xs, y.isResume = true := by simpa [resumes] using heeded
      cases x
      case resume => cases resumes
      all_goals exact ih there _ now

omit [Strategy σ] in
theorem isOver_deliverAnswer (w : World σ) (t : ThreadId) (a : Answer) (tasks : List Task) :
    (w.deliverAnswer t a tasks).isOver = w.isOver := by
  simp only [isOver, Controller.isOver, outcome_deliverAnswer]

/-- What a monitor does leads to more of that. -/
private theorem watching_unasked {x : Task} {m : Nat} (own : x.subject? = some (.monitor m))
    (asks : x.request? = none) (discreet : x.interrupts = false) {xs after : List Task}
    (below : Watching xs) {outside : Bool}
    (found : w.thread? t = some ⟨x :: (xs ++ after), outside⟩) (moved : w.stepThread? t = some w')
    (running : w'.isOver = false) {thread : Thread} (now : w'.thread? t = some thread) :
    ∃ ys, thread.tasks = ys ++ after ∧ Watching ys := by
  obtain ⟨x', rest, outside', found', steps⟩ := of_stepThread? moved
  cases found.symm.trans found'
  rcases steps with ⟨ys, w₁, old, executed, _, rfl⟩ | ⟨a, w₁, executed, rfl⟩
  · have leads := w.errands_exec t asks (by rintro object operation rfl; cases own)
      (by cases x <;> first | rfl | cases own)
    rw [executed] at leads
    rw [w₁.eq_of_thread?_setThread now]
    exact ⟨ys ++ xs, (List.append_assoc _ _ _).symm,
      below.work fun y mem => (leads.2 y mem).2 _ own⟩
  · exfalso
    rw [isOver_deliverAnswer] at running
    rcases isOver_of_answer own executed with ended | feigns
    · rw [running] at ended
      cases ended
    · cases x <;> try exact feigns
      case perform speaker program =>
        cases speaker with
        | test | sleeper j => cases own
        | action c phase =>
          obtain rfl : c = .monitor m := Option.some.inj own
          cases program with
          | ask => cases asks
          | finish memory ending =>
            cases ending with
            | ok | panicked => exact feigns
            | failed failure => cases feigns.symm.trans discreet

/-- An action of a monitor goes on with the answer to what it asks for, or waits for it. -/
private theorem watching_asked (fit : w.Fit) (explores : w.explores = true) {m : Nat}
    {phase : Phase} {voice : Voice} {request : Request} {next : Answer → Program}
    (there : (w.core? (.monitor m)).isSome = true) (discreet : request.isPoint = false)
    {xs after : List Task} (below : Watching xs) {outside : Bool}
    (found : w.thread? t = some
      ⟨.perform (.action (.monitor m) phase) (.ask voice request next) :: (xs ++ after), outside⟩)
    (moved : w.stepThread? t = some w') {thread : Thread} (now : w'.thread? t = some thread) :
    ∃ ys, thread.tasks = ys ++ after ∧ Watching ys := by
  obtain ⟨core, there⟩ := Option.isSome_iff_exists.1 there
  obtain ⟨x', rest, outside', found', steps⟩ := of_stepThread? moved
  cases found.symm.trans found'
  rcases exec_ask found (.action (.monitor m) phase) voice request next with
    ⟨a, w₁, served, executed⟩ | ⟨tasks, w₁, outside', served, executed⟩
  all_goals rcases steps with ⟨ys, w₂, old, executed', _, rfl⟩ | ⟨_, _, executed', _⟩
  all_goals cases executed'.symm.trans executed
  all_goals rw [eq_of_thread?_setThread _ now]
  · exact ⟨_ :: xs, rfl, .plain (.works rfl) rfl below⟩
  · have unknown : voice = .outsider →
        (if (outside || voice == .outsider) = true then none else w.operation? t) = none := by
      rintro rfl
      simp
    rcases awaited_of_serve fit explores there unknown discreet served with
      ⟨x, rfl, awaited⟩ | ⟨x, y, rfl, first, second⟩
    · exact ⟨_, rfl, below.waits awaited m phase outside _ next⟩
    · exact ⟨_, rfl, below.waitsTwice first second m phase outside _ next⟩

private theorem watching_of_awaited {x : Task} (awaited : x.isAwaited = true) {ys : List Task}
    {v : World σ} (executed : w.exec t x = .go ys v) {xs : List Task}
    (heeded : ∃ y ∈ xs, y.isResume = true) (below : Watching xs) : Watching (ys ++ xs) := by
  cases x
  case notify typeTag event =>
    simp only [exec] at executed
    split at executed
    · cases executed
    · split at executed <;> cases executed
      exact .cons (.awaited rfl) (fun _ => heeded) below
  case deliver m event =>
    rcases w.delivery_works t m event with waits | ⟨zs, v, goes, works⟩
    · cases waits.symm.trans executed
    · cases goes.symm.trans executed
      exact below.work works
  case install d id =>
    rcases w.exec_install t d id with ⟨waits, _⟩ | ⟨r, answers⟩ | ⟨_, goes⟩
    · cases waits.symm.trans executed
    · cases answers.symm.trans executed
    · cases goes.symm.trans executed
      have enlists : Watching (.enlist w.monitors.length :: xs) := .plain .enlists rfl below
      have starts : ∀ y ∈ [Task.start (.monitor w.monitors.length) none,
          .drain w.monitors.length, .defaults w.monitors.length],
          y.subject? = some (.monitor w.monitors.length) := by
        simp [Task.subject?]
      exact enlists.work starts
  case readMonitor typeTag =>
    simp only [exec, readMonitor, withMonitor] at executed
    split at executed
    · cases executed
    · split at executed
      · cases executed
      · split at executed
        · split at executed <;> cases executed
        · cases executed
          exact below
  case listMonitors =>
    simp only [exec] at executed
    split at executed <;> cases executed
  case answer v => cases executed
  case awaitHalted id =>
    simp only [exec] at executed
    split at executed
    · cases executed
    · split at executed <;> cases executed
      exact below
  all_goals cases awaited

/-- What an action of a monitor waits for leads to an answer, or to the work of another monitor. -/
private theorem watching_awaited {x : Task} (awaited : x.isAwaited = true) {xs after : List Task}
    (heeded : ∃ y ∈ xs, y.isResume = true) (below : Watching xs) {outside : Bool}
    (found : w.thread? t = some ⟨x :: (xs ++ after), outside⟩) (moved : w.stepThread? t = some w')
    {thread : Thread} (now : w'.thread? t = some thread) :
    ∃ ys, thread.tasks = ys ++ after ∧ Watching ys := by
  obtain ⟨x', rest, outside', found', steps⟩ := of_stepThread? moved
  cases found.symm.trans found'
  rcases steps with ⟨ys, w₁, old, executed, _, rfl⟩ | ⟨a, w₁, executed, rfl⟩
  · rw [w₁.eq_of_thread?_setThread now]
    exact ⟨ys ++ xs, (List.append_assoc _ _ _).symm,
      watching_of_awaited awaited executed heeded below⟩
  · exact watching_deliverAnswer below heeded w₁ a now

/-- Monitors keep to themselves as long as the run goes on and none of them interrupts. -/
theorem watching_step (orderly : w.Orderly) (explores : w.explores = true) {x : Task}
    {xs after : List Task} (watching : Watching (x :: xs)) (discreet : x.interrupts = false)
    {outside : Bool} (found : w.thread? t = some ⟨x :: (xs ++ after), outside⟩)
    (moved : w.stepThread? t = some w') (running : w'.isOver = false) {thread : Thread}
    (now : w'.thread? t = some thread) : ∃ ys, thread.tasks = ys ++ after ∧ Watching ys := by
  cases watching with
  | cons watches heeded below =>
    cases watches with
    | awaited awaited => exact watching_awaited awaited (heeded awaited) below found moved now
    | resumes =>
      obtain ⟨x', rest, outside', found', steps⟩ := of_stepThread? moved
      cases found.symm.trans found'
      rcases steps with ⟨ys, w₁, old, executed, _, rfl⟩ | ⟨a, w₁, executed, _⟩ <;>
        simp only [exec, found] at executed <;> cases executed
      rw [eq_of_thread?_setThread _ now]
      exact ⟨_ :: xs, rfl, .plain (.works rfl) rfl below⟩
    | enlists =>
      obtain ⟨x', rest, outside', found', steps⟩ := of_stepThread? moved
      cases found.symm.trans found'
      rcases steps with ⟨ys, w₁, old, executed, _, rfl⟩ | ⟨a, w₁, executed, _⟩ <;> cases executed
      rw [eq_of_thread?_setThread _ now]
      exact ⟨xs, rfl, below⟩
    | @works x m own =>
      cases asks : x.request? with
      | none => exact watching_unasked own asks discreet below found moved running now
      | some request =>
        obtain ⟨speaker, voice, next, rfl⟩ := Task.of_request? asks
        have founded := orderly.founded t _ found _ List.mem_cons_self
        cases speaker with
        | test | sleeper j => cases own
        | action c phase =>
          obtain rfl : c = .monitor m := Option.some.inj own
          exact watching_asked orderly.fit explores founded discreet below found moved now

end World

end SteeredActors
