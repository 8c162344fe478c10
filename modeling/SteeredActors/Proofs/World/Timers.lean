import SteeredActors.Proofs.World.Privacy
import SteeredActors.Proofs.World.Watching

/-!
# What a timer does

The thread of a timer goes through a fixed course: it starts, remembers its setup, and then tries its
luck again and again until it is stopped or has fired for the only time. On its way it hands events to
monitors, whose work comes in front of its own, and it passes scheduling points; none of this changes
what it does next. Every stage of the course says how many firings may still follow.
-/

set_option autoImplicit false
set_option relaxedAutoImplicit false

namespace SteeredActors

variable {σ : Type}

/-! ## What is done in front of a timer's own work -/

/-- A task of a monitor or of the controller. -/
inductive Task.Foreign : Task → Prop where
  | watches {x : Task} (h : x.Watches) : Foreign x
  | forward (event : Event) : Foreign (.forward event)
  | point (kind : PointKind) : Foreign (.point kind)
  | pass (kind : PointKind) : Foreign (.pass kind)
  | turn : Foreign .turn
  | touch (object : Nat) (operation : SharedOperation) : Foreign (.touch object operation)

namespace Task.Foreign

variable {x : Task}

theorem of_monitor {m : Nat} (own : x.subject? = some (.monitor m)) : x.Foreign :=
  .watches (.works own)

theorem of_awaited (awaited : x.isAwaited = true) : x.Foreign := .watches (.awaited awaited)

theorem posting? (foreign : x.Foreign) : x.posting? = none := by
  cases foreign with
  | watches h => exact h.posting?
  | forward | point | pass | turn | touch => rfl

theorem worker? (foreign : x.Foreign) : x.worker? = none := by
  cases foreign with
  | watches h =>
    cases h with
    | works own => cases x <;> first | rfl | cases own
    | resumes | enlists => rfl
    | awaited h => cases x <;> first | rfl | cases h
  | forward | point | pass | turn | touch => rfl

theorem subject?_ne (foreign : x.Foreign) (i : Nat) : x.subject? ≠ some (.actor i) := by
  intro own
  cases foreign with
  | watches h =>
    cases h with
    | works other => cases own.symm.trans other
    | resumes | enlists => cases own
    | awaited h =>
      rw [Task.isAwaited_of_subject own] at h
      cases h
  | forward | point | pass | turn | touch => cases own

theorem not_minds (foreign : x.Foreign) (i : Nat) : ¬x.Minds (.actor i) := by
  rintro (own | ⟨j, _, own⟩)
  · exact foreign.subject?_ne i own
  · cases foreign.worker?.symm.trans own

end Task.Foreign

namespace World

variable [Strategy σ] {w : World σ} {t : ThreadId}

/-- An action of a monitor goes on, or waits for something that is foreign. -/
private theorem foreign_ask (fit : w.Fit) (explores : w.explores = true) {m : Nat} {core : Core}
    (there : w.core? (.monitor m) = some core) {thread : Thread}
    (found : w.thread? t = some thread) (phase : Phase) (voice : Voice) (request : Request)
    (next : Answer → Program) :
    (w.exec t (.perform (.action (.monitor m) phase) (.ask voice request next))).Leads
      (fun _ => True) Task.Foreign := by
  rcases exec_ask found (.action (.monitor m) phase) voice request next with
    ⟨a, v, _, executed⟩ | ⟨tasks, v, outside, served, executed⟩ <;> rw [executed]
  · exact ⟨trivial, by simpa using .of_monitor rfl⟩
  · have unknown : voice = .outsider →
        (if (thread.outside || voice == .outsider) = true then none else w.operation? t) = none := by
      rintro rfl
      simp
    have foreign : ∀ y ∈ tasks, y.Foreign := by
      cases discreet : request.isPoint with
      | false =>
        rcases awaited_of_serve fit explores there unknown discreet served with
          ⟨x, rfl, awaited⟩ | ⟨x, y, rfl, first, second⟩
        · simpa using .of_awaited awaited
        · simpa using ⟨.of_awaited first, .of_awaited second⟩
      | true =>
        cases request <;> try cases discreet
        · cases served
          simpa using ⟨.point _, .of_awaited rfl⟩
        · simp only [service, serve] at served
          split at served <;> cases served
          simpa using ⟨.point _, .touch _ _⟩
    refine ⟨trivial, List.forall_mem_append.2 ⟨foreign, ?_⟩⟩
    simpa using .watches .resumes

/-- What is foreign leads to what is foreign. -/
theorem foreign_exec (orderly : w.Orderly) (explores : w.explores = true) {x : Task}
    {rest : List Task} {outside : Bool} (found : w.thread? t = some ⟨x :: rest, outside⟩)
    (foreign : x.Foreign) : (w.exec t x).Leads (fun _ => True) Task.Foreign := by
  have none : ∀ v : World σ, (Move.go [] v).Leads (fun _ => True) Task.Foreign := by simp [Move.Leads]
  have followed : ∀ p, (w.follow p []).Leads (fun _ => True) Task.Foreign := by
    intro p
    cases p <;> simp [follow, unwind, Move.Leads]
  cases foreign with
  | forward event =>
    simp only [exec]
    split
    · trivial
    · refine ⟨trivial, fun y mem => ?_⟩
      obtain ⟨m, _, rfl⟩ := List.mem_map.1 mem
      exact .of_awaited rfl
  | point kind =>
    simp only [exec]
    split
    · trivial
    · split
      · exact none w
      · split
        · trivial
        · exact ⟨trivial, by simpa using ⟨.pass kind, .turn⟩⟩
  | pass kind =>
    simp only [exec]
    split <;> exact none _
  | turn =>
    simp only [exec]
    split
    · exact followed _
    · exact none w
  | touch object operation =>
    simp only [exec]
    split <;> trivial
  | watches watches =>
    cases watches with
    | resumes =>
      simp only [exec, found]
      exact ⟨trivial, by simpa using .of_monitor rfl⟩
    | enlists => exact none _
    | @works x m own =>
      cases asks : x.request? with
      | some request =>
        obtain ⟨speaker, voice, next, rfl⟩ := Task.of_request? asks
        have founded := orderly.founded t _ found _ List.mem_cons_self
        cases speaker with
        | test | sleeper j => cases own
        | action c phase =>
          obtain rfl : c = .monitor m := Option.some.inj own
          obtain ⟨core, there⟩ := Option.isSome_iff_exists.1 founded
          exact foreign_ask orderly.fit explores there found phase voice request next
      | none =>
        have leads := w.errands_exec t asks (by rintro object operation rfl; cases own)
          (by cases x <;> first | rfl | cases own)
        cases executed : w.exec t x with
        | wait => trivial
        | answer a v => trivial
        | go xs v =>
          rw [executed] at leads
          exact ⟨trivial, fun y mem => .of_monitor ((leads.2 y mem).2 _ own)⟩
    | awaited awaited =>
      cases x
      case notify typeTag event =>
        simp only [exec]
        split
        · trivial
        · split
          · exact ⟨trivial, by simpa using .of_awaited rfl⟩
          · trivial
      case deliver m event =>
        rcases w.delivery_works t m event with waits | ⟨xs, v, goes, works⟩
        · rw [waits]
          trivial
        · rw [goes]
          exact ⟨trivial, fun y mem => .of_monitor (works y mem)⟩
      case install d id =>
        rcases w.exec_install t d id with ⟨waits, _⟩ | ⟨r, answers⟩ | ⟨_, goes⟩
        · rw [waits]
          trivial
        · rw [answers]
          trivial
        · rw [goes]
          exact ⟨trivial, by simpa using ⟨.of_monitor rfl, .of_monitor rfl, .of_monitor rfl,
            .watches .enlists⟩⟩
      case listMonitors =>
        simp only [exec]
        split <;> trivial
      case readMonitor typeTag =>
        simp only [exec, readMonitor, withMonitor]
        split
        · trivial
        · split
          · trivial
          · split
            · split <;> trivial
            · exact none w
      case answer v => trivial
      case awaitHalted id =>
        simp only [exec]
        split
        · trivial
        · split
          · exact none w
          · trivial
      all_goals cases awaited

end World

namespace Timer

/-! ## The course of a timer -/

/-- The machine that timers are when decisions are explored. -/
def exploredMachine : Descriptor :=
  machine explored remember
    [(.default, .action tryLuck), (stop, .action fun o => haltSelf o.memory)]

/-- The only state of a timer, on its stack. -/
def standing : ActiveState := .ofState exploredMachine.initial none

/-- What a timer remembers. -/
def memory (info : TimerInfo) : Memory := { timer := some info }

/-- The interpreter of a timer before its start. -/
def asleep (info : TimerInfo) : Core := .new info.timer exploredMachine

/-- The interpreter of a timer that does not know its setup yet. -/
def entering (info : TimerInfo) : Core := { asleep info with stack := [standing] }

/-- The interpreter of a timer between its actions. -/
def ready (info : TimerInfo) (raised : Option Demand) : Core :=
  { entering info with raised, memory := memory info }

/-- The event that a timer is created with. -/
def beginning (info : TimerInfo) : Event := creation info.owner info.period info.periodic

/-- The demand of a timer to be halted. -/
def quitting : Demand := .event (.ofType .halt)

/-- A timer goes on after it has fired. -/
def fired (info : TimerInfo) : Answer → Program :=
  onSuccess (memory info) fun _ =>
    if info.periodic then .finish (memory info) .ok else haltSelf (memory info)

/-- A timer goes on after a choice. -/
def drawn (info : TimerInfo) : Answer → Program :=
  onSuccess (memory info) fun fires =>
    if fires.isTrue then .ask .own (.send info.owner (firing info)) (fired info)
    else .finish (memory info) .ok

/-- How many firings of a timer may still follow. -/
inductive Prospect where
  /-- None before its next selection. -/
  | waiting
  /-- One before its next selection. -/
  | firing
  /-- None at all. -/
  | spent
deriving DecidableEq

/-- What a timer is in after it has fired. -/
def Prospect.after (info : TimerInfo) : Prospect := if info.periodic then .waiting else .spent

/-- The program that a timer is in the middle of. -/
inductive Runs (info : TimerInfo) : Prospect → Core → Program → Prop where
  | remembers : Runs info .waiting (entering info) (.finish (memory info) .ok)
  | draws : Runs info .firing (ready info none) (.ask .own .randomBool (drawn info))
  | fires : Runs info .firing (ready info none)
      (.ask .own (.send info.owner (firing info)) (fired info))
  | rests : Runs info .waiting (ready info none) (.finish (memory info) .ok)
  | quits : Runs info .spent (ready info none) (haltSelf (memory info))
  | ends : Runs info .spent (ready info (some quitting)) (.finish (memory info) .ok)
  | fails (failure : Failure) :
      Runs info .spent (ready info none) (.finish (memory info) (.failed failure))

/-- The stages of a timer at position `i` whose owner is at position `j`: its interpreter, the event
that it starts with, and what its thread has to do. -/
inductive Stage (i j : Nat) (info : TimerInfo) :
    Prospect → Core → Option Event → List Task → Prop where
  /-- A timer that has not started. -/
  | begins {x : Task} (own : x.worker? = some i) :
      Stage i j info .waiting (asleep info) (some (beginning info)) [x]
  | starts : Stage i j info .waiting (asleep info) none
      [.start (.actor i) (some (beginning info)), .cycle i]
  | enters : Stage i j info .waiting (entering info) none
      [.invoke (.actor i) remember (some (beginning info)) .entry, .cycle i]
  | performs {prospect : Prospect} {core : Core} {program : Program} (phase : Phase)
      (runs : Runs info prospect core program) :
      Stage i j info prospect core none [.perform (.action (.actor i) phase) program, .cycle i]
  | cycles : Stage i j info .waiting (ready info none) none [.cycle i]
  | turns : Stage i j info .firing (ready info none) none
      [.handle (.actor i) (.ofType .default) none, .cycle i]
  | tries : Stage i j info .firing (ready info none) none
      [.invoke (.actor i) tryLuck (some (.ofType .default)) .action, .cycle i]
  | fires (phase : Phase) (outside shared : Bool) : Stage i j info .firing (ready info none) none
      [.post j (firing info), .point .send, .answer .null,
        .resume (.action (.actor i) phase) outside shared (fired info), .cycle i]
  | fired (phase : Phase) (outside shared : Bool) :
      Stage i j info (.after info) (ready info none) none
        [.resume (.action (.actor i) phase) outside shared (fired info), .cycle i]
  | stops : Stage i j info .spent (ready info none) none
      [.handle (.actor i) (.ofType stop) none, .cycle i]
  | quits : Stage i j info .spent (ready info none) none
      [.invoke (.actor i) (fun o => haltSelf o.memory) (some (.ofType stop)) .action, .cycle i]
  | obeys : Stage i j info .spent (ready info (some quitting)) none [.cycle i]
  | halts : Stage i j info .spent (ready info none) none
      [.handle (.actor i) (.ofType .halt) none, .cycle i]
  | halted {core : Core} (ceased : core.halted = true) : Stage i j info .spent core none [.cycle i]
  | retires (core : Core) (event : Option Event) (kind : PointKind) :
      Stage i j info .spent core event [.retire kind]
  | done (core : Core) (event : Option Event) : Stage i j info .spent core event []

/-- A timer goes on after an answer to its firing. -/
theorem runs_fired (info : TimerInfo) (a : Answer) :
    ∃ prospect, (prospect = .after info ∨ prospect = .spent) ∧
      Runs info prospect (ready info none) (fired info a) := by
  cases a with
  | error failure => exact ⟨_, .inr rfl, .fails failure⟩
  | ok v =>
    cases periodic : info.periodic with
    | true =>
      exact ⟨.waiting, .inl (by simp [Prospect.after, periodic]), by
        simpa [fired, onSuccess, periodic] using .rests⟩
    | false => exact ⟨.spent, .inr rfl, by simpa [fired, onSuccess, periodic] using .quits⟩

/-- A timer goes on after a choice. -/
theorem runs_drawn (info : TimerInfo) (a : Answer) :
    ∃ prospect, Runs info prospect (ready info none) (drawn info a) := by
  cases a with
  | error failure => exact ⟨.spent, .fails failure⟩
  | ok v =>
    cases fires : v.isTrue with
    | true => exact ⟨.firing, by simpa [drawn, onSuccess, fires] using .fires⟩
    | false => exact ⟨.waiting, by simpa [drawn, onSuccess, fires] using .rests⟩

/-! ### The state of a timer -/

theorem resolve_default :
    resolveEvent .default [standing] = .bound (.action tryLuck) [standing] := rfl

theorem resolve_stop :
    resolveEvent stop [standing] = .bound (.action fun o => haltSelf o.memory) [standing] := rfl

theorem resolve_halt : resolveEvent .halt [standing] = .exhausted := rfl

theorem hasDefault_standing : standing.hasDefault = true := rfl

theorem verdict_stop (policy : DequeuePolicy) :
    standing.verdict policy stop =
      match policy with
      | .firstNonDeferred => .take
      | .firstUnhandled => .skip := by
  cases policy <;> rfl

/-! ### Steps of the course -/

/-- What a timer may still do changes with a task. It gets to fire again only by selecting the
reserved event, and then its queue is empty if events are not left in it that could be handled. -/
inductive Turn (w : World σ) (i : Nat) (x : Task) : Prospect → Prospect → Prop where
  | keeps (prospect : Prospect) (unselected : w.selection? i x = none) : Turn w i x prospect prospect
  | misses (unselected : w.selection? i x = none) : Turn w i x .firing .waiting
  | ends (prospect : Prospect) : Turn w i x prospect .spent
  | tries (empty : w.policy = .firstNonDeferred → (w.mailbox i).queue = []) :
      Turn w i x .waiting .firing

/-- What doing a task of a timer comes to, with `rest` still to be done. -/
inductive Continues (w : World σ) (i j : Nat) (info : TimerInfo) (before : Prospect) (x : Task)
    (rest : List Task) : Move σ → Prop where
  | waits : Continues w i j info before x rest .wait
  | goes {xs base : List Task} {v : World σ} {core : Core} {event : Option Event} {after : Prospect}
      (front : List Task) (split : xs ++ rest = front ++ base) (foreign : ∀ y ∈ front, y.Foreign)
      (mind : v.mind? (.actor i) = some (core, event))
      (stage : Stage i j info after core event base) (turn : Turn w i x before after)
      (posts : ∀ p, x.posting? = some p →
        p = (j, firing info) ∧ before = .firing ∧ after = .after info) :
      Continues w i j info before x rest (.go xs v)
  | gives {a : Answer} {v : World σ} (mind : (v.mind? (.actor i)).isSome = true)
      (plain : ∀ y ∈ rest, y.isResume = false) (silent : x.posting? = none) :
      Continues w i j info before x rest (.answer a v)

section

variable {w : World σ} {i j : Nat} {info : TimerInfo} {before after : Prospect} {x : Task}

theorem Turn.of_firing (unselected : w.selection? i x = none) (after : Prospect) :
    Turn w i x .firing after := by
  cases after with
  | waiting => exact .misses unselected
  | firing => exact .keeps _ unselected
  | spent => exact .ends _

variable {xs rest : List Task} {v : World σ} {core : Core} {event : Option Event}

/-- A timer goes on with its own work and posts nothing. -/
private theorem Continues.of_stage {c : Core} (mind : v.mind? (.actor i) = some (c, event))
    (stage : Stage i j info after c event (xs ++ rest)) (turn : Turn w i x before after)
    (silent : x.posting? = none) : Continues w i j info before x rest (.go xs v) :=
  .goes [] rfl (by simp) mind stage turn fun p posts => nomatch silent.symm.trans posts

private theorem continues_passage
    (mind : w.mind? (.actor i) = some (asleep info, some (beginning info)))
    (own : x.worker? = some i) (unselected : w.selection? i x = none) (p : Passage) :
    Continues w i j info .waiting x [] (match p with
      | .passed => .go [.wake i] w
      | .waits => .wait
      | .canceled => .go [] (w.abandon i)) := by
  have silent : x.posting? = none := by cases x <;> first | rfl | cases own
  cases p with
  | passed => exact .of_stage mind (.begins rfl) (.keeps _ unselected) silent
  | waits => exact .waits
  | canceled =>
    exact .of_stage ((w.mind?_abandon _ i).trans mind) (.done _ _) (.ends _) silent

/-- A timer that has nothing on its stack has nothing to do. -/
private theorem continues_comeToRest {a : Actor}
    (mind : w.mind? (.actor i) = some (asleep info, some (beginning info)))
    (unselected : w.selection? i (.cycle i) = none) :
    Continues w i j info .waiting (.cycle i) [] (w.comeToRest i a) := by
  have kept := Eq.trans (World.mind?_modifyActor _ (.actor i) i
    (f := fun a => { a with pending := [] }) fun _ => ⟨rfl, rfl⟩)
    ((w.mind?_replyEach (.actor i) a.pending).trans mind)
  exact .goes [.pass .yield] rfl (by simpa using .pass _) kept (.begins rfl)
    (.keeps _ unselected) (by simp [Task.posting?])

variable [Strategy σ]

private theorem continues_begins (mind : w.mind? (.actor i) = some (asleep info, some (beginning info)))
    (own : x.worker? = some i) : Continues w i j info .waiting x [] (w.exec (.actor i) x) := by
  obtain ⟨a, there, core, event⟩ := World.actor_of_mind? mind
  have awake : a.core.halted = false := by rw [core]; rfl
  cases x <;> cases own
  case firstTurn | rest =>
    simp only [World.exec, World.withActor, there]
    exact continues_passage mind rfl rfl _
  case wake =>
    simp only [World.exec, World.wakeActor, World.withActor, there, awake,
      Bool.false_eq_true, if_false]
    split
    · rw [event]
      refine .of_stage ?_ .starts (.keeps _ rfl) rfl
      simp [World.mind?, World.modifyActor, there, core]
    · refine .of_stage ?_ (.begins rfl) (.keeps _ rfl) rfl
      simp [World.mind?, World.modifyActor, there, core, event]
  case cycle =>
    have unselected : w.selection? i (.cycle i) = none := by
      simp [World.selection?, there, core, asleep, Core.new]
    simp only [World.exec, World.cycleActor, World.withActor, there, World.obey, World.selectEvent,
      core, asleep, Core.new, Bool.false_eq_true, if_false]
    split
    · exact .gives (by simp [mind]) (by simp) rfl
    · exact continues_comeToRest mind unselected

private theorem continues_starts (mind : w.mind? (.actor i) = some (asleep info, none)) :
    Continues w i j info .waiting (.start (.actor i) (some (beginning info))) [.cycle i]
      (w.exec (.actor i) (.start (.actor i) (some (beginning info)))) := by
  simp only [World.exec, World.withCore, World.core?_of_mind? mind]
  refine .of_stage ?_ .enters (.keeps _ rfl) rfl
  rw [World.setStack, World.mind?_modifyCore_self, mind]
  rfl

/-- An action of a timer starts. -/
private theorem continues_invoke (mind : w.mind? (.actor i) = some (core, none)) {action : Action}
    {occasion : Option Event} {phase : Phase}
    (runs : Runs info before core (action ⟨core.id, core.stateName, occasion, core.memory⟩)) :
    Continues w i j info before (.invoke (.actor i) action occasion phase) [.cycle i]
      (w.exec (.actor i) (.invoke (.actor i) action occasion phase)) := by
  simp only [World.exec, World.invoke, World.withCore, World.core?_of_mind? mind]
  exact .of_stage mind (.performs phase runs) (.keeps _ rfl) rfl

/-- An action of a timer is over. -/
private theorem continues_finish (mind : w.mind? (.actor i) = some (core, none)) {phase : Phase}
    (next : Stage i j info before { core with memory := memory info } none [.cycle i]) :
    Continues w i j info before (.perform (.action (.actor i) phase) (.finish (memory info) .ok))
      [.cycle i]
      (w.exec (.actor i) (.perform (.action (.actor i) phase) (.finish (memory info) .ok))) := by
  simp only [World.exec, World.perform, World.finishAction]
  refine .of_stage ?_ next (.keeps _ rfl) rfl
  rw [World.mind?_modifyCore_self, mind]
  rfl

/-- An action of a timer fails only if its requests are refused. -/
private theorem continues_fails (mind : w.mind? (.actor i) = some (core, none)) {phase : Phase}
    (failure : Failure) :
    Continues w i j info .spent
      (.perform (.action (.actor i) phase) (.finish (memory info) (.failed failure))) [.cycle i]
      (w.exec (.actor i)
        (.perform (.action (.actor i) phase) (.finish (memory info) (.failed failure)))) := by
  have remembers : (w.modifyCore (.actor i) fun core =>
      { core with memory := memory info }).mind? (.actor i) =
        some ({ core with memory := memory info }, none) := by
    rw [World.mind?_modifyCore_self, mind]
    rfl
  have there := World.core?_of_mind? remembers
  simp only [World.exec, World.perform, World.finishAction]
  split
  · exact .gives (by simp [remembers]) (by simp [Task.isResume]) rfl
  · split
    · exact .gives (by simp [remembers]) (by simp [Task.isResume]) rfl
    · simp only [World.withCore, there]
      exact .gives (by simp [remembers]) (by simp [Task.isResume]) rfl

/-- A timer asks for a choice. -/
private theorem continues_draws (mind : w.mind? (.actor i) = some (ready info none, none))
    {outside : Bool} {phase : Phase}
    (found : w.thread? (.actor i) = some ⟨
      .perform (.action (.actor i) phase) (.ask .own .randomBool (drawn info)) :: rest, outside⟩) :
    Continues w i j info .firing
      (.perform (.action (.actor i) phase) (.ask .own .randomBool (drawn info))) [.cycle i]
      (w.exec (.actor i)
        (.perform (.action (.actor i) phase) (.ask .own .randomBool (drawn info)))) := by
  have goesOn : ∀ (a : Answer) (v : World σ), v.mind? (.actor i) = some (ready info none, none) →
      Continues w i j info .firing
        (.perform (.action (.actor i) phase) (.ask .own .randomBool (drawn info))) [.cycle i]
        (.go [.perform (.action (.actor i) phase) (drawn info a)] v) := by
    intro a v kept
    obtain ⟨after, runs⟩ := runs_drawn info a
    exact .of_stage kept (.performs phase runs) (.of_firing rfl after) rfl
  simp only [World.exec, World.perform, found, World.serve, World.randomBool]
  cases (w.controller.nextBool).1 with
  | none => exact goesOn _ _ (by simpa using mind)
  | some b => exact goesOn _ _ (by simpa using mind)

/-- A timer fires, unless that is refused. -/
private theorem continues_fires (mind : w.mind? (.actor i) = some (ready info none, none))
    (owner : w.actor? info.owner = some j) {outside : Bool} {phase : Phase}
    (found : w.thread? (.actor i) = some ⟨.perform (.action (.actor i) phase)
      (.ask .own (.send info.owner (firing info)) (fired info)) :: rest, outside⟩) :
    Continues w i j info .firing
      (.perform (.action (.actor i) phase)
        (.ask .own (.send info.owner (firing info)) (fired info))) [.cycle i]
      (w.exec (.actor i) (.perform (.action (.actor i) phase)
        (.ask .own (.send info.owner (firing info)) (fired info)))) := by
  have refused : ∀ failure : Failure, Continues w i j info .firing
      (.perform (.action (.actor i) phase)
        (.ask .own (.send info.owner (firing info)) (fired info))) [.cycle i]
      (.go [.perform (.action (.actor i) phase) (fired info (.error failure))] w) := fun failure =>
    .of_stage mind (.performs phase (.fails failure)) (.ends _) rfl
  simp only [World.exec, World.perform, found, World.serve]
  split
  · next served =>
    split at served
    · cases served
      exact refused _
    · rcases w.serves_send _ info.owner (firing info) with ⟨r, refuses⟩ | ⟨k, _, sends⟩
      · cases refuses.symm.trans served
        exact refused _
      · cases sends.symm.trans served
  · next served =>
    split at served
    · cases served
    · rcases w.serves_send _ info.owner (firing info) with ⟨r, refuses⟩ | ⟨k, target, sends⟩
      · cases refuses.symm.trans served
      · cases sends.symm.trans served
        obtain rfl := Option.some.inj (target.symm.trans owner)
        exact .goes [.forward (firing info)] rfl (by simpa using .forward _)
          ((w.mind?_setThread _ _ _).trans mind) (.fires phase _ _) (.keeps _ rfl)
          (by simp [Task.posting?])

/-- A timer asks to be halted. -/
private theorem continues_quits (mind : w.mind? (.actor i) = some (ready info none, none))
    {outside : Bool} {phase : Phase}
    (found : w.thread? (.actor i) = some ⟨
      .perform (.action (.actor i) phase) (haltSelf (memory info)) :: rest, outside⟩) :
    Continues w i j info .spent (.perform (.action (.actor i) phase) (haltSelf (memory info)))
      [.cycle i]
      (w.exec (.actor i) (.perform (.action (.actor i) phase) (haltSelf (memory info)))) := by
  simp only [World.exec, World.perform, haltSelf, found, World.serve, World.context?,
    World.core?_of_mind? mind, Option.map_some, World.serveDemand, World.demand]
  by_cases leaves : phase = .exit
  · rw [if_pos leaves]
    exact .of_stage (by simpa [World.failAssertion] using mind) (.performs phase (.fails _))
      (.keeps _ rfl) rfl
  · rw [if_neg leaves]
    refine .of_stage ?_ (.performs phase .ends) (.keeps _ rfl) rfl
    rw [World.mind?_modifyCore_self, mind]
    rfl

omit [Strategy σ] in
/-- What a timer selects: an event that stops it, or the reserved event. -/
private theorem dequeue_of_stops (policy : DequeuePolicy) (m : Mailbox)
    (stops : ∀ envelope ∈ m.queue, envelope = ⟨.ofType stop, none⟩) :
    (∃ mailbox, m.dequeue (standing.verdict policy) true =
        (.event ⟨.ofType stop, none⟩, [], mailbox)) ∨
      (∃ mailbox, m.dequeue (standing.verdict policy) true = (.default, [], mailbox)) ∧
        (policy = .firstNonDeferred → m.queue = []) := by
  have skipped : ∀ queue : List Envelope, (∀ envelope ∈ queue, envelope = ⟨.ofType stop, none⟩) →
      Mailbox.scan (standing.verdict .firstUnhandled) queue = ⟨none, [], queue⟩ := by
    intro queue
    induction queue with
    | nil => exact fun _ => rfl
    | cons envelope queue ih =>
      intro stops
      obtain ⟨rfl, below⟩ := List.forall_mem_cons.1 stops
      simp [Mailbox.scan, Event.ofType, verdict_stop, ih below]
  cases policy with
  | firstUnhandled =>
    refine .inr ⟨⟨{ m with queue := m.queue }, ?_⟩, fun same => by cases same⟩
    simp only [Mailbox.dequeue, skipped m.queue stops, if_true]
  | firstNonDeferred =>
    cases queued : m.queue with
    | nil =>
      refine .inr ⟨⟨{ m with queue := [] }, ?_⟩, fun _ => rfl⟩
      simp only [Mailbox.dequeue, queued, Mailbox.scan, if_true]
    | cons envelope queue =>
      obtain rfl := stops envelope (by simp [queued])
      refine .inl ⟨{ m with queue }, ?_⟩
      simp only [Mailbox.dequeue, queued, Mailbox.scan, Event.ofType, verdict_stop]

/-- A timer selects. -/
private theorem continues_cycles (mind : w.mind? (.actor i) = some (ready info none, none))
    (stops : ∀ envelope ∈ (w.mailbox i).queue, envelope = ⟨.ofType stop, none⟩) :
    Continues w i j info .waiting (.cycle i) [] (w.exec (.actor i) (.cycle i)) := by
  obtain ⟨a, there, core, _⟩ := World.actor_of_mind? mind
  have mailbox := World.mailbox_of_getElem? there
  rw [mailbox] at stops
  have kept : ∀ mailbox, (w.modifyActor i fun a => { a with mailbox }).mind? (.actor i) =
      some (ready info none, none) := fun mailbox =>
    Eq.trans (w.mind?_modifyActor (.actor i) i fun _ => ⟨rfl, rfl⟩) mind
  simp only [World.exec, World.cycleActor, World.withActor, there, World.obey, World.selectEvent,
    core, ready, entering, asleep, Core.new, Bool.false_eq_true, if_false, hasDefault_standing]
  split
  · exact .gives (by simp [mind]) (by simp) rfl
  · rcases dequeue_of_stops w.policy a.mailbox stops with ⟨m, found⟩ | ⟨⟨m, found⟩, empty⟩
    · simp only [found]
      exact .of_stage (kept m) .stops (.ends _) rfl
    · simp only [found]
      exact .goes [.point .defaultEvent] rfl (by simpa using .point _) (kept m) .turns
        (.tries (by rwa [mailbox])) (by simp [Task.posting?])

/-- A timer handles an event that its state is bound to. -/
private theorem continues_handle (mind : w.mind? (.actor i) = some (ready info none, none))
    {occasion : Event} {action : Action}
    (bound : resolveEvent occasion.type [standing] = .bound (.action action) [standing])
    (next : Stage i j info before (ready info none) none
      [.invoke (.actor i) action (some occasion) .action, .cycle i]) :
    Continues w i j info before (.handle (.actor i) occasion none) [.cycle i]
      (w.exec (.actor i) (.handle (.actor i) occasion none)) := by
  simp only [World.exec, World.handle, World.withCore, World.core?_of_mind? mind, ready, entering,
    asleep, Core.new, bound]
  refine .of_stage ?_ next (.keeps _ rfl) rfl
  rw [World.setStack, World.mind?_modifyCore_self, mind]
  rfl

/-- A timer that is to be halted halts. -/
private theorem continues_halts (mind : w.mind? (.actor i) = some (ready info none, none)) :
    Continues w i j info .spent (.handle (.actor i) (.ofType .halt) none) [.cycle i]
      (w.exec (.actor i) (.handle (.actor i) (.ofType .halt) none)) := by
  simp only [World.exec, World.handle, World.withCore, World.core?_of_mind? mind, ready, entering,
    asleep, Core.new, Event.ofType, resolve_halt, if_true]
  have emptied : (w.setStack (.actor i) []).mind? (.actor i) =
      some ({ ready info none with stack := [] }, none) := by
    rw [World.setStack, World.mind?_modifyCore_self, mind]
    rfl
  refine .of_stage (c := { ready info none with halted := true, stack := [], raised := none })
    ?_ (.halted rfl) (.ends _) rfl
  simp only [World.halt, World.core?_of_mind? emptied, ready, entering, asleep, Core.new,
    Bool.false_eq_true, if_false, World.mind?_observe, World.mind?_abandon,
    World.mind?_modifyCore_self, emptied]
  rfl

/-- A timer that wants to be halted handles that before anything else. -/
private theorem continues_obeys
    (mind : w.mind? (.actor i) = some (ready info (some quitting), none)) :
    Continues w i j info .spent (.cycle i) [] (w.exec (.actor i) (.cycle i)) := by
  obtain ⟨a, there, core, _⟩ := World.actor_of_mind? mind
  simp only [World.exec, World.cycleActor, World.withActor, there, World.obey, core, ready, entering,
    asleep, Core.new, Bool.false_eq_true, if_false]
  split
  · exact .gives (by simp [mind]) (by simp) rfl
  · refine .of_stage ?_ .halts (.ends _) rfl
    rw [World.mind?_modifyCore_self, mind]
    rfl

private theorem continues_halted (mind : w.mind? (.actor i) = some (core, none))
    (ceased : core.halted = true) :
    Continues w i j info .spent (.cycle i) [] (w.exec (.actor i) (.cycle i)) := by
  obtain ⟨a, there, rfl, _⟩ := World.actor_of_mind? mind
  simp only [World.exec, World.cycleActor, World.withActor, there, ceased, if_true]
  split
  · exact .gives (by simp [mind]) (by simp) rfl
  · exact .of_stage mind (.retires _ _ _) (.ends _) rfl

/-- What a timer does next is a stage of its course. -/
theorem Stage.continues (stage : Stage i j info before core event (x :: rest))
    (mind : w.mind? (.actor i) = some (core, event)) {outside : Bool} {below : List Task}
    (found : w.thread? (.actor i) = some ⟨x :: below, outside⟩)
    (owner : w.actor? info.owner = some j)
    (stops : ∀ envelope ∈ (w.mailbox i).queue, envelope = ⟨.ofType stop, none⟩) :
    Continues w i j info before x rest (w.exec (.actor i) x) := by
  cases stage with
  | begins own => exact continues_begins mind own
  | starts => exact continues_starts mind
  | enters => exact continues_invoke mind .remembers
  | performs phase runs =>
    cases runs with
    | remembers => exact continues_finish mind .cycles
    | draws => exact continues_draws mind found
    | fires => exact continues_fires mind owner found
    | rests => exact continues_finish mind .cycles
    | quits => exact continues_quits mind found
    | ends => exact continues_finish mind .obeys
    | fails failure => exact continues_fails mind failure
  | cycles => exact continues_cycles mind stops
  | turns => exact continues_handle mind resolve_default .tries
  | tries => exact continues_invoke mind .draws
  | fires phase outside shared =>
    refine .goes [.point .send, .answer .null] rfl ?_ ((w.mind?_enqueue _ _ _).trans mind)
      (.fired phase outside shared) (.of_firing rfl _) ?_
    · simpa using ⟨.point _, .of_awaited rfl⟩
    · rintro p ⟨⟩
      exact ⟨rfl, rfl, rfl⟩
  | fired phase outside shared =>
    obtain ⟨after, rest, runs⟩ := runs_fired info (.ok .null)
    simp only [World.exec, found]
    refine .of_stage ((w.mind?_setThread _ _ _).trans mind) (.performs phase runs) ?_ rfl
    rcases rest with rfl | rfl
    · exact .keeps _ rfl
    · exact .ends _
  | stops => exact continues_handle mind resolve_stop .quits
  | quits => exact continues_invoke mind .quits
  | obeys => exact continues_obeys mind
  | halts => exact continues_halts mind
  | halted ceased => exact continues_halted mind ceased
  | retires kind =>
    simp only [World.exec]
    split
    · exact .of_stage ((w.mind?_controller _ _).trans mind) (.done _ _) (.ends _) rfl
    · exact .of_stage mind (.done _ _) (.ends _) rfl

end

/-! ## Threads of timers -/

/-- What the thread of an actor has to do once an answer has come. -/
def unwound (a : Answer) : List Task → List Task
  | [] => [.retire .yield]
  | .resume speaker _ shared next :: rest =>
    .perform speaker (next (World.adaptAnswer shared a)) :: rest
  | _ :: rest => unwound a rest

theorem unwound_cons {x : Task} (plain : x.isResume = false) (a : Answer) (rest : List Task) :
    unwound a (x :: rest) = unwound a rest := by
  cases x <;> first | rfl | cases plain

theorem unwound_of_plain {rest : List Task} (plain : ∀ y ∈ rest, y.isResume = false) (a : Answer) :
    unwound a rest = [.retire .yield] := by
  induction rest with
  | nil => rfl
  | cons x rest ih =>
    obtain ⟨first, below⟩ := List.forall_mem_cons.1 plain
    rw [unwound_cons first, ih below]

/-- An answer is for a monitor, or it is for the timer. -/
theorem unwound_append {front : List Task} (foreign : ∀ y ∈ front, y.Foreign) (a : Answer)
    (base : List Task) :
    (∃ front', (∀ y ∈ front', y.Foreign) ∧ unwound a (front ++ base) = front' ++ base) ∨
      unwound a (front ++ base) = unwound a base := by
  induction front with
  | nil => exact .inr rfl
  | cons x front ih =>
    obtain ⟨first, below⟩ := List.forall_mem_cons.1 foreign
    cases resumes : x.isResume with
    | false =>
      rw [List.cons_append, unwound_cons resumes]
      exact ih below
    | true =>
      cases x <;> cases resumes
      cases first with
      | watches h =>
        cases h with
        | works own => cases own
        | awaited h => cases h
        | resumes => exact .inl ⟨_ :: front, List.forall_mem_cons.2 ⟨.of_monitor rfl, below⟩, rfl⟩

theorem thread?_deliverAnswer {w : World σ} {i : Nat} {old : Thread}
    (there : w.thread? (.actor i) = some old) (a : Answer) (tasks : List Task) :
    ∃ outside, (w.deliverAnswer (.actor i) a tasks).thread? (.actor i) =
      some ⟨unwound a tasks, outside⟩ := by
  induction tasks generalizing w with
  | nil =>
    have kept : (w.abandon i).thread? (.actor i) = some old := by simpa using there
    exact ⟨false, World.thread?_setThread _ kept _⟩
  | cons x rest ih =>
    cases x
    case resume speaker outside shared next => exact ⟨outside, World.thread?_setThread _ there _⟩
    all_goals exact ih there

section

variable {w w' : World σ} {i j : Nat} {info : TimerInfo} {before after : Prospect} {x : Task}
  {base : List Task} {core : Core} {event : Option Event}

/-- An answer ends what a timer does, or what it does in one of its actions. -/
theorem Stage.unwound (stage : Stage i j info before core event base)
    (unselected : w.selection? i x = none) (a : Answer) :
    ∃ after, Stage i j info after core event (unwound a base) ∧ Turn w i x before after := by
  have retired : ∃ after, Stage i j info after core event [.retire .yield] ∧ Turn w i x before after :=
    ⟨_, .retires _ _ _, .ends _⟩
  cases stage with
  | @begins y own => cases y <;> cases own <;> exact retired
  | fires phase outside shared =>
    obtain ⟨after, _, runs⟩ := runs_fired info (World.adaptAnswer shared a)
    exact ⟨after, .performs phase runs, .of_firing unselected after⟩
  | fired phase outside shared =>
    obtain ⟨after, rest, runs⟩ := runs_fired info (World.adaptAnswer shared a)
    refine ⟨after, .performs phase runs, ?_⟩
    rcases rest with rfl | rfl
    · exact .keeps _ unselected
    · exact .ends _
  | _ => exact retired

/-- A timer that may still fire has not halted and has work of its own. -/
theorem Stage.alive (stage : Stage i j info before core event base) (prospect : before ≠ .spent) :
    core.halted = false ∧ ∃ y ∈ base, y.worker? = some i := by
  cases stage with
  | begins own => exact ⟨rfl, _, List.mem_cons_self, own⟩
  | performs phase runs =>
    refine ⟨?_, .cycle i, by simp, rfl⟩
    cases runs <;> rfl
  | halted | retires | done => exact absurd rfl prospect
  | _ => exact ⟨rfl, .cycle i, by simp, rfl⟩

end

end Timer

/-- A timer at position `i` that was set up by the actor at position `j` is somewhere on its course. -/
def World.Times (w : World σ) (i j : Nat) (info : TimerInfo) (prospect : Timer.Prospect) : Prop :=
  ∃ core event front base outside, w.mind? (.actor i) = some (core, event) ∧
    w.thread? (.actor i) = some ⟨front ++ base, outside⟩ ∧ (∀ x ∈ front, x.Foreign) ∧
      Timer.Stage i j info prospect core event base

namespace World.Times

variable [Strategy σ] {w w' : World σ} {i j : Nat} {info : TimerInfo} {before : Timer.Prospect}

/-- A step of its thread takes a timer along its course. -/
theorem step (times : w.Times i j info before) (orderly : w.Orderly) (explores : w.explores = true)
    (owner : w.actor? info.owner = some j)
    (stops : ∀ envelope ∈ (w.mailbox i).queue, envelope = ⟨.ofType Timer.stop, none⟩)
    (moved : w.stepThread? (.actor i) = some w') :
    ∃ x rest outside after, w.thread? (.actor i) = some ⟨x :: rest, outside⟩ ∧
      w'.Times i j info after ∧ Timer.Turn w i x before after ∧
      ∀ p, x.posting? = some p →
        p = (j, Timer.firing info) ∧ before = .firing ∧ after = .after info := by
  obtain ⟨core, event, front, base, _, mind, found, foreign, stage⟩ := times
  obtain ⟨x, rest, outside, found', steps⟩ := of_stepThread? moved
  obtain ⟨split, rfl⟩ := Thread.mk.inj (Option.some.inj (found'.symm.trans found))
  refine ⟨x, rest, outside, ?_⟩
  have answered : ∀ {a : Answer} {v : World σ}, w.exec (.actor i) x = .answer a v →
      ∃ old, v.thread? (.actor i) = some old := by
    intro a v executed
    have leads := orderly.exec (.actor i) (orderly.founded _ _ found' x List.mem_cons_self)
    rw [executed] at leads
    obtain ⟨old, there, _⟩ := leads.kept _ _ found'
    exact ⟨old, there⟩
  cases front with
  | nil =>
    rw [List.nil_append] at split
    subst split
    have continues := stage.continues mind found' owner stops
    rcases steps with ⟨xs, v, old, executed, there, rfl⟩ | ⟨a, v, executed, rfl⟩
    · rw [executed] at continues
      cases continues with
      | @goes _ base' _ core' event' after front' split' foreign' mind' stage' turn posts =>
        rw [split']
        exact ⟨after, found', ⟨core', event', front', base', old.outside,
          (v.mind?_setThread _ _ _).trans mind', v.thread?_setThread there _, foreign', stage'⟩, turn,
          posts⟩
    · rw [executed] at continues
      cases continues with
      | gives mind' plain silent =>
        obtain ⟨⟨core', event'⟩, mind'⟩ := Option.isSome_iff_exists.1 mind'
        obtain ⟨outside', there⟩ := Timer.thread?_deliverAnswer (answered executed).choose_spec a rest
        rw [Timer.unwound_of_plain plain] at there
        exact ⟨.spent, found', ⟨core', event', [], _, outside', mind?_deliverAnswer mind' _ a rest,
          there, by simp, .retires _ _ _⟩, .ends _, fun p posts => nomatch silent.symm.trans posts⟩
  | cons y front =>
    rw [List.cons_append] at split
    obtain ⟨rfl, rfl⟩ := List.cons.inj split
    obtain ⟨first, below⟩ := List.forall_mem_cons.1 foreign
    have unselected : w.selection? i x = none := by
      have other := first.worker?
      cases x <;> first | rfl | cases other
    have silent : ∀ (after : Timer.Prospect) p, x.posting? = some p →
        p = (j, Timer.firing info) ∧ before = .firing ∧ after = .after info :=
      fun _ p posts => nomatch first.posting?.symm.trans posts
    have leads := foreign_exec orderly explores found' first
    have kept := mind?_exec mind (.actor i) (first.not_minds i) fun _ => rfl
    rcases steps with ⟨xs, v, old, executed, there, rfl⟩ | ⟨a, v, executed, rfl⟩
    · rw [executed] at leads kept
      refine ⟨before, found', ⟨core, event, xs ++ front, base, old.outside,
        (v.mind?_setThread _ _ _).trans kept, ?_, List.forall_mem_append.2 ⟨leads.2, below⟩, stage⟩,
        .keeps _ unselected, silent _⟩
      rw [v.thread?_setThread there, List.append_assoc]
    · rw [executed] at kept
      obtain ⟨outside', there⟩ := Timer.thread?_deliverAnswer (answered executed).choose_spec a (front ++ base)
      have mind' := mind?_deliverAnswer kept (.actor i) a (front ++ base)
      rcases Timer.unwound_append below a base with ⟨front', foreign', same⟩ | same
      · rw [same] at there
        exact ⟨before, found', ⟨core, event, front', base, outside', mind', there, foreign', stage⟩,
          .keeps _ unselected, silent _⟩
      · obtain ⟨after, next, turn⟩ := stage.unwound unselected a
        rw [same] at there
        exact ⟨after, found', ⟨core, event, [], _, outside', mind', there, by simp, next⟩, turn, silent _⟩

end World.Times

end SteeredActors
