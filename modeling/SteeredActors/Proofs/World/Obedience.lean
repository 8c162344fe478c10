import SteeredActors.Proofs.World.Raised

/-!
# Demands are met

Until an action of it fails, an interpreter does what its actions ask for. The first demand of an
action that may make demands is accepted. The interpreter keeps it until the action returns, does it
then before anything else, and does it once. Any other demand is rejected and ends the run.
-/

set_option autoImplicit false
set_option relaxedAutoImplicit false

namespace SteeredActors

variable {σ : Type}

namespace World

/-- What an interpreter has been asked for and has not done yet. -/
def raised? (w : World σ) (c : Subject) : Option Demand := (w.core? c).bind (·.raised)

/-- An action is about to make a demand, one that its interpreter knows how to meet. -/
structure Demands (w : World σ) (c : Subject) (phase : Phase) (d : Demand)
    (next : Answer → Program) : Prop where
  asks : ∃ request, request.demand? = some d ∧
    w.next? = some (.perform (.action c phase) (.ask .own request next))
  allowed : ∃ core, w.core? c = some core ∧ d.Allowed core.descriptor

/-- The demand of an action has been accepted, and the action goes on. -/
structure Accepts (w : World σ) (c : Subject) (phase : Phase) (d : Demand)
    (next : Answer → Program) : Prop where
  running : w.isOver = false
  goesOn : w.next? = some (.perform (.action c phase) (next (.ok .null)))
  raised : w.raised? c = some d

/-- The demand of an action is rejected: nothing else is raised, and a failed assertion ends the run. -/
structure Rejects (w w' : World σ) (c : Subject) : Prop where
  kept : w'.raised? c = w.raised? c
  ended : ∃ report, w'.controller.outcome = some (.bugFound report) ∧
    report.kind = .assertionViolation

/-- While its action runs an interpreter does nothing else, and nothing can be delivered to it. -/
structure Occupied [Strategy σ] (w : World σ) (c : Subject) (phase : Phase) : Prop where
  busy : ∀ x, w.next? = some x → x.Minds c → ∃ program, x = .perform (.action c phase) program
  shut : ∀ m event, c = .monitor m → w.next? = some (.deliver m event) → w.step? = none

/-- In its round an interpreter begins with what was raised, and nothing is raised any more. -/
structure Obeys (w w' : World σ) (c : Subject) (d : Demand) : Prop where
  turn : w.next? = some c.round
  raised : w.raised? c = some d
  emptied : w'.raised? c = none
  tasks : ∃ core rest outside, w.core? c = some core ∧
    w.thread? (threadOf w.controller.scheduled) = some ⟨c.round :: rest, outside⟩ ∧
    w'.thread? (threadOf w'.controller.scheduled) =
      some ⟨obedience c core d ++ c.round :: rest, outside⟩

section

variable {w v w' : World σ} {c : Subject} {x : Task} {xs rest : List Task} {phase : Phase}
  {d : Demand} {core : Core} {outside : Bool} {next : Answer → Program}

theorem raised?_eq_some : w.raised? c = some d ↔ ∃ core, w.core? c = some core ∧ core.raised = some d :=
  Option.bind_eq_some_iff

theorem raised?_of_core (found : w.core? c = some core) : w.raised? c = core.raised := by
  simp [raised?, found]

/-- An action runs that has made a demand. -/
structure Holds (w : World σ) (c : Subject) (phase : Phase) (d : Demand) : Prop where
  runs : ∃ y, w.Pursues c y ∧ y.phase? = some phase
  raised : w.raised? c = some d

/-- What an action has asked for is raised until the action returns. -/
theorem Holds.step (holds : w.Holds c phase d) (composed : w.Composed)
    (affects : w.Affects w' c x) : w'.Holds c phase d ∨
      ∃ memory ending, x = .perform (.action c phase) (.finish memory ending) := by
  obtain ⟨y, pursues, speaks⟩ := holds.runs
  obtain ⟨core, found, raised⟩ := raised?_eq_some.1 holds.raised
  cases affects with
  | spares apart same known =>
    rcases known with known | ⟨absent, _⟩
    · refine .inl ⟨⟨y, (same y).2 pursues, speaks⟩, ?_⟩
      rw [raised?, known]
      exact holds.raised
    · cases absent.symm.trans found
  | answers apart waits goes known =>
    obtain rfl := composed.pursues_unique waits pursues
    refine .inl ⟨⟨_, goes, speaks⟩, ?_⟩
    rw [raised?, known]
    exact holds.raised
  | begins apart rests => exact absurd pursues (rests y)
  | drops apart was =>
    obtain rfl := composed.pursues_unique was pursues
    cases speaks
  | @does xs rest core₁ core' begun own comes below yields found' now stirs next goesOn =>
    obtain rfl := composed.pursues_unique own pursues
    obtain rfl := Option.some.inj (found'.symm.trans found)
    rcases goesOn phase speaks with returns | ⟨z, mem, mine, _⟩
    · exact .inr returns
    · left
      cases first : c.first? xs with
      | none => exact absurd mine (Subject.first?_eq_none.1 first z mem)
      | some z' =>
        have mine' := Subject.begun?_of_first? first
        have speaks' : z'.phase? = some phase := by
          rcases yields.of_begun (Subject.mem_of_first? first) mine' with
            ⟨_, same | ⟨a, e, p, rfl⟩⟩ | ⟨_, ⟨i, _, rfl⟩ | ⟨m, e, _, rfl⟩ | ⟨m, d, id, _, rfl⟩⟩
          · exact same.trans speaks
          all_goals cases speaks
        refine ⟨⟨z', (next z').2 (Subject.first?_append_of_some first), speaks'⟩, ?_⟩
        rw [raised?_of_core now]
        cases stirs with
        | keeps _ same => rw [same, raised]
        | obeys => cases (Task.phase?_round c).symm.trans speaks
        | asks _ _ _ free => cases free.symm.trans raised
        | halts => cases speaks

/-- What the slot of an interpreter holds that is about to do something. -/
theorem Slotted.of_next {asked : Prop} (slotted : w.Slotted c asked) (composed : w.Composed)
    (next : w.next? = some x) (begun : x.begun? = some c) :
    ∃ core, w.core? c = some core ∧ core.Slotted asked x := by
  obtain ⟨rest, outside, found⟩ := thread_of_next? next
  have pursues := (composed.pursues_of_begun (y := .turn) found begun).1
  obtain ⟨core, there⟩ := composed.core_of_pursues pursues
  exact ⟨core, there, slotted.busy x core pursues there⟩

/-- Something is raised only because an action has made a demand that is accepted. -/
theorem Affects.of_raised (affects : w.Affects w' c x) (raised : w'.raised? c = some d) :
    w.raised? c = some d ∨ ∃ phase request next core,
      x = .perform (.action c phase) (.ask .own request next) ∧ request.demand? = some d ∧
        w.core? c = some core ∧ d.Allowed core.descriptor ∧ phase ≠ .exit ∧ core.raised = none := by
  obtain ⟨core', now, full⟩ := raised?_eq_some.1 raised
  have before {core} (known : w.core? c = some core) (same : core'.raised = core.raised) :
      w.raised? c = some d := by rw [raised?_of_core known, ← same, full]
  cases affects with
  | spares _ _ known =>
    rcases known with known | ⟨_, fresh⟩
    · exact .inl (before (known.symm.trans now) rfl)
    · cases (fresh core' now).symm.trans full
  | answers _ _ _ known | drops _ _ _ known => exact .inl (before (known.symm.trans now) rfl)
  | begins _ _ _ found _ known =>
    obtain rfl := Option.some.inj (found.symm.trans now)
    rcases known with known | empty
    · exact .inl (before known rfl)
    · cases empty.symm.trans full
  | @does _ _ core _ _ _ _ _ _ found now' stirs _ _ =>
    obtain rfl := Option.some.inj (now'.symm.trans now)
    cases stirs with
    | keeps _ same => exact .inl (before found same)
    | obeys | halts => cases full
    | @asks phase request next d' asks allowed may free =>
      obtain rfl := Option.some.inj full
      exact .inr ⟨phase, request, next, core, rfl, asks, found, allowed, may, free⟩

theorem Accepts.holds (accepts : w.Accepts c phase d next) (composed : w.Composed) :
    w.Holds c phase d := by
  obtain ⟨rest, outside, found⟩ := thread_of_next? accepts.goesOn
  exact ⟨⟨_, (composed.pursues_of_begun (y := .turn) found rfl).1, rfl⟩, accepts.raised⟩

theorem thread?_report (t : ThreadId) (report : BugReport) :
    (w.report report).thread? t = w.thread? t := by
  cases t <;> rfl

variable [Strategy σ]

/-- Who has been asked for something is occupied by the action. -/
theorem Holds.occupied (holds : w.Holds c phase d) (composed : w.Composed)
    (explores : w.explores = true) (running : w.isOver = false) : w.Occupied c phase := by
  obtain ⟨y, pursues, speaks⟩ := holds.runs
  constructor
  · intro x next minds
    obtain ⟨rest, outside, found⟩ := thread_of_next? next
    have own : x.begun? = some c := by
      rcases minds with own | ⟨i, rfl, works⟩
      · exact Task.begun?_of_subject? own
      · -- an actor that is about to begin or to rest has nothing else to do
        by_contra apart
        have mine := composed.staffed.own _ _ found x List.mem_cons_self i works
        rw [mine] at found
        obtain ⟨thread, found', first⟩ := composed.own_of_pursues pursues
        obtain rfl := Option.some.inj (found.symm.trans found')
        rw [Subject.first?_cons_of_ne apart] at first
        have last : x.Comes (rest.head?.or none) := (composed.comes _ _ found).1
        have nothing : rest.head?.or none = none := by
          cases x <;> cases works
          all_goals exact last
        obtain rfl : rest = [] := by simpa using nothing
        cases first
    obtain rfl := composed.pursues_unique (composed.pursues_of_begun (y := x) found own).1 pursues
    cases x <;> try cases speaks
    case perform speaker program =>
      cases speaker <;> cases speaks
      cases own
      exact ⟨program, rfl⟩
    case resume =>
      rcases minds with works | ⟨i, _, works⟩ <;> cases works
  · rintro m event rfl next
    obtain ⟨rest, outside, found⟩ := thread_of_next? next
    have listed := composed.exclusive.listed _ _ found m event List.mem_cons_self
    have busied := (composed.taken_of_pursues pursues).resolve_right listed.not_starting
    obtain ⟨monitor, there, busy⟩ : ∃ monitor, w.monitors[m]? = some monitor ∧
        monitor.busy = true := by simpa [World.busied] using busied
    rw [step?_of_running explores running]
    exact stepThread?_wait found (by simp [exec, deliver, withMonitor, there, busy])

/-- In its round an interpreter does what was raised. -/
theorem exec_round (t : ThreadId) (running : w.isOver = false) (found : w.core? c = some core)
    (awake : core.halted = false) (raised : core.raised = some d) :
    w.exec t c.round = .go (obedience c core d ++ [c.round])
      (w.modifyCore c fun core => { core with raised := none }) := by
  cases c with
  | actor i =>
    obtain ⟨a, there, rfl⟩ := Option.map_eq_some_iff.1 found
    simp [Subject.round, exec, cycleActor, withActor, obey, running, there, awake, raised]
  | monitor m =>
    obtain ⟨a, there, rfl⟩ := Option.map_eq_some_iff.1 found
    simp [Subject.round, exec, drainMonitor, withMonitor, obey, there, awake, raised]

end

end World

namespace Experiment

variable [Strategy σ] {e : Experiment} {ids : Allocator} {s : σ} {c : Subject} {phase : Phase}
  {d : Demand} {next : Answer → Program} {core : Core} {x : Task} {xs rest : List Task}
  {outside : Bool} {v : World σ} {k n p q : Nat}

/-- What is left when the holder of the turn does something that leaves its thread alone. -/
private theorem iterate_succ_of_exec (running : (e.iterate n ids s).isOver = false)
    (found : (e.iterate n ids s).thread? (World.threadOf (e.iterate n ids s).controller.scheduled) =
      some ⟨x :: rest, outside⟩)
    (executed : (e.iterate n ids s).exec
      (World.threadOf (e.iterate n ids s).controller.scheduled) x = .go xs v)
    (kept : ∀ t, v.thread? t = (e.iterate n ids s).thread? t) :
    (e.iterate (n + 1) ids s).controller = v.controller ∧
      (∀ c, (e.iterate (n + 1) ids s).core? c = v.core? c) ∧
      (e.iterate (n + 1) ids s).thread?
        (World.threadOf (e.iterate n ids s).controller.scheduled) = some ⟨xs ++ rest, outside⟩ := by
  have there := (kept _).trans found
  rw [iterate_succ, World.step?_of_running (e.sound running).explores running,
    World.stepThread?_cons found, executed]
  simp only [there, Option.getD_some]
  exact ⟨World.controller_setThread v _ _, fun c => World.core?_setThread v _ _ c,
    v.thread?_setThread there _⟩

/-- A demand is accepted, or it is rejected. -/
theorem accepts_or_rejects (running : (e.iterate n ids s).isOver = false)
    (demands : (e.iterate n ids s).Demands c phase d next) :
    (phase ≠ .exit ∧ (e.iterate n ids s).raised? c = none) ∧
        (e.iterate (n + 1) ids s).Accepts c phase d next ∨
      (phase = .exit ∨ (e.iterate n ids s).raised? c ≠ none) ∧
        (e.iterate n ids s).Rejects (e.iterate (n + 1) ids s) c := by
  obtain ⟨⟨request, asks, next'⟩, core, there, allowed⟩ := demands
  obtain ⟨rest, outside, found⟩ := World.thread_of_next? next'
  have served (caller : Option Nat) :
      (e.iterate n ids s).serve caller (.action c phase) .own request =
        (e.iterate n ids s).demand c phase core d := by
    rw [World.serve_of_demand asks, World.context?_of_action there,
      World.serveDemand_of_allowed allowed]
  rw [World.raised?_of_core there]
  rcases World.exec_ask found (.action c phase) .own request next with
    ⟨a, v, answered, executed⟩ | ⟨tasks, v, _, answered, _⟩ <;>
    rw [World.service, served] at answered <;>
    rcases World.demand_cases (e.iterate n ids s) c phase core d with
      ⟨may, accepted⟩ | ⟨cause, message, r, refused⟩
  · cases accepted.symm.trans answered
    obtain ⟨controller, cores, thread⟩ := iterate_succ_of_exec running found executed
      fun t => World.thread?_modifyCore _ t c _
    rw [World.controller_modifyCore] at controller
    refine .inl ⟨may, ?_, World.next?_of_turn (by rw [controller]) thread, ?_⟩
    · rw [World.isOver, controller]
      exact running
    · rw [World.raised?_of_core ((cores c).trans (World.core?_modifyCore there _))]
  · cases refused.symm.trans answered
    obtain ⟨controller, cores, _⟩ := iterate_succ_of_exec running found executed
      fun t => World.thread?_report t _
    have ended := World.outcome_report running (.assertion message (some core.id))
    rw [← controller] at ended
    refine .inr ⟨cause, ?_, _, ended, rfl⟩
    rw [World.raised?, cores]
    cases c <;> rfl
  · cases accepted.symm.trans answered
  · cases refused.symm.trans answered

/-! ## From the demand to the end of the action -/

/-- An action goes on with its demand, or it has returned in between. -/
private theorem holds_or_returns (accepted : e.registry.Accepted)
    (running : (e.iterate n ids s).isOver = false)
    (sound : ∀ k < n, ∀ x, (e.iterate k ids s).next? = some x → x.fails c = false)
    (holds : (e.iterate (k + 1) ids s).Holds c phase d) (later : k < n) :
    (∀ j, k < j → j ≤ n → (e.iterate j ids s).Holds c phase d) ∨
      ∃ p, k < p ∧ p < n ∧ (∀ j, k < j → j ≤ p → (e.iterate j ids s).Holds c phase d) ∧
        ∃ memory ending,
          (e.iterate p ids s).next? = some (.perform (.action c phase) (.finish memory ending)) := by
  induction n with
  | zero => omega
  | succ n ih =>
    rcases Nat.lt_succ_iff_lt_or_eq.1 later with earlier | rfl
    · have before := e.running_of_succ ids s running
      rcases ih before (fun k lt => sound k (Nat.lt_succ_of_lt lt)) earlier with
        held | ⟨p, after, lt, returned⟩
      · have still : (e.iterate (n + 1) ids s).Holds c phase d ∨ ∃ memory ending,
            (e.iterate n ids s).next? =
              some (.perform (.action c phase) (.finish memory ending)) := by
          cases moved : (e.iterate n ids s).step? with
          | none =>
            rw [iterate_succ, moved, Option.getD_none]
            exact .inl (held n earlier (Nat.le_refl n))
          | some w =>
            obtain ⟨x, next, affects⟩ :=
              affects_of_step? accepted running moved (sound n (Nat.lt_succ_self n))
            rcases (held n earlier (Nat.le_refl n)).step (e.composed accepted ids s n) affects with
              holds | ⟨memory, ending, rfl⟩
            · exact .inl holds
            · exact .inr ⟨memory, ending, next⟩
        rcases still with holds | returns
        · left
          intro j after le
          rcases Nat.le_succ_iff.1 le with le | rfl
          · exact held j after le
          · exact holds
        · exact .inr ⟨n, earlier, Nat.lt_succ_self n, held, returns⟩
      · exact .inr ⟨p, after, Nat.lt_succ_of_lt lt, returned⟩
    · left
      intro j after le
      obtain rfl : j = k + 1 := by omega
      exact holds

/-! ## From the end of the action to what was raised -/

/-- The holder of the turn is about to go on with these tasks, and so is an interpreter. -/
private structure Stands (e : Experiment) (ids : Allocator) (s : σ) (n : Nat) (c : Subject)
    (core : Core) (tasks : List Task) (outside : Bool) : Prop where
  running : (e.iterate n ids s).isOver = false
  found : (e.iterate n ids s).thread? (World.threadOf (e.iterate n ids s).controller.scheduled) =
    some ⟨tasks, outside⟩
  there : (e.iterate n ids s).core? c = some core

/-- One task more is done. -/
private theorem Stands.succ {core' : Core} (stands : Stands e ids s n c core (x :: rest) outside)
    (executed : (e.iterate n ids s).exec
      (World.threadOf (e.iterate n ids s).controller.scheduled) x = .go xs v)
    (kept : ∀ t, v.thread? t = (e.iterate n ids s).thread? t)
    (turn : v.controller = (e.iterate n ids s).controller) (known : v.core? c = some core') :
    Stands e ids s (n + 1) c core' (xs ++ rest) outside := by
  obtain ⟨controller, cores, thread⟩ :=
    iterate_succ_of_exec stands.running stands.found executed kept
  rw [turn] at controller
  refine ⟨?_, ?_, (cores c).trans known⟩
  · rw [World.isOver, controller]
    exact stands.running
  · rw [controller]
    exact thread

private theorem Stands.finish {memory : Memory} (stands : Stands e ids s n c core
    (.perform (.action c phase) (.finish memory .ok) :: rest) outside) :
    Stands e ids s (n + 1) c { core with memory } rest outside :=
  stands.succ (show _ = Move.go [] _ from rfl) (fun t => World.thread?_modifyCore _ t c _)
    (World.controller_modifyCore _ c _) (World.core?_modifyCore stands.there _)

private theorem Stands.settle {i r : Nat} {handled : Bool}
    (stands : Stands e ids s n (.actor i) core (.settle i r handled :: rest) outside)
    (awake : core.halted = false) : Stands e ids s (n + 1) (.actor i) core rest outside := by
  obtain ⟨a, known, rfl⟩ := Option.map_eq_some_iff.1 stands.there
  have executed : (e.iterate n ids s).exec
      (World.threadOf (e.iterate n ids s).controller.scheduled) (.settle i r handled) = .go []
        ((e.iterate n ids s).modifyActor i fun a =>
          { a with pending := a.pending ++ [(r, handled)] }) := by
    simp [World.exec, World.withActor, known, awake]
  refine stands.succ executed (fun t => World.thread?_modifyActor _ t i fun _ => rfl)
    (World.controller_modifyActor _ i _) ((World.core?_modifyActor _ i ?_ _).trans stands.there)
  exact fun _ => rfl

private theorem Stands.obeys (stands : Stands e ids s n c core (c.round :: rest) outside)
    (awake : core.halted = false) (raised : core.raised = some d) :
    (e.iterate n ids s).Obeys (e.iterate (n + 1) ids s) c d := by
  have after := stands.succ (World.exec_round _ stands.running stands.there awake raised)
    (fun t => World.thread?_modifyCore _ t c _) (World.controller_modifyCore _ c _)
    (World.core?_modifyCore stands.there _)
  refine ⟨World.next?_of_thread stands.found, (World.raised?_of_core stands.there).trans raised,
    World.raised?_of_core after.there, core, rest, outside, stands.there, stands.found, ?_⟩
  rw [after.found, List.append_assoc, List.singleton_append]

/-- What was raised is done right after the action has returned, or once its event is settled. -/
private theorem obeys_of_returns (accepted : e.registry.Accepted) {asked : Prop}
    (running : (e.iterate p ids s).isOver = false) (slotted : (e.iterate p ids s).Slotted c asked)
    (raised : (e.iterate p ids s).raised? c = some d) {memory : Memory}
    (returns : (e.iterate p ids s).next? =
      some (.perform (.action c phase) (.finish memory .ok))) :
    ∃ q, (q = p + 1 ∨ q = p + 2 ∧ ∃ i r handled, c = .actor i ∧
        (e.iterate (p + 1) ids s).next? = some (.settle i r handled)) ∧
      (e.iterate q ids s).Obeys (e.iterate (q + 1) ids s) c d := by
  have composed := e.composed accepted ids s p
  obtain ⟨core, there, slotted⟩ := slotted.of_next composed returns rfl
  have full : core.raised = some d := (World.raised?_of_core there).symm.trans raised
  obtain ⟨rest, outside, found⟩ := World.thread_of_next? returns
  have awake : core.halted = false := slotted.awake rfl
  have may : phase ≠ .exit := by
    rintro rfl
    cases (slotted.exits rfl).symm.trans full
  have linked := composed.comes _ _ found
  have closes : Task.Closes c (rest.head?.or none) := by
    have returns : Task.Returns c phase (rest.head?.or none) := linked.1
    rwa [Task.Returns, if_neg may] at returns
  have finished := Stands.finish ⟨running, found, there⟩
  rw [Option.or_none] at closes
  rcases closes with round | ⟨i, r, handled, rfl, settles⟩
  · obtain ⟨below, rfl⟩ := List.head?_eq_some_iff.1 round
    exact ⟨p + 1, .inl rfl, finished.obeys awake full⟩
  · obtain ⟨below, rfl⟩ := List.head?_eq_some_iff.1 settles
    have cycles : below.head?.or none = some (.cycle i) := linked.2.1
    rw [Option.or_none] at cycles
    obtain ⟨last, rfl⟩ := List.head?_eq_some_iff.1 cycles
    exact ⟨p + 2, .inr ⟨rfl, i, r, handled, rfl, World.next?_of_thread finished.found⟩,
      (finished.settle awake).obeys (c := .actor i) awake full⟩

/-! ## Whole runs -/

variable (e ids s)

/-- From one moment to another an action goes on that has made a demand. -/
def Pending (c : Subject) (phase : Phase) (d : Demand) (k n : Nat) : Prop :=
  ∀ j, k < j → j ≤ n →
    (e.iterate j ids s).raised? c = some d ∧ (e.iterate j ids s).Occupied c phase

/-- The action that has made a demand at one moment returns at another one. Then the interpreter does
what was raised, and before that it settles at most the event that it has handled. -/
structure Met (c : Subject) (phase : Phase) (d : Demand) (k p q : Nat) : Prop where
  later : k < p
  pending : e.Pending ids s c phase d k p
  returns : ∃ memory,
    (e.iterate p ids s).next? = some (.perform (.action c phase) (.finish memory .ok))
  soon : q = p + 1 ∨ q = p + 2 ∧ ∃ i r handled, c = .actor i ∧
    (e.iterate (p + 1) ids s).next? = some (.settle i r handled)
  obeys : (e.iterate q ids s).Obeys (e.iterate (q + 1) ids s) c d

/-- What an interpreter does with the demands of its actions, at a moment of a run. -/
structure Obedient (c : Subject) (n : Nat) : Prop where
  /-- Nothing is raised when an action starts. -/
  starts : ∀ action event phase,
    (e.iterate n ids s).next? = some (.invoke c action event phase) →
      (e.iterate n ids s).raised? c = none
  /-- A demand is accepted if it is the first one of an action that may make demands. -/
  accepts : ∀ phase d next, (e.iterate n ids s).Demands c phase d next →
    ((e.iterate (n + 1) ids s).Accepts c phase d next ↔ phase ≠ .exit ∧ ¬e.HasAsked ids s c n)
  /-- Any other demand is rejected. -/
  rejects : ∀ phase d next, (e.iterate n ids s).Demands c phase d next →
    ¬(e.iterate (n + 1) ids s).Accepts c phase d next →
      (e.iterate n ids s).Rejects (e.iterate (n + 1) ids s) c
  /-- A demand that was accepted is met once, unless its action still runs. -/
  met : ∀ k < n, ∀ phase d next, (e.iterate k ids s).Demands c phase d next →
    (e.iterate (k + 1) ids s).Accepts c phase d next →
      e.Pending ids s c phase d k n ∨ ∃! q, ∃ p < n, e.Met ids s c phase d k p q
  /-- Nothing else is done instead of a demand. -/
  only : ∀ d, (e.iterate n ids s).next? = some c.round → (e.iterate n ids s).raised? c = some d →
    ∃ k p phase next, (e.iterate k ids s).Demands c phase d next ∧
      (e.iterate (k + 1) ids s).Accepts c phase d next ∧ e.Met ids s c phase d k p n

variable {e ids s} {p' q' : Nat}

theorem minds_round (c : Subject) : c.round.Minds c := by
  cases c with
  | actor i => exact .inr ⟨i, rfl, rfl⟩
  | monitor m => exact .inl rfl

/-- An action that goes on does not settle anything. -/
private theorem Pending.not_round (pending : e.Pending ids s c phase d k n) (later : k < n) :
    (e.iterate n ids s).next? ≠ some c.round ∧
      ∀ i r handled, c = .actor i → (e.iterate n ids s).next? ≠ some (.settle i r handled) := by
  have occupied := (pending n later (Nat.le_refl n)).2
  constructor
  · intro round
    obtain ⟨program, same⟩ := occupied.busy _ round (minds_round c)
    cases c <;> cases same
  · rintro i r handled rfl settles
    obtain ⟨program, same⟩ := occupied.busy _ settles (.inl rfl)
    cases same

/-- An action returns once. -/
private theorem Met.le (met : e.Met ids s c phase d k p q) (met' : e.Met ids s c phase d k p' q') :
    p' ≤ p := by
  by_contra earlier
  have pending : e.Pending ids s c phase d k (p + 1) :=
    fun j after le => met'.pending j after (by omega)
  obtain ⟨other, still⟩ := pending.not_round (Nat.lt_succ_of_lt met.later)
  rcases met.soon with rfl | ⟨_, i, r, handled, mine, settles⟩
  · exact other met.obeys.turn
  · exact still i r handled mine settles

/-- A demand is met once. -/
private theorem Met.unique (met : e.Met ids s c phase d k p q)
    (met' : e.Met ids s c phase d k p' q') : q = q' := by
  obtain rfl : p = p' := Nat.le_antisymm (met'.le met) (met.le met')
  have apart {i r handled} (mine : c = .actor i) : c.round ≠ .settle i r handled := by
    subst mine
    nofun
  rcases met.soon with rfl | ⟨rfl, i, r, handled, mine, settles⟩ <;>
    rcases met'.soon with rfl | ⟨rfl, i', r', handled', mine', settles'⟩
  · rfl
  · exact absurd (Option.some.inj (met.obeys.turn.symm.trans settles')) (apart mine')
  · exact absurd (Option.some.inj (met'.obeys.turn.symm.trans settles)) (apart mine)
  · rfl

/-- A demand that was accepted is met, unless its action still runs. -/
private theorem pending_or_met (accepted : e.registry.Accepted)
    (running : (e.iterate n ids s).isOver = false)
    (sound : ∀ k < n, ∀ x, (e.iterate k ids s).next? = some x → x.fails c = false) (later : k < n)
    (accepts : (e.iterate (k + 1) ids s).Accepts c phase d next) :
    e.Pending ids s c phase d k n ∨ ∃ p < n, ∃ q, e.Met ids s c phase d k p q := by
  have occupied {j} (le : j ≤ n) (holds : (e.iterate j ids s).Holds c phase d) :
      (e.iterate j ids s).raised? c = some d ∧ (e.iterate j ids s).Occupied c phase := by
    have goesOn := e.running_of_le ids s le running
    exact ⟨holds.raised,
      holds.occupied (e.composed accepted ids s j) (e.sound goesOn).explores goesOn⟩
  rcases holds_or_returns accepted running sound
      (accepts.holds (e.composed accepted ids s (k + 1))) later with
    held | ⟨p, after, before, held, memory, ending, returns⟩
  · exact .inl fun j after le => occupied le (held j after le)
  · obtain rfl := Task.ending_of_not_fails (sound p before _ returns)
    have goesOn := e.running_of_le ids s (Nat.le_of_lt before) running
    obtain ⟨q, soon, obeys⟩ := obeys_of_returns accepted goesOn
      (slotted accepted goesOn fun k lt => sound k (Nat.lt_trans lt before))
      (held p after (Nat.le_refl p)).raised returns
    exact .inr ⟨p, before, q, after,
      fun j later le => occupied (by omega) (held j later le), ⟨memory, returns⟩, soon, obeys⟩

/-- A demand was accepted and has been raised until now. -/
private def Raising (e : Experiment) (ids : Allocator) (s : σ) (c : Subject) (d : Demand) (n : Nat) :
    Prop :=
  ∃ k < n, ∃ phase next, (e.iterate k ids s).Demands c phase d next ∧
    (e.iterate (k + 1) ids s).Accepts c phase d next ∧
      ∀ j, k < j → j ≤ n → (e.iterate j ids s).raised? c = some d

private theorem Raising.succ (raising : Raising e ids s c d n)
    (raised : (e.iterate (n + 1) ids s).raised? c = some d) : Raising e ids s c d (n + 1) := by
  obtain ⟨k, lt, phase, next, demands, accepts, since⟩ := raising
  refine ⟨k, Nat.lt_succ_of_lt lt, phase, next, demands, accepts, fun j after le => ?_⟩
  rcases Nat.le_succ_iff.1 le with le | rfl
  · exact since j after le
  · exact raised

/-- What is raised was accepted. -/
private theorem raising_of_raised (accepted : e.registry.Accepted)
    (running : (e.iterate n ids s).isOver = false)
    (sound : ∀ k < n, ∀ x, (e.iterate k ids s).next? = some x → x.fails c = false)
    (raised : (e.iterate n ids s).raised? c = some d) : Raising e ids s c d n := by
  induction n with
  | zero => cases c <;> cases raised
  | succ n ih =>
    have before := e.running_of_succ ids s running
    have earlier := ih before fun k lt => sound k (Nat.lt_succ_of_lt lt)
    cases moved : (e.iterate n ids s).step? with
    | none =>
      refine (earlier ?_).succ raised
      rwa [iterate_succ, moved, Option.getD_none] at raised
    | some w =>
      obtain ⟨x, next, affects⟩ :=
        affects_of_step? accepted running moved (sound n (Nat.lt_succ_self n))
      rcases affects.of_raised raised with
        still | ⟨phase, request, goesOn, core, rfl, asks, there, allowed, may, free⟩
      · exact (earlier still).succ raised
      · have demands : (e.iterate n ids s).Demands c phase d goesOn :=
          ⟨⟨request, asks, next⟩, core, there, allowed⟩
        rcases accepts_or_rejects before demands with ⟨_, accepts⟩ | ⟨exits | full, _⟩
        · refine ⟨n, Nat.lt_succ_self n, phase, goesOn, demands, accepts, fun j after le => ?_⟩
          obtain rfl : j = n + 1 := by omega
          exact raised
        · exact absurd exits may
        · exact absurd ((World.raised?_of_core there).trans free) full

/-- What an interpreter does in its round it has been asked for. -/
private theorem met_of_round (accepted : e.registry.Accepted)
    (running : (e.iterate n ids s).isOver = false)
    (sound : ∀ k < n, ∀ x, (e.iterate k ids s).next? = some x → x.fails c = false)
    (turn : (e.iterate n ids s).next? = some c.round)
    (raised : (e.iterate n ids s).raised? c = some d) :
    ∃ k p phase next, (e.iterate k ids s).Demands c phase d next ∧
      (e.iterate (k + 1) ids s).Accepts c phase d next ∧ e.Met ids s c phase d k p n := by
  obtain ⟨k, later, phase, next, demands, accepts, since⟩ :=
    raising_of_raised accepted running sound raised
  rcases pending_or_met accepted running sound later accepts with pending | ⟨p, before, q, met⟩
  · exact absurd turn (pending.not_round later).1
  · -- what was raised is raised no more once it has been done
    have reached : n ≤ q := by
      by_contra passed
      have after : k < q + 1 := by
        have := met.later
        rcases met.soon with rfl | ⟨rfl, _⟩ <;> omega
      cases (since (q + 1) after (by omega)).symm.trans met.obeys.emptied
    obtain rfl : q = n := by
      rcases met.soon with rfl | ⟨rfl, i, r, handled, rfl, settles⟩
      · omega
      · by_contra other
        obtain rfl : n = p + 1 := by omega
        cases turn.symm.trans settles
    exact ⟨k, p, phase, next, demands, accepts, met⟩

/-- A demand is accepted if it is the first one of an action that may make demands. -/
private theorem accepts_iff {asked : Prop} (composed : (e.iterate n ids s).Composed)
    (running : (e.iterate n ids s).isOver = false) (slotted : (e.iterate n ids s).Slotted c asked)
    (demands : (e.iterate n ids s).Demands c phase d next) :
    (e.iterate (n + 1) ids s).Accepts c phase d next ↔ phase ≠ .exit ∧ ¬asked := by
  obtain ⟨request, _, goesOn⟩ := demands.asks
  obtain ⟨core, there, slotted⟩ := slotted.of_next composed goesOn rfl
  have asked := slotted.asked phase rfl
  rw [← World.raised?_of_core there] at asked
  rw [← asked, not_not]
  rcases accepts_or_rejects running demands with ⟨may, accepts⟩ | ⟨cause, rejects⟩
  · exact ⟨fun _ => may, fun _ => accepts⟩
  · constructor
    · intro accepts
      obtain ⟨report, ended, _⟩ := rejects.ended
      have ceased : (e.iterate (n + 1) ids s).isOver = true := by
        simp [World.isOver, Controller.isOver, ended]
      cases ceased.symm.trans accepts.running
    · rintro ⟨may, free⟩
      rcases cause with exits | full
      · exact absurd exits may
      · exact absurd free full

/-- As long as none of its actions fails an interpreter does what they ask for. -/
theorem obedient (accepted : e.registry.Accepted) (running : (e.iterate n ids s).isOver = false)
    (sound : ∀ k < n, ∀ x, (e.iterate k ids s).next? = some x → x.fails c = false) :
    e.Obedient ids s c n where
  starts action event phase next := by
    obtain ⟨core, there, slotted⟩ :=
      (slotted accepted running sound).of_next (e.composed accepted ids s n) next rfl
    rw [World.raised?_of_core there]
    exact slotted.free rfl rfl
  accepts phase d next demands :=
    accepts_iff (e.composed accepted ids s n) running (slotted accepted running sound) demands
  rejects phase d next demands refused := by
    rcases accepts_or_rejects running demands with ⟨_, accepts⟩ | ⟨_, rejects⟩
    · exact absurd accepts refused
    · exact rejects
  met k later phase d next _ accepts := by
    rcases pending_or_met accepted running sound later accepts with pending | ⟨p, before, q, met⟩
    · exact .inl pending
    · exact .inr ⟨q, ⟨p, before, met⟩, fun q' ⟨_, _, met'⟩ => met'.unique met⟩
  only d turn raised := met_of_round accepted running sound turn raised

private def beforeMove : StateDescriptor :=
  ⟨"First", true, none, none, none,
    [(⟨"Ping"⟩, .action fun o => .ask .own (.goto "Last") fun _ => .finish o.memory .ok)]⟩

private def afterMove : StateDescriptor := ⟨"Last", false, none, none, none, []⟩

/-- A machine that is asked to go to another state by the action for the event that it takes. -/
private def mover : Declaration :=
  { typeTag := "Mover", kind := .machine, inherited := [], observes := [],
    derived := [beforeMove, afterMove] }

private def moverDescriptor : Descriptor :=
  ⟨"Mover", .machine, [beforeMove, afterMove], beforeMove, []⟩

/-- The test waits until the machine has handled the event. -/
def moving : Experiment where
  settings := .exploration
  registry := ⟨Timer.descriptors ++ [moverDescriptor]⟩
  test :=
    .ask .own (.create "Mover" none none true) fun
      | .ok (.actor id) =>
        .ask .own (.sendAndExecute id (.ofType ⟨"Ping"⟩)) fun _ => .finish {} .ok
      | _ => .finish {} .ok

private def turnsOfMoving : ScriptedStrategy :=
  .ofAnswers [.ok 1, .ok 0, .ok 1, .ok 0, .ok 0, .ok 0]

private theorem accepted_moving : moving.registry.Accepted := by
  have built : mover.build = .ok moverDescriptor :=
    Declaration.build_of_plain (by decide) rfl rfl rfl rfl rfl
  exact ⟨[moverDescriptor], by simpa using ⟨mover, built⟩, rfl⟩

private theorem sound_moving : ∀ k < 24, ∀ x,
    (moving.iterate k ⟨0, 0⟩ turnsOfMoving).next? = some x → x.fails (.actor 0) = false := by
  have sound : ∀ k < 24, ((moving.iterate k ⟨0, 0⟩ turnsOfMoving).next?.any
      (Task.fails (.actor 0))) = false := by decide +kernel
  intro k lt x next
  simpa [next] using sound k lt

/-- The machine goes to the other state once it has settled the event, and it does so once. -/
theorem obedient_moving :
    moving.registry.Accepted ∧ (moving.iterate 24 ⟨0, 0⟩ turnsOfMoving).isOver = false ∧
      (∀ k < 24, ∀ x, (moving.iterate k ⟨0, 0⟩ turnsOfMoving).next? = some x →
        x.fails (.actor 0) = false) ∧
      ∃ next, (moving.iterate 18 ⟨0, 0⟩ turnsOfMoving).Demands (.actor 0) .action (.goto "Last") next ∧
        (moving.iterate 19 ⟨0, 0⟩ turnsOfMoving).Accepts (.actor 0) .action (.goto "Last") next ∧
        (moving.iterate 20 ⟨0, 0⟩ turnsOfMoving).next? = some (.settle 0 1 true) ∧
        ∃! q, ∃ p < 24, moving.Met ⟨0, 0⟩ turnsOfMoving (.actor 0) .action (.goto "Last") 18 p q := by
  have demands : (moving.iterate 18 ⟨0, 0⟩ turnsOfMoving).Demands (.actor 0) .action (.goto "Last")
      fun _ => .finish {} .ok := ⟨⟨.goto "Last", rfl, rfl⟩, _, rfl, rfl⟩
  have accepts : (moving.iterate 19 ⟨0, 0⟩ turnsOfMoving).Accepts (.actor 0) .action (.goto "Last")
      fun _ => .finish {} .ok := ⟨rfl, rfl, rfl⟩
  have obedient := obedient (n := 24) accepted_moving rfl sound_moving
  refine ⟨accepted_moving, rfl, sound_moving, _, demands, accepts, rfl, ?_⟩
  refine (obedient.met 18 (by decide) _ _ _ demands accepts).resolve_left fun pending => ?_
  cases (pending 24 (by decide) (Nat.le_refl 24)).1.symm.trans (rfl : _ = none)

end Experiment

end SteeredActors
