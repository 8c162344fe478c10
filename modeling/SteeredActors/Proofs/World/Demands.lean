import SteeredActors.Proofs.World.Episodes
import SteeredActors.Proofs.World.Privacy
import SteeredActors.Proofs.World.Watching

/-!
# What interpreters do with demands

An interpreter has one slot for what its actions ask of it. An action that returns fills it at most
once, and only the task in which an interpreter does what was raised takes something out of it. Nothing
else that an interpreter does concerns its slot, unless it halts.
-/

set_option autoImplicit false
set_option relaxedAutoImplicit false

namespace SteeredActors

variable {σ : Type}

/-- What an interpreter may still do when it has halted. -/
def Task.concludes : Task → Bool
  | .settle _ _ _ | .cycle _ | .drain _ | .defaults _ | .release _ | .enlist _ => true
  | _ => false

/-- What an action asks of its own interpreter when it goes on. -/
def Task.demand? : Task → Option Demand
  | .perform (.action _ _) (.ask .own request _) => request.demand?
  | _ => none

@[simp] theorem Task.concludes_round (c : Subject) : c.round.concludes = true := by cases c <;> rfl

/-- What a task of an interpreter does to its slot. -/
inductive Core.Stirs (c : Subject) (core : Core) : Task → List Task → Core → Prop where
  | keeps {x : Task} {xs : List Task} {core' : Core} (quiet : x.demand? = none)
      (raised : core'.raised = core.raised) (halted : core'.halted = core.halted)
      (calm : x = c.round → core.raised = none ∨ core.halted = true)
      (spent : core.halted = true → x.concludes = true → ∀ y ∈ xs, y.begun? = none) :
      Stirs c core x xs core'
  | obeys {d : Demand} (raised : core.raised = some d) (awake : core.halted = false) :
      Stirs c core c.round (World.obedience c core d ++ [c.round]) { core with raised := none }
  | asks {phase : Phase} {request : Request} {next : Answer → Program} {d : Demand}
      (asks : request.demand? = some d) (allowed : d.Allowed core.descriptor)
      (may : phase ≠ .exit) (free : core.raised = none) :
      Stirs c core (.perform (.action c phase) (.ask .own request next))
        [.perform (.action c phase) (next (.ok .null))] { core with raised := some d }
  | halts (event : Event) (r : Option Nat) :
      Stirs c core (.handle c event r) (World.settlement c r false)
        { core with halted := true, stack := [], raised := none }

namespace Core.Stirs

variable {c : Subject} {core core' : Core} {x : Task} {xs : List Task}

/-- The slot is left alone by what is done before an interpreter is done with an event. -/
theorem of_open (opens : x.concludes = false) (quiet : x.demand? = none)
    (raised : core'.raised = core.raised) (halted : core'.halted = core.halted) :
    core.Stirs c x xs core' :=
  .keeps quiet raised halted (by rintro rfl; simp at opens) fun _ concludes => by
    rw [opens] at concludes
    cases concludes

/-- Who has nothing to do but to be done. -/
theorem of_done (quiet : x.demand? = none) (raised : core'.raised = core.raised)
    (halted : core'.halted = core.halted) (other : x ≠ c.round)
    (plain : ∀ y ∈ xs, y.begun? = none) : core.Stirs c x xs core' :=
  .keeps quiet raised halted (fun same => absurd same other) fun _ _ => plain

end Core.Stirs

namespace World

/-! ## Demands -/

section

variable {w : World σ} {c : Subject} {phase : Phase} {core : Core} {d : Demand} {request : Request}

theorem serve_of_demand [Strategy σ] (asks : request.demand? = some d) (caller : Option Nat)
    (speaker : Speaker) (voice : Voice) :
    w.serve caller speaker voice request = w.serveDemand (w.context? speaker voice) d := by
  cases request <;> cases asks <;> rfl

/-- A demand is kept in the slot, or an assertion has failed. -/
theorem demand_cases (w : World σ) (c : Subject) (phase : Phase) (core : Core) (d : Demand) :
    (phase ≠ .exit ∧ core.raised = none) ∧ w.demand c phase core d =
        .now (.ok .null) (w.modifyCore c fun core => { core with raised := some d }) ∨
      ((phase = .exit ∨ core.raised ≠ none) ∧ ∃ message r, w.demand c phase core d =
        (w.report (.assertion message (some core.id))).refuse r) := by
  unfold demand
  split
  · next exits => exact .inr ⟨.inl exits, _, _, rfl⟩
  · next enters =>
    split
    · next full => exact .inr ⟨.inr (by simpa [Option.isSome_iff_ne_none] using full), _, _, rfl⟩
    · next free => exact .inl ⟨⟨enters, by simpa using free⟩, rfl⟩

end

/-! ## Tasks -/

section

variable {w v : World σ} {t : ThreadId} {c : Subject} {core : Core} {x : Task} {xs : List Task}

theorem core?_of_mind?_eq (same : v.mind? c = w.mind? c) : v.core? c = w.core? c := by
  rw [core?_eq_mind?, same, ← core?_eq_mind?]

/-- An interpreter halts. -/
theorem core?_halt (found : w.core? c = some core) (awake : core.halted = false) :
    (w.halt c).core? c = some { core with halted := true, stack := [], raised := none } := by
  unfold halt
  simp only [found, awake, Bool.false_eq_true, if_false]
  rw [core?_of_mind?_eq (mind?_observe _ c _)]
  cases c with
  | actor i => rw [core?_of_mind?_eq (mind?_abandon _ _ i), core?_modifyCore found]
  | monitor m => rw [core?_modifyCore found]

private theorem stirs_pushState (found : w.core? c = some core) (opens : x.concludes = false)
    (quiet : x.demand? = none)
    {s : StateDescriptor} {event : Option Event}
    (executed : w.pushState c core s event = .go xs v) :
    ∃ core', v.core? c = some core' ∧ core.Stirs c x xs core' := by
  cases executed
  exact ⟨_, core?_setStack found _, .of_open opens quiet rfl rfl⟩

private theorem stirs_handle (found : w.core? c = some core) {event : Event} {r : Option Nat}
    (executed : w.handle c event r = .go xs v) :
    ∃ core', v.core? c = some core' ∧ core.Stirs c (.handle c event r) xs core' := by
  simp only [handle, withCore, found] at executed
  split at executed
  · cases executed
    exact ⟨_, core?_setStack found _, .of_open rfl rfl rfl rfl⟩
  · cases executed
    exact ⟨_, core?_setStack found _, .of_open rfl rfl rfl rfl⟩
  · split at executed
    · cases executed
      have emptied := core?_setStack found []
      cases awake : core.halted with
      | false => exact ⟨_, core?_halt emptied awake, .halts event r⟩
      | true =>
        refine ⟨{ core with stack := [] }, ?_, .of_open rfl rfl rfl rfl⟩
        simp [halt, emptied, awake]
    · cases executed

private theorem stirs_obey (found : w.core? c = some core) (awake : core.halted = false)
    {otherwise : Move σ}
    (rests : core.raised = none → otherwise = .go xs v → v.core? c = some core)
    (executed : w.obey c core c.round otherwise = .go xs v) :
    ∃ core', v.core? c = some core' ∧ core.Stirs c c.round xs core' := by
  unfold obey at executed
  cases raised : core.raised with
  | none =>
    simp only [raised] at executed
    refine ⟨core, rests raised executed,
      .keeps (by cases c <;> rfl) rfl rfl (fun _ => .inl raised) fun halted => ?_⟩
    rw [awake] at halted
    cases halted
  | some d =>
    simp only [raised] at executed
    cases executed
    exact ⟨_, core?_modifyCore found _, .obeys raised awake⟩

private theorem stirs_cycleActor {i : Nat} (found : w.core? (.actor i) = some core)
    (executed : w.cycleActor i = .go xs v) :
    ∃ core', v.core? (.actor i) = some core' ∧ core.Stirs (.actor i) (.cycle i) xs core' := by
  obtain ⟨a, there, rfl⟩ := Option.map_eq_some_iff.1 found
  unfold cycleActor at executed
  split at executed
  · cases executed
  · simp only [withActor, there] at executed
    split at executed
    · next halted =>
      cases executed
      refine ⟨_, found, .keeps rfl rfl rfl (fun _ => .inr halted) fun _ _ => ?_⟩
      simp [Task.begun?, Task.subject?]
    · next awake =>
      refine stirs_obey found (by simpa using awake) (fun _ selected => ?_) executed
      have kept := mind?_selectEvent (rfl : w.mind? (.actor i) = _) i a
      rw [selected] at kept
      exact (core?_of_mind?_eq kept).trans found

private theorem stirs_drainMonitor {m : Nat} (found : w.core? (.monitor m) = some core)
    (executed : w.drainMonitor m = .go xs v) :
    ∃ core', v.core? (.monitor m) = some core' ∧ core.Stirs (.monitor m) (.drain m) xs core' := by
  obtain ⟨a, there, rfl⟩ := Option.map_eq_some_iff.1 found
  simp only [drainMonitor, withMonitor, there] at executed
  split at executed
  · next halted =>
    cases executed
    exact ⟨_, found, .keeps rfl rfl rfl (fun _ => .inr halted) fun _ _ => List.forall_mem_nil _⟩
  · next awake =>
    refine stirs_obey found (by simpa using awake) (fun _ rests => ?_) executed
    cases rests
    exact found

private theorem stirs_defaultsOfMonitor {m : Nat} (found : w.core? (.monitor m) = some core)
    (executed : w.defaultsOfMonitor m = .go xs v) :
    ∃ core', v.core? (.monitor m) = some core' ∧
      core.Stirs (.monitor m) (.defaults m) xs core' := by
  obtain ⟨a, there, rfl⟩ := Option.map_eq_some_iff.1 found
  simp only [defaultsOfMonitor, withMonitor, there] at executed
  split at executed
  · split at executed
    · next may =>
      cases executed
      refine ⟨_, found, .keeps rfl rfl rfl (by rintro ⟨⟩) fun halted => ?_⟩
      simp [halted] at may
    · cases executed
      exact ⟨_, found, .of_done rfl rfl rfl (by rintro ⟨⟩) (List.forall_mem_nil _)⟩
  · cases executed
    exact ⟨_, found, .of_done rfl rfl rfl (by rintro ⟨⟩) (List.forall_mem_nil _)⟩

private theorem stirs_finishAction {phase : Phase} (found : w.core? c = some core)
    {memory : Memory} {ending : Ending} (executed : w.finishAction c memory ending = .go xs v) :
    ∃ core', v.core? c = some core' ∧
      core.Stirs c (.perform (.action c phase) (.finish memory ending)) xs core' := by
  have reported : ∀ (w₁ : World σ) (text : String),
      (if w₁.isOver then w₁.unwind .canceled
        else w₁.withCore c fun core => (w₁.report (faultReport core text)).unwind .canceled) =
          Move.go xs v → w₁.core? c = none := by
    intro w₁ text goes
    split at goes
    · cases goes
    · unfold withCore at goes
      split at goes
      · cases goes
      · assumption
  have remembers := core?_modifyCore found fun core => { core with memory }
  simp only [finishAction] at executed
  cases ending with
  | ok =>
    cases executed
    exact ⟨_, remembers, .of_open rfl rfl rfl rfl⟩
  | panicked message =>
    rw [reported _ _ executed] at remembers
    cases remembers
  | failed failure =>
    simp only at executed
    split at executed
    · cases executed
    · rw [reported _ _ executed] at remembers
      cases remembers

variable [Strategy σ]

private theorem stirs_ask {thread : Thread} (there : w.thread? t = some thread)
    (found : w.core? c = some core) {phase : Phase} {voice : Voice} {request : Request}
    {next : Answer → Program} (running : v.isOver = false)
    (executed : w.exec t (.perform (.action c phase) (.ask voice request next)) = .go xs v) :
    ∃ core', v.core? c = some core' ∧
      core.Stirs c (.perform (.action c phase) (.ask voice request next)) xs core' := by
  obtain ⟨mind, minds, same⟩ := Option.map_eq_some_iff.1 ((core?_eq_mind? w c).symm.trans found)
  have quiet (still : request.demand? = none) :
      (w.service t thread (.action c phase) voice request).All fun w' => w'.mind? c = some mind :=
    mind?_serve minds _ voice request (by simp [still]) fun _ _ => rfl
  have unasked (still : request.demand? = none) :
      (Task.perform (.action c phase) (.ask voice request next)).demand? = none := by
    cases voice with
    | own => exact still
    | outsider => rfl
  rcases exec_ask there (.action c phase) voice request next with
    ⟨a, w', served, goes⟩ | ⟨tasks, w', outside, served, goes⟩
  · cases goes.symm.trans executed
    cases asks : request.demand? with
    | none =>
      have kept := quiet asks
      rw [served] at kept
      exact ⟨core, (core?_of_mind?_eq (kept.trans minds.symm)).trans found,
        .of_open rfl (unasked asks) rfl rfl⟩
    | some d =>
      rw [service, serve_of_demand asks] at served
      cases voice with
      | outsider =>
        cases served
        exact ⟨core, found, .of_open rfl rfl rfl rfl⟩
      | own =>
        rw [context?_of_action found] at served
        have demanded := w.ofDemand (some (c, phase, core)) d
        rw [served] at demanded
        cases demanded with
        | nobody absent => cases absent
        | fails =>
          rw [isOver_report] at running
          cases running
        | kept asked allowed enters free =>
          cases asked
          exact ⟨_, core?_modifyCore found _, .asks asks allowed enters free⟩
  · cases goes.symm.trans executed
    cases asks : request.demand? with
    | none =>
      have kept := quiet asks
      rw [served] at kept
      refine ⟨core, ?_, .of_open rfl (unasked asks) rfl rfl⟩
      exact (core?_of_mind?_eq ((mind?_setThread _ c t _).trans (kept.trans minds.symm))).trans found
    | some d =>
      rw [service, serve_of_demand asks] at served
      exact absurd served serveDemand_ne_later

/-- What a task of an interpreter does to its slot while the run goes on. -/
theorem stirs_exec {thread : Thread} (there : w.thread? t = some thread)
    (found : w.core? c = some core) (begun : x.begun? = some c) (running : v.isOver = false)
    (executed : w.exec t x = .go xs v) :
    ∃ core', v.core? c = some core' ∧ core.Stirs c x xs core' := by
  cases x <;> try (cases begun; done)
  case start d event =>
    cases begun
    simp only [exec, withCore, found] at executed
    exact stirs_pushState found rfl rfl executed
  case handle =>
    cases begun
    exact stirs_handle found executed
  case settle i r handled =>
    cases begun
    obtain ⟨a, there, rfl⟩ := Option.map_eq_some_iff.1 found
    simp only [exec, withActor, there] at executed
    cases executed
    refine ⟨a.core, ?_, .of_done rfl rfl rfl (by rintro ⟨⟩) (List.forall_mem_nil _)⟩
    split
    · exact (core?_of_mind?_eq (mind?_reply w _ r false)).trans found
    · refine (core?_of_mind?_eq (mind?_modifyActor w _ i ?_)).trans found
      exact fun _ => ⟨rfl, rfl⟩
  case invoke =>
    cases begun
    simp only [exec, invoke, withCore, found] at executed
    cases executed
    exact ⟨core, found, .of_open rfl rfl rfl rfl⟩
  case switch =>
    cases begun
    simp only [exec, withCore, found] at executed
    split at executed
    · cases executed
      exact ⟨core, found, .of_open rfl rfl rfl rfl⟩
    · cases executed
      exact ⟨_, core?_setStack found _, .of_open rfl rfl rfl rfl⟩
  case enter =>
    cases begun
    simp only [exec, enter, withCore, found] at executed
    split at executed
    · exact stirs_pushState found rfl rfl executed
    · cases executed
  case pop =>
    cases begun
    simp only [exec, popState, withCore, found] at executed
    split at executed
    · cases executed
    · cases executed
      exact ⟨core, found, .of_open rfl rfl rfl rfl⟩
  case dropTop =>
    cases begun
    simp only [exec, withCore, found] at executed
    cases executed
    exact ⟨_, core?_setStack found _, .of_open rfl rfl rfl rfl⟩
  case cycle i =>
    cases begun
    exact stirs_cycleActor found executed
  case drain m =>
    cases begun
    exact stirs_drainMonitor found executed
  case defaults m =>
    cases begun
    exact stirs_defaultsOfMonitor found executed
  case release m | enlist m =>
    cases begun
    simp only [exec] at executed
    cases executed
    refine ⟨core, (core?_of_mind?_eq (mind?_modifyMonitor w _ m ?_)).trans found,
      .of_done rfl rfl rfl (by rintro ⟨⟩) (List.forall_mem_nil _)⟩
    exact fun _ => rfl
  case perform speaker program =>
    cases speaker <;> cases begun
    cases program with
    | finish memory ending => exact stirs_finishAction found executed
    | ask voice request next => exact stirs_ask there found running executed
  case resume speaker outside shared next =>
    cases speaker <;> cases begun
    simp only [exec, there] at executed
    cases executed
    exact ⟨core, (core?_of_mind?_eq (mind?_setThread w c t _)).trans found, .of_open rfl rfl rfl rfl⟩

/-- What an interpreter does ends early only with the run, or because its action has failed. -/
theorem over_of_answer (begun : x.begun? = some c) {a : Answer} (executed : w.exec t x = .answer a v) :
    v.isOver = true ∨ ∃ phase memory ending,
      x = .perform (.action c phase) (.finish memory ending) ∧ ending ≠ .ok := by
  cases responds_of_exec executed with
  | ends _ _ ceased => exact .inl ceased
  | unwinds d phase memory =>
    cases begun
    exact .inr ⟨phase, memory, _, rfl, nofun⟩
  | collects | lists | reads | gives | touches | lacks | misses | repeats | strange => cases begun

/-- An action goes on until it returns. -/
theorem exists_begun_of_exec {thread : Thread} (there : w.thread? t = some thread)
    (begun : x.begun? = some c) {phase : Phase} (speaks : x.phase? = some phase)
    (goesOn : ∀ memory ending, x ≠ .perform (.action c phase) (.finish memory ending))
    (executed : w.exec t x = .go xs v) : ∃ y ∈ xs, y.begun? = some c ∧ y.phase? = some phase := by
  cases x
  case perform speaker program =>
    cases speaker <;> cases speaks
    cases begun
    cases program with
    | finish memory ending => exact absurd rfl (goesOn memory ending)
    | ask voice request next =>
      rcases exec_ask there (.action c phase) voice request next with
        ⟨a, w', _, goes⟩ | ⟨tasks, w', outside, _, goes⟩
      · cases goes.symm.trans executed
        exact ⟨_, List.mem_singleton_self _, rfl, rfl⟩
      · cases goes.symm.trans executed
        exact ⟨_, List.mem_append_right _ (List.mem_singleton_self _), rfl, rfl⟩
  case resume speaker outside shared next =>
    cases speaker <;> cases speaks
    cases begun
    simp only [exec, there] at executed
    cases executed
    exact ⟨_, List.mem_singleton_self _, rfl, rfl⟩
  all_goals cases speaks

end

end World

end SteeredActors
