import SteeredActors.Proofs.World.Creation
import SteeredActors.Proofs.World.Demands

/-!
# What a step means for an interpreter

Either the step is the interpreter's own, or it leaves the interpreter as it is: then it goes on with
what it had to do, gets an answer that its action waits for, or begins with something while it has
nothing to do.
-/

set_option autoImplicit false
set_option relaxedAutoImplicit false

namespace SteeredActors

variable {σ : Type}

/-- What a step that does a task means for an interpreter. -/
inductive World.Affects (w w' : World σ) (c : Subject) (x : Task) : Prop where
  /-- It goes on as before, or it is new and has nothing to do. -/
  | spares (apart : x.begun? ≠ some c) (same : ∀ y, w'.Pursues c y ↔ w.Pursues c y)
      (core : w'.core? c = w.core? c ∨
        w.core? c = none ∧ ∀ core', w'.core? c = some core' → core'.raised = none)
  /-- Its action gets the answer that it waits for. -/
  | answers {phase : Phase} {outside shared : Bool} {next : Answer → Program} {a : Answer}
      (apart : x.begun? ≠ some c)
      (waits : w.Pursues c (.resume (.action c phase) outside shared next))
      (goes : w'.Pursues c (.perform (.action c phase) (next a)))
      (core : w'.core? c = w.core? c)
  /-- It begins with something. -/
  | begins {core : Core} (apart : x.begun? ≠ some c) (rests : ∀ y, ¬w.Pursues c y)
      (quiet : ∀ y, w'.Pursues c y → y.phase? = none) (found : w'.core? c = some core)
      (awake : core.halted = false) (before : w.core? c = some core ∨ core.raised = none)
  /-- An actor is given up before it handles the reserved event. -/
  | drops {i : Nat} (apart : x.begun? ≠ some c)
      (was : w.Pursues c (.handle (.actor i) (.ofType .default) none))
      (gone : ∀ y, ¬w'.Pursues c y) (core : w'.core? c = w.core? c)
  /-- It does the task itself. -/
  | does {xs rest : List Task} {core core' : Core} (begun : x.begun? = some c)
      (pursues : w.Pursues c x) (comes : Linked Task.Comes (x :: rest) none)
      (below : x.ends? = some c → c.first? rest = none) (yields : w.Yields x xs)
      (found : w.core? c = some core) (now : w'.core? c = some core') (stirs : core.Stirs c x xs core')
      (next : ∀ y, w'.Pursues c y ↔ c.first? (xs ++ rest) = some y)
      (speaks : ∀ phase, x.phase? = some phase →
        (∃ memory ending, x = .perform (.action c phase) (.finish memory ending)) ∨
          ∃ y ∈ xs, y.begun? = some c ∧ y.phase? = some phase)

namespace World

variable {w w' v : World σ} {t : ThreadId} {c : Subject} {x y : Task} {xs rest : List Task}
  {core : Core}

/-- Who has something to do is there. -/
theorem Composed.core_of_pursues (composed : w.Composed) (h : w.Pursues c x) :
    ∃ core, w.core? c = some core := by
  cases c with
  | actor i =>
    obtain ⟨thread, found, _⟩ := composed.own_of_pursues h
    obtain ⟨a, there, _⟩ := Option.map_eq_some_iff.1 found
    exact ⟨a.core, by simp [core?, there]⟩
  | monitor m =>
    have inside := (composed.taken_of_pursues h).lt
    rw [standing, List.length_map] at inside
    exact ⟨w.monitors[m].core, by simp [core?, inside]⟩

/-- Something is to be done for an interpreter in another thread. -/
private def Elsewhere (w : World σ) (t : ThreadId) (c : Subject) (y : Task) : Prop :=
  ∃ u thread, u ≠ t ∧ w.thread? u = some thread ∧ c.first? thread.tasks = some y

private theorem pursues_iff {thread : Thread} (found : w.thread? t = some thread) :
    w.Pursues c y ↔ c.first? thread.tasks = some y ∨ w.Elsewhere t c y := by
  constructor
  · rintro ⟨u, other, found', first⟩
    by_cases same : u = t
    · subst same
      obtain rfl := Option.some.inj (found.symm.trans found')
      exact .inl first
    · exact .inr ⟨u, other, same, found', first⟩
  · rintro (first | ⟨u, other, _, found', first⟩)
    · exact ⟨t, thread, found, first⟩
    · exact ⟨u, other, found', first⟩

theorem Composed.pursues_of_begun (composed : w.Composed) {outside : Bool}
    (found : w.thread? t = some ⟨x :: rest, outside⟩) (begun : x.begun? = some c) :
    w.Pursues c x ∧ ¬w.Elsewhere t c y := by
  refine ⟨⟨t, _, found, Subject.first?_cons_self begun⟩, ?_⟩
  rintro ⟨u, thread, other, found', first⟩
  exact other (composed.eq_thread found' found (Subject.mem_of_first? first) List.mem_cons_self
    (Subject.begun?_of_first? first) begun)

variable [Strategy σ]

/-- Other threads keep what they have to do. -/
private theorem elsewhere_step (orderly : w.Orderly) (moved : w.stepThread? t = some w') :
    w'.Elsewhere t c y ↔ w.Elsewhere t c y := by
  constructor
  · rintro ⟨u, thread, other, found, first⟩
    rcases orderly.bystander moved other found with ⟨old, was, same⟩ | ⟨_, k, fresh | fresh⟩
    · exact ⟨u, old, other, was, same ▸ first⟩
    · rw [fresh] at first
      cases first
    · rw [fresh] at first
      cases first
  · rintro ⟨u, thread, other, found, first⟩
    obtain ⟨x, rest, outside, w₁, tasks, outside', _, acts, _, rfl⟩ := orderly.step moved
    obtain ⟨thread', now, same⟩ := acts.kept u thread found
    exact ⟨u, thread', other, (w₁.thread?_setThread_ne other _).trans now, same ▸ first⟩

/-! ## What others do -/

omit [Strategy σ] in
/-- What is changed of an actor is not its interpreter. -/
theorem core?_modifyActor (w : World σ) (i : Nat) {f : Actor → Actor}
    (same : ∀ a, (f a).core = a.core) (c : Subject) : (w.modifyActor i f).core? c = w.core? c := by
  cases c with
  | monitor m => rfl
  | actor j =>
    simp only [core?, modifyActor, List.getElem?_modify]
    cases w.actors[j]? with
    | none => rfl
    | some a => by_cases own : i = j <;> simp [own, same a]

/-- An interpreter that is there is left alone by what is not its own. -/
theorem core?_exec_of_apart (t : ThreadId) (apart : x.begun? ≠ some c) (found : w.core? c = some core) :
    (w.exec t x).All fun v => v.core? c = some core := by
  obtain ⟨mind, minds, same⟩ := Option.map_eq_some_iff.1 ((core?_eq_mind? w c).symm.trans found)
  by_cases own : x.Minds c
  · have foreign : x.subject? ≠ some c := fun works => apart (Task.begun?_of_subject? works)
    obtain ⟨i, rfl, works⟩ := own.resolve_left foreign
    cases x
    case firstTurn | rest =>
      simp only [exec, withActor]
      split
      · split
        · exact found
        · trivial
        · exact (core?_of_mind?_eq (mind?_abandon w _ _)).trans found
      · exact found
    case wake =>
      simp only [exec, wakeActor, withActor]
      split
      · split
        · exact found
        · split
          · refine (core?_modifyActor _ _ ?_ _).trans ((core?_modifyActor w _ ?_ _).trans found) <;>
              exact fun _ => rfl
          · refine (core?_modifyActor w _ ?_ _).trans found
            exact fun _ => rfl
      · exact found
    case cycle =>
      cases works
      exact absurd rfl apart
    all_goals cases works
  · have kept := mind?_exec minds t own fun _ => rfl
    cases executed : w.exec t x with
    | wait => trivial
    | go xs v | answer a v =>
      rw [executed] at kept
      exact (core?_of_mind?_eq (kept.trans minds.symm)).trans found

/-- Whoever begins with something has nothing to do and has not halted. -/
private theorem begins_of_exec (composed : w.Composed) {outside : Bool}
    (found : w.thread? t = some ⟨x :: rest, outside⟩) (apart : x.begun? ≠ some c)
    (executed : w.exec t x = .go xs v) (mem : y ∈ xs) (begun : y.begun? = some c) :
    (∀ z, ¬w.Pursues c z) ∧ ∃ core, v.core? c = some core ∧ core.halted = false ∧
      (w.core? c = some core ∨ core.raised = none) := by
  rcases (brings_of_exec executed).yields.of_begun mem begun with ⟨own, _⟩ | ⟨_, ⟨i, rfl, rfl⟩ |
    ⟨m, event, rfl, rfl⟩ | ⟨m, d, id, rfl, rfl⟩⟩
  · exact absurd own apart
  · -- an actor that wakes has nothing else to do
    obtain rfl := composed.staffed.own t _ found _ List.mem_cons_self i rfl
    have last : rest.head?.or none = none := (composed.comes _ _ found).1
    obtain rfl : rest = [] := by simpa using last
    refine ⟨fun z pursues => ?_, ?_⟩
    · obtain ⟨thread, found', first⟩ := composed.own_of_pursues pursues
      obtain rfl := Option.some.inj (found.symm.trans found')
      cases first
    · obtain ⟨a, there, _⟩ := Option.map_eq_some_iff.1 found
      have known : w.core? (.actor i) = some a.core := by simp [core?, there]
      simp only [exec, wakeActor, withActor, there] at executed
      split at executed
      · cases executed
        obtain rfl := List.mem_singleton.1 mem
        cases begun
      · next awake =>
        refine ⟨a.core, ?_, by simpa using awake, .inl known⟩
        split at executed <;> cases executed
        · refine (core?_modifyActor _ i ?_ _).trans ((core?_modifyActor w i ?_ _).trans known) <;>
            exact fun _ => rfl
        · refine (core?_modifyActor w i ?_ _).trans known
          exact fun _ => rfl
  · -- a monitor that is handed an event has none in hand
    have listed := composed.exclusive.listed t _ found m event List.mem_cons_self
    rcases w.exec_deliver t m event with ⟨waits, _⟩ | goes | ⟨free, goes⟩
    · cases waits.symm.trans executed
    · cases goes.symm.trans executed
      cases mem
    · obtain ⟨monitor, there, idle⟩ : ∃ monitor, w.monitors[m]? = some monitor ∧
          monitor.busy = false := by simpa [busied] using free
      have awake : monitor.core.halted = false := by
        by_contra halted
        have drops : w.exec t (.deliver m event) = .go [] w := by
          simp [exec, deliver, withMonitor, there, idle, halted]
        cases drops.symm.trans goes
      cases goes.symm.trans executed
      refine ⟨fun z pursues => ?_, monitor.core, ?_, awake, .inl (by simp [core?, there])⟩
      · rcases composed.taken_of_pursues pursues with busy | starting
        · cases busy.symm.trans free
        · exact listed.not_starting starting
      · refine (core?_of_mind?_eq (mind?_modifyMonitor w _ m ?_)).trans (by simp [core?, there])
        exact fun _ => rfl
  · -- a monitor that is installed is new
    rcases w.exec_install t d id with ⟨waits, _⟩ | ⟨r, refused⟩ | ⟨_, goes⟩
    · cases waits.symm.trans executed
    · cases refused.symm.trans executed
    · cases goes.symm.trans executed
      obtain rfl : m = w.monitors.length := by
        simp only [List.mem_cons, List.not_mem_nil, or_false] at mem
        rcases mem with rfl | rfl | rfl | rfl <;> cases begun <;> rfl
      refine ⟨fun z pursues => ?_, .new id d, by simp [core?], rfl, .inr rfl⟩
      have inside := (composed.taken_of_pursues pursues).lt
      simp [standing] at inside

/-- A new interpreter has been asked for nothing. -/
private theorem raised_of_fresh (composed : w.Composed) (orderly : w.Orderly) (owned : w.Owned) {outside : Bool}
    (found : w.thread? t = some ⟨x :: rest, outside⟩) (moved : w.stepThread? t = some w')
    (absent : w.core? c = none) (now : w'.core? c = some core) : core.raised = none := by
  have nobody : w.mind? c = none := by simpa [core?_eq_mind?] using absent
  cases c with
  | actor i =>
    obtain ⟨_, _, _, _, _, _, _, _, u, ⟨d, a, _, actors, _, new, _⟩, thread, rfl⟩ :=
      creates_of_stepThread? orderly.fit owned found moved nobody (by
        rw [core?_eq_mind?] at now
        simpa using Option.isSome_of_eq_some now)
    rw [core?_setThread] at now
    have outside : w.actors.length ≤ i := by simpa [core?] using absent
    obtain rfl : a.core = core := by
      simp only [core?, actors, List.getElem?_append_right outside] at now
      obtain ⟨b, last, rfl⟩ := Option.map_eq_some_iff.1 now
      rw [List.getElem?_singleton] at last
      split at last
      · obtain rfl := Option.some.inj last
        rfl
      · cases last
    rw [new]
    rfl
  | monitor m =>
    have other : x.subject? ≠ some (.monitor m) := by
      intro own
      obtain ⟨core, there⟩ := composed.core_of_pursues
        (composed.pursues_of_begun (y := x) found (Task.begun?_of_subject? own)).1
      rw [absent] at there
      cases there
    by_cases creates : x.creates? = some .monitor
    · obtain ⟨d, id, rfl⟩ : ∃ d id, x = .install d id := by
        cases x <;> try cases creates
        case perform speaker program =>
          cases program with
          | finish => cases creates
          | ask voice request next =>
            simp only [Task.creates?] at creates
            split at creates <;> cases creates
        exact ⟨_, _, rfl⟩
      rcases w.exec_install t d id with ⟨waits, _⟩ | ⟨r, refused⟩ | ⟨_, goes⟩
      · rw [stepThread?_cons found, waits] at moved
        cases moved
      · obtain rfl := stepThread?_answer found refused moved
        have still := mind?_deliverAnswer nobody t (.error (.runtime r)) rest
        rw [core?_eq_mind?, still] at now
        cases now
      · obtain ⟨y, below, outside', found', steps⟩ := of_stepThread? moved
        cases found.symm.trans found'
        rcases steps with ⟨xs, u, old, executed, _, rfl⟩ | ⟨_, _, executed, _⟩ <;>
          cases goes.symm.trans executed
        rw [core?_setThread] at now
        have outside : w.monitors.length ≤ m := by simpa [core?] using absent
        simp only [core?, List.getElem?_append_right outside, List.getElem?_singleton] at now
        split at now <;> cases now
        rfl
    · have still := mind?_stepThread? nobody moved fun y below outside' found' => by
        cases found.symm.trans found'
        refine ⟨?_, fun same => absurd same creates⟩
        rintro (own | ⟨i, same, _⟩)
        · exact other own
        · cases same
      rw [core?_eq_mind?, still] at now
      cases now

/-- What a step of a thread means for an interpreter none of whose actions fails. -/
theorem affects_of_stepThread? (composed : w.Composed) (orderly : w.Orderly) (owned : w.Owned)
    {outside : Bool} (found : w.thread? t = some ⟨x :: rest, outside⟩)
    (moved : w.stepThread? t = some w') (running : w'.isOver = false) (c : Subject)
    (sound : ∀ phase memory ending,
      x = .perform (.action c phase) (.finish memory ending) → ending = .ok) :
    w.Affects w' c x := by
  obtain ⟨thread, now⟩ := orderly.stays moved
  have before (y) : w.Pursues c y ↔ c.first? (x :: rest) = some y ∨ w.Elsewhere t c y :=
    pursues_iff found
  have after (y) : w'.Pursues c y ↔ c.first? thread.tasks = some y ∨ w.Elsewhere t c y := by
    rw [pursues_iff now, elsewhere_step orderly moved]
  have comes := composed.comes t _ found
  obtain ⟨x', rest', outside', found', steps⟩ := of_stepThread? moved
  cases found.symm.trans found'
  by_cases begun : x.begun? = some c
  · obtain ⟨pursues, _⟩ := composed.pursues_of_begun (y := x) found begun
    have alone (y) : ¬w.Elsewhere t c y := (composed.pursues_of_begun found begun).2
    obtain ⟨core, there⟩ := composed.core_of_pursues pursues
    rcases steps with ⟨xs, w₁, old, executed, was, rfl⟩ | ⟨a, w₁, executed, rfl⟩
    · have goesOn : w₁.isOver = false := by
        rw [← running]
        cases t <;> rfl
      obtain ⟨core', there', stirs⟩ := stirs_exec found there begun goesOn executed
      obtain rfl := Option.some.inj (now.symm.trans (w₁.thread?_setThread was _))
      refine .does begun pursues comes (fun ends => composed.first?_of_ends found ends)
        (brings_of_exec executed).yields there ?_ stirs (fun y => ?_) fun phase speaks => ?_
      · rw [core?_setThread, there']
      · rw [after]
        exact or_iff_left (alone y)
      · by_cases ends : ∃ memory ending, x = .perform (.action c phase) (.finish memory ending)
        · exact .inl ends
        · exact .inr (exists_begun_of_exec found begun speaks
            (fun memory ending same => ends ⟨memory, ending, same⟩) executed)
    · rcases over_of_answer begun executed with ceased | ⟨phase, memory, ending, rfl, failed⟩
      · rw [isOver_deliverAnswer, ceased] at running
        cases running
      · exact absurd (sound phase memory ending rfl) failed
  · have first : c.first? (x :: rest) = c.first? rest := Subject.first?_cons_of_ne begun
    have fresh (core') (none : w.core? c = none) (some : w'.core? c = some core') :
        core'.raised = Option.none := raised_of_fresh composed orderly owned found moved none some
    rcases steps with ⟨xs, w₁, old, executed, was, rfl⟩ | ⟨a, w₁, executed, rfl⟩
    · obtain rfl := Option.some.inj (now.symm.trans (w₁.thread?_setThread was _))
      by_cases begins : ∃ y ∈ xs, y.begun? = some c
      · obtain ⟨y, mem, begins⟩ := begins
        obtain ⟨rests, core, there, awake, known⟩ :=
          begins_of_exec composed found begun executed mem begins
        refine .begins begun rests (fun z pursues => ?_) (by rw [core?_setThread, there]) awake known
        rcases (after z).1 pursues with within | elsewhere
        · have idle : c.first? rest = none := by
            rw [← first]
            exact Option.eq_none_iff_forall_not_mem.2 fun y some => rests y ((before y).2 (.inl some))
          have mem : z ∈ xs := by
            rcases List.mem_append.1 (Subject.mem_of_first? within) with mem | mem
            · exact mem
            · exact absurd (Subject.begun?_of_first? within) (Subject.first?_eq_none.1 idle z mem)
          rcases (brings_of_exec executed).yields.of_begun mem (Subject.begun?_of_first? within) with
            ⟨own, _⟩ | ⟨quiet, _⟩
          · exact absurd own begun
          · exact quiet
        · exact absurd ((before z).2 (.inr elsewhere)) (rests z)
      · have none : ∀ y ∈ xs, y.begun? ≠ some c := fun y mem same => begins ⟨y, mem, same⟩
        refine .spares begun (fun y => ?_) ?_
        · rw [after, before, first, Subject.first?_append_of_none none]
        · cases known : w.core? c with
          | none => exact .inr ⟨rfl, fun core' => fresh core' known⟩
          | some core =>
            have kept := core?_exec_of_apart t begun known
            rw [executed] at kept
            exact .inl ((core?_setThread _ _ _ _).trans kept)
    · have kept (core) (there : w.core? c = some core) :
          (w₁.deliverAnswer t a rest).core? c = some core := by
        have same := core?_exec_of_apart t begun there
        rw [executed] at same
        exact (core?_of_mind?_eq (mind?_deliverAnswer rfl t a rest)).trans same
      have core {y} (pursues : w.Pursues c y) :
          (w₁.deliverAnswer t a rest).core? c = w.core? c := by
        obtain ⟨core, there⟩ := composed.core_of_pursues pursues
        rw [kept core there, there]
      have acts := orderly.exec t (orderly.founded t _ found x List.mem_cons_self)
      rw [executed] at acts
      obtain ⟨old, was, _⟩ := World.Acts.kept acts t _ found
      rcases first?_of_answer was comes begun now with
        same | ⟨phase, outside, shared, next, b, waits, goes⟩ | ⟨i, handles, gone⟩
      · refine .spares begun (fun y => by rw [after, before, first, same]) ?_
        cases known : w.core? c with
        | none => exact .inr ⟨rfl, fun core' => fresh core' known⟩
        | some core => exact .inl (kept core known)
      · have waits := (before _).2 (.inl (first.trans waits))
        exact .answers begun waits ((after _).2 (.inl goes)) (core waits)
      · have here := first.trans handles
        have handles := (before _).2 (.inl here)
        refine .drops begun handles (fun y pursues => ?_) (core handles)
        rcases (after y).1 pursues with within | ⟨u, other, apart, there, elsewhere⟩
        · rw [gone] at within
          cases within
        · exact apart (composed.eq_thread there found (Subject.mem_of_first? elsewhere)
            (Subject.mem_of_first? here) (Subject.begun?_of_first? elsewhere)
            (Subject.begun?_of_first? here))

end World

end SteeredActors
