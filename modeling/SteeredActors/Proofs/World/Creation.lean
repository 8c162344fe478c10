import SteeredActors.Proofs.World.Privacy
import SteeredActors.Proofs.World.Watching
import SteeredActors.Proofs.World.Yields

/-!
# Where actors come from

An actor comes of a request to create one, or to start a timer. Its identity is new, its mailbox is
empty, and it has not had its first turn. From then on its position can be looked up by its identity,
and only its own thread has anything to do for it.
-/

set_option autoImplicit false
set_option relaxedAutoImplicit false

namespace SteeredActors

variable {σ : Type}

/-! ## Whose tasks they are -/

/-- The position of an actor. -/
def Subject.actor? : Subject → Option Nat
  | .actor i => some i
  | .monitor _ => none

/-- The actor whose task it is. -/
def Task.actor? : Task → Option Nat
  | .firstTurn i | .wake i | .cycle i | .rest i | .settle i _ _ => some i
  | .start c _ | .handle c _ _ | .invoke c _ _ _ | .switch c _ _ | .enter c _ _ | .pop c
  | .dropTop c | .perform (.action c _) _ | .resume (.action c _) _ _ _ => c.actor?
  | _ => none

theorem Task.actor?_of_subject {x : Task} {c : Subject} (own : x.subject? = some c) :
    x.actor? = c.actor? := by
  cases x <;> try cases own
  all_goals try rfl
  case perform speaker program =>
    cases speaker with
    | action => exact congrArg Subject.actor? (Option.some.inj own)
    | test | sleeper => cases own

theorem Task.actor?_of_minds {x : Task} {i : Nat} (minds : x.Minds (.actor i)) :
    x.actor? = some i := by
  rcases minds with own | ⟨j, same, own⟩
  · exact Task.actor?_of_subject own
  · cases same
    cases x <;> cases own <;> rfl

/-- Only the thread of an actor has anything to do for it. -/
def World.Owned (w : World σ) : Prop :=
  ∀ t thread, w.thread? t = some thread → ∀ x ∈ thread.tasks, ∀ i, x.actor? = some i → t = .actor i

namespace World

/-- What a task leads to belongs to the same actor, or to nobody. -/
theorem Yields.owned {w : World σ} {x : Task} {xs : List Task} (yields : w.Yields x xs) :
    ∀ y ∈ xs, y.actor? = none ∨ y.actor? = x.actor? := by
  have works : ∀ {c : Subject} {ys : List Task}, c.actor? = x.actor? →
      (∀ y ∈ ys, (Task.pop c).Tame y) → ∀ y ∈ ys, y.actor? = none ∨ y.actor? = x.actor? :=
    fun same tame y mem => .inr ((Task.actor?_of_subject ((tame y mem).2 _ rfl)).trans same)
  cases yields with
  | nothing => simp
  | wakes own | quits own => rcases own with rfl | rfl <;> simp [Task.actor?]
  | obeys own =>
    rcases own with ⟨i, rfl, rfl, _⟩ | ⟨m, rfl, rfl⟩ <;>
      exact List.forall_mem_append.2 ⟨works rfl (tame_obedience rfl _ _),
        List.forall_mem_singleton.2 (.inr rfl)⟩
  | enters own entry =>
    rcases own with rfl | ⟨target, rfl⟩ <;> exact works rfl (tame_invocation rfl _ _ entry)
  | settles c event r => exact works rfl (tame_settlement rfl r false)
  | consumes c event r core binding =>
    exact List.forall_mem_append.2 ⟨works rfl (tame_consumption rfl core event binding),
      works rfl (tame_settlement rfl r true)⟩
  | pops c core =>
    exact List.forall_mem_append.2 ⟨works rfl (tame_leaving rfl core none),
      List.forall_mem_singleton.2 (.inr rfl)⟩
  | asks speaker voice request next outside shared each =>
    refine List.forall_mem_append.2 ⟨fun y mem => .inl ?_, List.forall_mem_singleton.2 (.inr ?_)⟩
    · have serves := each y mem
      cases y <;> first | rfl | cases serves
    · cases speaker <;> rfl
  | goes speaker | creates speaker | resumes speaker => cases speaker <;> simp [Task.actor?]
  | _ => simp [Task.actor?, Subject.actor?]

section

variable [Strategy σ] {w w' : World σ} {t : ThreadId}

/-- After a step of a thread what it has to do belongs to whom it belonged. -/
private theorem actor?_of_stepThread? {x : Task} {rest : List Task} {outside : Bool}
    (found : w.thread? t = some ⟨x :: rest, outside⟩) (moved : w.stepThread? t = some w')
    {thread : Thread} (now : w'.thread? t = some thread) {y : Task} (mem : y ∈ thread.tasks)
    {i : Nat} (own : y.actor? = some i) : ∃ z ∈ x :: rest, z.actor? = some i := by
  obtain ⟨x', rest', outside', found', steps⟩ := of_stepThread? moved
  cases found.symm.trans found'
  rcases steps with ⟨xs, v, old, executed, _, rfl⟩ | ⟨a, v, executed, rfl⟩
  · rw [v.eq_of_thread?_setThread now] at mem
    rcases List.mem_append.1 mem with mem | mem
    · rcases (brings_of_exec executed).yields.owned y mem with none | same
      · cases none.symm.trans own
      · exact ⟨x, List.mem_cons_self, same ▸ own⟩
    · exact ⟨y, List.mem_cons_of_mem _ mem, own⟩
  · have unwinds := v.unwinds_deliverAnswer (S := fun _ => True) t a rest
    generalize v.deliverAnswer t a rest = v' at unwinds now
    cases unwinds with
    | @resumes _ speaker below before shared _ next works suffix a =>
      rw [eq_of_thread?_setThread _ now] at mem
      rcases List.mem_cons.1 mem with rfl | mem
      · refine ⟨.resume speaker before shared next,
          List.mem_cons_of_mem _ (suffix.subset List.mem_cons_self), ?_⟩
        cases speaker <;> exact own
      · exact ⟨y, List.mem_cons_of_mem _ (suffix.subset (List.mem_cons_of_mem _ mem)), own⟩
    | ends works other =>
      rw [eq_of_thread?_setThread _ now] at mem
      cases mem
    | abandons works mine =>
      rw [eq_of_thread?_setThread _ now, List.mem_singleton] at mem
      subst mem
      cases own

/-- A step leaves everybody's tasks in their own thread. -/
theorem Owned.step (owned : w.Owned) (orderly : w.Orderly) (moved : w.stepThread? t = some w') :
    w'.Owned := by
  intro u thread now y mem i own
  obtain ⟨x, rest, outside, w₁, tasks, outside', found, acts, _, rfl⟩ := orderly.step moved
  by_cases mine : u = t
  · subst mine
    obtain ⟨z, member, own⟩ := actor?_of_stepThread? found moved now mem own
    exact owned u _ found z member i own
  · rw [w₁.thread?_setThread_ne mine] at now
    cases was : w.thread? u with
    | some old =>
      obtain ⟨thread', now', same⟩ := acts.kept u old was
      obtain rfl := Option.some.inj (now.symm.trans now')
      exact owned u old was y (same ▸ mem) i own
    | none =>
      have fresh := acts.begun u thread was now
      cases u with
      | driver => exact fresh.elim
      | actor k | sleeper k =>
        rw [show thread.tasks = _ from fresh, List.mem_singleton] at mem
        subst mem
        cases own
        try rfl

end

/-! ## New actors -/

section

variable {w : World σ}

/-- One actor is added, under an identity that nobody has. -/
def Creates (w v : World σ) (typeTag : String) (event : Option Event) : Prop :=
  ∃ d a, w.registry.machine? typeTag = some d ∧ v.actors = w.actors ++ [a] ∧
    w.actor? a.core.id = none ∧ a.core = .new a.core.id d ∧ a.mailbox = ⟨.uninitialized, []⟩ ∧
    a.creationEvent = event ∧ a.thread = ⟨[.firstTurn w.actors.length], false⟩

private theorem creates_addActor {u v : World σ} (same : u.actors = w.actors) {typeTag : String}
    {d : Descriptor} (offered : w.registry.machine? typeTag = some d) {id : ActorId}
    (free : w.actor? id = none) (event : Option Event) (rendezvous : Option Nat)
    (added : v.actors = (u.addActor id d event rendezvous).actors) :
    w.Creates v typeTag event := by
  have built : v.actors = w.actors ++ [{
      core := .new id d, mailbox := {}, operation := (u.controller.register id.name).1,
      creationEvent := event, creationRendezvous := rendezvous, pending := [],
      thread := ⟨[.firstTurn w.actors.length], false⟩ }] := by
    rw [added]
    simp only [addActor, actors_observe, same]
  exact ⟨d, _, offered, built, by simpa [Core.new] using free, rfl, rfl, rfl, rfl⟩

/-- A creation is refused, or one actor is added. -/
theorem creates_create (caller : Option Nat) (typeTag : String) (name : Option String)
    (event : Option Event) (execute : Bool) :
    (∃ a v, w.create caller typeTag name event execute = .now a v ∧ v.actors = w.actors) ∨
      ∃ tasks v, w.create caller typeTag name event execute = .later tasks v ∧
        w.Creates v typeTag event := by
  have created := w.ofCreation caller typeTag name event execute
  generalize w.create caller typeTag name event execute = service at created
  cases created with
  | refused | overflows | taken => exact .inl ⟨_, _, rfl, rfl⟩
  | @populates d id ids _ _ offered _ free =>
    refine .inr ?_
    cases execute with
    | false =>
      exact ⟨_, _, rfl, creates_addActor (u := { w with ids }) rfl offered free event none rfl⟩
    | true =>
      exact ⟨_, _, rfl, creates_addActor (u := (openRendezvous { w with ids } caller).2) rfl
        offered free event (some w.rendezvous.length) (actors_blockCaller _ _)⟩

section

variable [Strategy σ] {w' : World σ} {t : ThreadId} {rest : List Task} {outside : Bool}
  {speaker : Speaker} {voice : Voice} {request : Request} {next : Answer → Program}
  (found : w.thread? t = some ⟨.perform speaker (.ask voice request next) :: rest, outside⟩)
  (moved : w.stepThread? t = some w')
  (grown : ∀ v : World σ, v.actors = w.actors → ∀ thread, w' ≠ v.setThread t thread)

include found moved grown

/-- A request that is answered at once adds no actor. -/
private theorem not_now {a : Answer} {v : World σ} (same : v.actors = w.actors)
    (served : w.service t ⟨.perform speaker (.ask voice request next) :: rest, outside⟩ speaker voice
      request = .now a v) : False := by
  obtain ⟨x', rest', outside', found', steps⟩ := of_stepThread? moved
  cases found.symm.trans found'
  rcases exec_ask found speaker voice request next with
    ⟨b, u, served', executed⟩ | ⟨tasks, u, before, served', executed⟩
  · cases served.symm.trans served'
    rcases steps with ⟨xs, u, old, executed', _, rfl⟩ | ⟨_, _, executed', _⟩ <;>
      cases executed.symm.trans executed'
    exact grown _ same _ rfl
  · cases served.symm.trans served'

private theorem creates_of_service {caller : Option Nat} (typeTag : String) (name : Option String)
    (event : Option Event) (execute : Bool)
    (served : w.service t ⟨.perform speaker (.ask voice request next) :: rest, outside⟩ speaker voice
      request = w.create caller typeTag name event execute) :
    ∃ v, w.Creates v typeTag event ∧ ∃ thread, w' = v.setThread t thread := by
  rcases w.creates_create caller typeTag name event execute with
    ⟨a, v, refused, same⟩ | ⟨tasks, v, created, creates⟩
  · exact (not_now found moved grown same (served.trans refused)).elim
  · obtain ⟨x', rest', outside', found', steps⟩ := of_stepThread? moved
    cases found.symm.trans found'
    rcases exec_ask found speaker voice request next with
      ⟨b, u, served', executed⟩ | ⟨tasks, u, before, served', executed⟩
    · cases (served.trans created).symm.trans served'
    · cases (served.trans created).symm.trans served'
      rcases steps with ⟨xs, u, old, executed', _, rfl⟩ | ⟨_, _, executed', _⟩ <;>
        cases executed.symm.trans executed'
      exact ⟨v, creates, _, v.setThread_setThread t _ _⟩

end

/-- A new actor comes of a request that was made for it. -/
theorem creates_of_stepThread? [Strategy σ] {w' : World σ} {t : ThreadId} {x : Task}
    {rest : List Task} {outside : Bool} (fit : w.Fit) (owned : w.Owned)
    (found : w.thread? t = some ⟨x :: rest, outside⟩) (moved : w.stepThread? t = some w')
    {i : Nat} (absent : w.mind? (.actor i) = none) (now : (w'.mind? (.actor i)).isSome = true) :
    ∃ speaker voice request next typeTag event, x = .perform speaker (.ask voice request next) ∧
      ((∃ name execute, request = .create typeTag name event execute) ∨
        ∃ period periodic j core phase, request = .startTimer period periodic ∧ voice = .own ∧
          typeTag = (if w.explores then Timer.explored else Timer.sleeping) ∧
          speaker = .action (.actor j) phase ∧ w.core? (.actor j) = some core ∧
          event = some (Timer.creation core.id period periodic)) ∧
      ∃ v, w.Creates v typeTag event ∧ ∃ thread, w' = v.setThread t thread := by
  have grown : ∀ v : World σ, v.actors = w.actors → ∀ thread, w' ≠ v.setThread t thread := by
    rintro v same thread rfl
    rw [mind?_setThread] at now
    simp only [mind?, same] at now absent
    rw [absent] at now
    cases now
  by_cases creates : x.creates? = some .machine
  · obtain ⟨speaker, voice, request, next, rfl, adds⟩ :
        ∃ speaker voice request next, x = .perform speaker (.ask voice request next) ∧
          request.creates = true := by
      cases x <;> try cases creates
      next speaker program =>
        cases program with
        | finish => cases creates
        | ask voice request next =>
          refine ⟨_, _, _, _, rfl, ?_⟩
          by_contra other
          simp [Task.creates?, other] at creates
    have refused : ∀ r, w.service t ⟨_ :: rest, outside⟩ speaker voice request ≠ w.refuse r :=
      fun r served => not_now found moved grown rfl served
    cases request
    case create typeTag name event execute =>
      cases machine : ensureMachine ((w.context? speaker voice).map (·.2.2)) "create actors" with
      | error r => exact (refused r (by simp only [service, serve, machine])).elim
      | ok _ =>
        have served := creates_of_service found moved grown typeTag name event execute
          (by simp only [service, serve, machine]; rfl)
        exact ⟨speaker, voice, _, next, typeTag, event, rfl, .inl ⟨name, execute, rfl⟩, served⟩
    case startTimer period periodic =>
      cases context : w.context? speaker voice with
      | none => exact (refused _ (by simp only [service, serve, context]; rfl)).elim
      | some asked =>
        obtain ⟨c, phase, core⟩ := asked
        obtain ⟨rfl, rfl, there⟩ := context?_eq_some context
        cases machine : ensureMachine (some core) "start timers" with
        | error r =>
          exact (refused r (by simp only [service, serve, context, Option.map_some, machine])).elim
        | ok _ =>
          cases c with
          | monitor m =>
            rw [ensureMachine_of_monitor fit there] at machine
            cases machine
          | actor j =>
            have served := creates_of_service found moved grown
              (if w.explores then Timer.explored else Timer.sleeping) none
              (some (Timer.creation core.id period periodic)) false
              (by simp only [service, serve, context, Option.map_some, machine]; rfl)
            exact ⟨_, _, _, next, _, _, rfl,
              .inr ⟨period, periodic, j, core, phase, rfl, rfl, rfl, rfl, there, rfl⟩, served⟩
    all_goals cases adds
  · have kept : w'.mind? (.actor i) = none := by
      refine mind?_stepThread? absent moved fun y below outside' found' => ?_
      cases found.symm.trans found'
      refine ⟨fun minds => ?_, fun same => absurd same creates⟩
      obtain rfl := owned t _ found x List.mem_cons_self i (Task.actor?_of_minds minds)
      have there : w.actors[i]? = none := by simpa [mind?] using absent
      simp [thread?, there] at found
    rw [kept] at now
    cases now

end

/-! ## Identities -/

/-- Every actor is found by its identity. -/
def Named (w : World σ) : Prop :=
  ∀ j core, w.core? (.actor j) = some core → w.actor? core.id = some j

section

variable {w w' : World σ}

/-- Whoever is found by an identity stays so. -/
theorem actor?_evolve [Strategy σ] {S : Subject → Prop} (evolves : w.Evolves S w') {id : ActorId}
    {j : Nat} (found : w.actor? id = some j) : w'.actor? id = some j := by
  rw [actor?_eq_some] at found ⊢
  obtain ⟨⟨core, there, same⟩, others⟩ := found
  obtain ⟨core', there', becomes⟩ := evolves.cores _ core there
  refine ⟨⟨core', there', by rw [becomes.id, same]⟩, fun k lt core₁ found => ?_⟩
  -- positions below one that is taken are taken
  obtain ⟨old, was⟩ : ∃ old, w.core? (.actor k) = some old := by
    obtain ⟨a, here, _⟩ := Option.map_eq_some_iff.1 there
    have inside := (List.getElem?_eq_some_iff.1 here).1
    have within : k < w.actors.length := by omega
    exact ⟨w.actors[k].core, by simp [core?, within]⟩
  obtain ⟨new, now, becomes'⟩ := evolves.cores _ old was
  obtain rfl := Option.some.inj (found.symm.trans now)
  rw [becomes'.id]
  exact others k lt old was

theorem same_self (id : ActorId) : id.same id = true := (ActorId.same_iff_key id id).2 rfl

/-- A new actor is the last one. -/
theorem Creates.position {typeTag : String} {event : Option Event} {v : World σ}
    (creates : w.Creates v typeTag event) {i : Nat} {core : Core}
    (absent : w.core? (.actor i) = none) (now : v.core? (.actor i) = some core) :
    i = w.actors.length := by
  obtain ⟨d, a, _, added, _⟩ := creates
  have outside : ¬i < w.actors.length := fun lt => by simp [core?, lt] at absent
  have inside : i < (w.actors ++ [a]).length := by
    obtain ⟨b, there, _⟩ := Option.map_eq_some_iff.1 now
    exact added ▸ (List.getElem?_eq_some_iff.1 there).1
  simp only [List.length_append, List.length_cons, List.length_nil] at inside
  omega

/-- A new actor is found by its identity. -/
theorem Creates.named {typeTag : String} {event : Option Event} {v : World σ}
    (creates : w.Creates v typeTag event) {core : Core}
    (found : v.core? (.actor w.actors.length) = some core) :
    v.actor? core.id = some w.actors.length := by
  obtain ⟨d, a, _, added, free, _⟩ := creates
  have there : core = a.core := by simpa [core?, added] using found.symm
  rw [actor?_eq_some]
  refine ⟨⟨core, found, same_self _⟩, fun k lt core' found' => ?_⟩
  have old : v.core? (.actor k) = some w.actors[k].core := by
    simp [core?, added, List.getElem?_append_left lt, List.getElem?_eq_getElem lt]
  obtain rfl := Option.some.inj (found'.symm.trans old)
  unfold actor? at free
  rw [there]
  simpa using List.findIdx?_eq_none_iff.1 free w.actors[k] (List.getElem_mem lt)

/-- A step leaves every actor to be found by its identity. -/
theorem Named.step [Strategy σ] {t : ThreadId} (named : w.Named) (orderly : w.Orderly)
    (owned : w.Owned) (moved : w.stepThread? t = some w') : w'.Named := by
  intro j core now
  have evolves := orderly.evolves (.does moved)
  cases was : w.core? (.actor j) with
  | some old =>
    obtain ⟨core', now', becomes⟩ := evolves.cores _ old was
    obtain rfl := Option.some.inj (now.symm.trans now')
    rw [becomes.id]
    exact actor?_evolve evolves (named j old was)
  | none =>
    have mind : ∀ u : World σ, u.mind? (.actor j) = none ↔ u.core? (.actor j) = none := by
      simp [mind?, core?]
    obtain ⟨x, rest, outside, found, _⟩ := of_stepThread? moved
    obtain ⟨_, _, _, _, _, _, _, _, v, creates, thread, rfl⟩ :=
      creates_of_stepThread? orderly.fit owned found moved ((mind w).2 was)
        (Option.isSome_iff_ne_none.2 fun none => by simp [(mind _).1 none] at now)
    rw [core?_setThread] at now
    obtain rfl := creates.position was now
    exact actor?_evolve (S := fun _ => True) (.setThread v t thread) (creates.named now)

/-- No two actors have the same identity. -/
theorem Named.unique (named : w.Named) {i j : Nat} {core core' : Core}
    (found : w.core? (.actor i) = some core) (found' : w.core? (.actor j) = some core')
    (same : core.id.same core'.id = true) : i = j := by
  have here := named i core found
  obtain ⟨⟨_, there, own⟩, before⟩ := actor?_eq_some.1 (named j core' found')
  rcases Nat.lt_trichotomy i j with lt | eq | gt
  · rw [before i lt core found] at same
    cases same
  · exact eq
  · have reverse : core'.id.same core.id = true := by
      rw [ActorId.same_iff_key] at same ⊢
      exact same.symm
    rw [(actor?_eq_some.1 here).2 j gt core' found'] at reverse
    cases reverse

end

end World

namespace Experiment

variable [Strategy σ] (e : Experiment) (accepted : e.registry.Accepted) (ids : Allocator) (s : σ)
include accepted

theorem owned (n : Nat) : (e.iterate n ids s).Owned := by
  induction n with
  | zero =>
    intro t thread found x mem i own
    cases t with
    | driver =>
      obtain rfl := Option.some.inj found
      obtain rfl := List.mem_singleton.1 mem
      cases own
    | actor j | sleeper j => cases found
  | succ n ih =>
    rw [e.iterate_succ]
    cases moved : (e.iterate n ids s).step? with
    | none => exact ih
    | some w =>
      rcases World.of_step? moved with ⟨t, _, does⟩ | ⟨_, clock, rfl⟩
      · exact ih.step ((e.reached n ids s).orderly accepted) does
      · exact fun t thread found => ih t thread (by cases t <;> exact found)

theorem named (n : Nat) : (e.iterate n ids s).Named := by
  induction n with
  | zero => exact fun j core found => nomatch found
  | succ n ih =>
    rw [e.iterate_succ]
    cases moved : (e.iterate n ids s).step? with
    | none => exact ih
    | some w =>
      rcases World.of_step? moved with ⟨t, _, does⟩ | ⟨_, clock, rfl⟩
      · exact ih.step ((e.reached n ids s).orderly accepted) (e.owned accepted ids s n) does
      · exact ih

end Experiment

end SteeredActors
