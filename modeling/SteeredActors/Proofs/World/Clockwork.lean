import SteeredActors.Proofs.World.Conservation
import SteeredActors.Proofs.World.Creation
import SteeredActors.Proofs.World.Timers

/-!
# Timers fire as they were asked to

As long as nobody but its owner's calls to start and stop it reaches a timer, it keeps to its course in
every explored run, whoever moves: it is set up by its owner, it fires for its owner with what it was
set up with, and it stops when it has to.
-/

set_option autoImplicit false
set_option relaxedAutoImplicit false

namespace SteeredActors

variable {σ : Type}

/-- An actor is a timer. -/
def World.isTimer (w : World σ) (i : Nat) : Bool :=
  (w.core? (.actor i)).any (·.descriptor.typeTag == Timer.explored)

/-- A request reaches a timer without starting or stopping it. -/
def Request.meddles (w : World σ) : Request → Bool
  | .send target _ | .sendAndExecute target _ => (w.actor? target).any w.isTimer
  | .create typeTag _ _ _ => typeTag == Timer.explored
  | _ => false

/-- Whose program runs is a timer. -/
def Speaker.isTimer (w : World σ) : Speaker → Bool
  | .action (.actor i) _ => w.isTimer i
  | _ => false

/-- Somebody who is no timer reaches a timer without starting or stopping it. -/
def Task.meddles (w : World σ) : Task → Bool
  | .perform speaker (.ask _ request _) => !speaker.isTimer w && request.meddles w
  | _ => false

namespace World

variable [Strategy σ] {w w' : World σ} {i j : Nat} {info : TimerInfo} {before : Timer.Prospect}
  {t : ThreadId}

/-- What an actor is, it stays. -/
theorem isTimer_evolve {S : Subject → Prop} (evolves : w.Evolves S w')
    (there : (w.core? (.actor i)).isSome = true) : w'.isTimer i = w.isTimer i := by
  obtain ⟨core, found⟩ := Option.isSome_iff_exists.1 there
  obtain ⟨core', found', becomes⟩ := evolves.cores _ core found
  simp [isTimer, found, found', becomes.descriptor]

omit [Strategy σ] in
theorem core?_of_isTimer (timer : w.isTimer i = true) : (w.core? (.actor i)).isSome = true := by
  unfold isTimer at timer
  cases found : w.core? (.actor i) with
  | none => simp [found] at timer
  | some core => rfl

/-! ## Timers on their course -/

omit [Strategy σ] in
/-- A timer creates nothing and sends to its owner only. -/
theorem Times.asks (times : w.Times i j info before) {phase : Phase} {voice : Voice}
    {request : Request} {next : Answer → Program} {rest : List Task} {outside : Bool}
    (found : w.thread? (.actor i) =
      some ⟨.perform (.action (.actor i) phase) (.ask voice request next) :: rest, outside⟩) :
    request.creates = false ∧ ∀ sent, request.sent? = some sent → sent.1 = info.owner := by
  obtain ⟨core, event, front, base, _, _, found', foreign, stage⟩ := times
  obtain ⟨split, _⟩ := Thread.mk.inj (Option.some.inj (found.symm.trans found'))
  cases front with
  | cons y front =>
    obtain ⟨rfl, _⟩ := List.cons.inj split
    exact absurd rfl ((foreign _ List.mem_cons_self).subject?_ne i)
  | nil =>
    rw [List.nil_append] at split
    subst split
    cases stage with
    | begins own => cases own
    | performs phase runs =>
      cases runs with
      | draws | quits => exact ⟨rfl, fun sent asks => nomatch asks⟩
      | fires =>
        refine ⟨rfl, fun sent asks => ?_⟩
        cases asks
        rfl

omit [Strategy σ] in
/-- A timer that may still fire has work to do. -/
theorem Times.not_spent (times : w.Times i j info before) (prospect : before ≠ .spent) :
    ¬w.Spent i := by
  obtain ⟨core, event, front, base, _, mind, found, _, stage⟩ := times
  obtain ⟨awake, y, mem, own⟩ := stage.alive prospect
  rintro (⟨core', there, halted⟩ | idle)
  · obtain rfl := Option.some.inj ((core?_of_mind? mind).symm.trans there)
    rw [awake] at halted
    cases halted
  · have none := idle _ found y (List.mem_append_right _ mem)
    cases own.symm.trans none

/-- A timer does not notice what others do. -/
theorem Times.bystand (times : w.Times i j info before) (orderly : w.Orderly) (owned : w.Owned)
    (moved : w.stepThread? t = some w') (other : t ≠ .actor i) : w'.Times i j info before := by
  obtain ⟨core, event, front, base, outside, mind, found, foreign, stage⟩ := times
  have mind' : w'.mind? (.actor i) = some (core, event) := by
    refine mind?_stepThread? mind moved fun x rest outside there => ⟨fun minds => other ?_, fun _ => rfl⟩
    exact owned t _ there x List.mem_cons_self i (Task.actor?_of_minds minds)
  obtain ⟨x, rest, _, w₁, tasks, _, _, acts, _, rfl⟩ := orderly.step moved
  obtain ⟨⟨tasks', outside'⟩, found', same⟩ := acts.kept _ _ found
  refine ⟨core, event, front, base, outside', mind', ?_, foreign, stage⟩
  rw [w₁.thread?_setThread_ne (Ne.symm other), found', show tasks' = _ from same]

/-- A timer with its owner, and with nothing in its queue but what stops it. -/
structure Clock (w : World σ) (i j : Nat) (info : TimerInfo) (prospect : Timer.Prospect) : Prop where
  timer : w.isTimer i = true
  times : w.Times i j info prospect
  self : (w.core? (.actor i)).map (·.id) = some info.timer
  owner : w.actor? info.owner = some j
  apart : w.isTimer j = false
  letters : ∀ envelope ∈ (w.mailbox i).queue, envelope = ⟨.ofType Timer.stop, none⟩

/-- What is on its way to a timer stops it. -/
def Respects (w : World σ) : Prop :=
  ∀ t thread, w.thread? t = some thread → ∀ x ∈ thread.tasks, ∀ k event,
    x.posting? = some (k, event) → (w.core? (.actor k)).isSome = true ∧
      (w.isTimer k = true → x = .post k (.ofType Timer.stop))

omit [Strategy σ] in
private theorem exists_admitted? {x : Task} {envelope : Envelope}
    (arrives : w.arrival? i x = some envelope) :
    (∃ event, x.posting? = some (i, event)) ∧
      ∃ envelope', w.admitted? i envelope' = some envelope := by
  cases x <;> simp only [arrival?] at arrives <;> try cases arrives
  all_goals
    split at arrives
    · next same => exact ⟨⟨_, by rw [same]; rfl⟩, _, arrives⟩
    · cases arrives

omit [Strategy σ] in
/-- What arrives at a timer stops it. -/
theorem Respects.arrival (respects : w.Respects) {x : Task} {rest : List Task} {outside : Bool}
    (found : w.thread? t = some ⟨x :: rest, outside⟩) (timer : w.isTimer i = true)
    {envelope : Envelope} (arrives : w.arrival? i x = some envelope) :
    envelope = ⟨.ofType Timer.stop, none⟩ := by
  obtain ⟨⟨event, posts⟩, _⟩ := exists_admitted? arrives
  obtain rfl := (respects t _ found x List.mem_cons_self i event posts).2 timer
  simp only [arrival?, if_true, admitted?] at arrives
  split at arrives
  · split at arrives <;> cases arrives <;> rfl
  · cases arrives

/-- One step of anybody takes a timer along its course or leaves it where it is. -/
theorem Clock.step (clock : w.Clock i j info before) (orderly : w.Orderly)
    (explores : w.explores = true) (staffed : w.Staffed) (owned : w.Owned) (respects : w.Respects)
    (moved : w.stepThread? t = some w') :
    ∃ x rest outside after, w.thread? t = some ⟨x :: rest, outside⟩ ∧ w'.Clock i j info after ∧
      Timer.Turn w i x before after ∧ (t = .actor i → ∀ p, x.posting? = some p →
        p = (j, Timer.firing info) ∧ before = .firing ∧ after = .after info) := by
  have evolves := orderly.evolves (.does moved)
  obtain ⟨x, rest, outside, found, handles⟩ := staffed.handles orderly moved i
  have keeps : ∀ after, w'.Times i j info after → w'.Clock i j info after := by
    intro after times
    refine ⟨?_, times, ?_, actor?_evolve evolves clock.owner, ?_, fun envelope mem => ?_⟩
    · rw [isTimer_evolve evolves (core?_of_isTimer clock.timer), clock.timer]
    · obtain ⟨core, there, same⟩ := Option.map_eq_some_iff.1 clock.self
      obtain ⟨core', there', becomes⟩ := evolves.cores _ core there
      simp [there', becomes.id, same]
    · obtain ⟨⟨core, there, _⟩, _⟩ := actor?_eq_some.1 clock.owner
      rw [isTimer_evolve evolves (by simp [there]), clock.apart]
    · rcases handles.undergoes.mem_queue envelope mem with mem | mem
      · exact clock.letters envelope mem
      · simp only [traffic, Option.mem_toList] at mem
        exact respects.arrival found clock.timer mem
  by_cases mine : t = .actor i
  · subst mine
    obtain ⟨x', rest', outside', after, found', times, turn, posts⟩ :=
      clock.times.step orderly explores clock.owner clock.letters moved
    exact ⟨x', rest', outside', after, found', keeps after times, turn, fun _ => posts⟩
  · refine ⟨x, rest, outside, before, found, keeps before
      (clock.times.bystand orderly owned moved mine), .keeps _ ?_, fun same => absurd same mine⟩
    have other : x.worker? ≠ some i := fun own =>
      mine (staffed.own t _ found x List.mem_cons_self i own)
    cases x <;> first | rfl | skip
    next k =>
      have ne : k ≠ i := fun same => other (by rw [same]; rfl)
      simp [selection?, ne]

/-! ## Whole worlds -/

/-- Every timer is on its course, and what is on its way to it stops it. -/
structure Clockwork (w : World σ) : Prop where
  owned : w.Owned
  named : w.Named
  respects : w.Respects
  clocks : ∀ i, w.isTimer i = true → ∃ j info prospect, w.Clock i j info prospect

omit [Strategy σ] in
/-- Timers ask for nothing that reaches a timer. -/
theorem Clockwork.not_timer (clockwork : w.Clockwork) {x : Task} {rest : List Task} {outside : Bool}
    (found : w.thread? t = some ⟨x :: rest, outside⟩) {speaker : Speaker} {voice : Voice}
    {request : Request} {next : Answer → Program} (asks : x = .perform speaker (.ask voice request next))
    (timer : speaker.isTimer w = true) :
    request.creates = false ∧ ∀ sent, request.sent? = some sent →
      (w.actor? sent.1).any w.isTimer = false := by
  subst asks
  cases speaker with
  | test | sleeper => cases timer
  | action c phase =>
    cases c with
    | monitor m => cases timer
    | actor k =>
      obtain rfl := clockwork.owned t _ found _ List.mem_cons_self k rfl
      obtain ⟨j, info, prospect, clock⟩ := clockwork.clocks k timer
      obtain ⟨creates, sends⟩ := clock.times.asks found
      refine ⟨creates, fun sent asks => ?_⟩
      rw [sends sent asks, clock.owner]
      exact clock.apart

/-- An event that stops a timer is posted; nobody waits for it. -/
private theorem post_of_stopTimer {speaker : Speaker} {voice : Voice} {target : ActorId}
    {next : Answer → Program} {rest : List Task} {outside : Bool}
    (found : w.thread? t =
      some ⟨.perform speaker (.ask voice (.stopTimer target) next) :: rest, outside⟩)
    (moved : w.stepThread? t = some w') {thread : Thread} (now : w'.thread? t = some thread) :
    ∀ y ∈ thread.tasks, y ∈ rest ∨ ∀ k event, y.posting? = some (k, event) →
      y = .post k (.ofType Timer.stop) := by
  obtain ⟨x', rest', outside', found', steps⟩ := of_stepThread? moved
  cases found.symm.trans found'
  have silent : ∀ y : Task, y.posting? = none → ∀ k event, y.posting? = some (k, event) →
      y = .post k (.ofType Timer.stop) := fun y none k event posts => nomatch none.symm.trans posts
  rcases exec_ask found speaker voice (.stopTimer target) next with
    ⟨a, v, served, executed⟩ | ⟨tasks, v, before, served, executed⟩ <;>
    rcases steps with ⟨xs, u, old, executed', _, rfl⟩ | ⟨_, _, executed', _⟩ <;>
    cases executed.symm.trans executed' <;> rw [eq_of_thread?_setThread _ now]
  · exact List.forall_mem_cons.2 ⟨.inr (silent _ rfl), fun y mem => .inl mem⟩
  · simp only [service, serve] at served
    split at served
    · cases served
    · rcases w.serves_send _ target (.ofType Timer.stop) with ⟨r, refuses⟩ | ⟨k, _, sends⟩
      · cases refuses.symm.trans served
      · cases sends.symm.trans served
        refine List.forall_mem_append.2 ⟨?_, fun y mem => .inl mem⟩
        simp only [List.cons_append, List.nil_append, List.forall_mem_cons]
        refine ⟨.inr (silent _ rfl), .inr fun k event posts => ?_, .inr (silent _ rfl),
          .inr (silent _ rfl), .inr (silent _ rfl), by simp⟩
        cases posts
        rfl

/-- What is on its way to a timer goes on to stop it. -/
theorem Clockwork.respects_step (clockwork : w.Clockwork) (orderly : w.Orderly)
    (harmless : ∀ x rest outside, w.thread? t = some ⟨x :: rest, outside⟩ → x.meddles w = false)
    (moved : w.stepThread? t = some w') : w'.Respects := by
  have evolves := orderly.evolves (.does moved)
  -- what respected timers before does so now
  have still : ∀ (y : Task) (k : Nat), (w.core? (.actor k)).isSome = true ∧
      (w.isTimer k = true → y = .post k (.ofType Timer.stop)) →
      (w'.core? (.actor k)).isSome = true ∧
        (w'.isTimer k = true → y = .post k (.ofType Timer.stop)) := by
    rintro y k ⟨there, stops⟩
    refine ⟨?_, by rwa [isTimer_evolve evolves there]⟩
    obtain ⟨core, found⟩ := Option.isSome_iff_exists.1 there
    obtain ⟨core', found', _⟩ := evolves.cores _ core found
    simp [found']
  intro u thread now y mem k event posts
  obtain ⟨x, rest, outside, found, _⟩ := of_stepThread? moved
  by_cases mine : u = t
  · subst mine
    have below : ∀ z ∈ rest, ∀ k event, z.posting? = some (k, event) → _ := fun z mem k event posts =>
      still z k (clockwork.respects u _ found z (List.mem_cons_of_mem _ mem) k event posts)
    have plain : ∀ z : Task, z.isErrand = false → z.posting? = none := by
      intro z plain
      cases z <;> first | rfl | cases plain
    have leaves := leaves_of_stepThread? found moved now
    obtain ⟨tasks, outside'⟩ := thread
    simp only at leaves mem
    cases leaves with
    | goes each =>
      rcases List.mem_append.1 mem with mem | mem
      · cases (plain y (each y mem)).symm.trans posts
      · exact below y mem k event posts
    | installs =>
      rcases List.mem_append.1 mem with mem | mem
      · simp only [List.mem_cons, List.not_mem_nil, or_false] at mem
        rcases mem with rfl | rfl | rfl | rfl <;> cases posts
      · exact below y mem k event posts
    | resumes program suffix =>
      rcases List.mem_cons.1 mem with rfl | mem
      · cases posts
      · exact below y (suffix.subset (List.mem_cons_of_mem _ mem)) k event posts
    | retires =>
      obtain rfl := List.mem_singleton.1 mem
      cases posts
    | ends => cases mem
    | accesses asks access =>
      rcases List.mem_append.1 mem with mem | mem
      · simp only [List.mem_cons, List.not_mem_nil, or_false] at mem
        rcases mem with rfl | rfl | rfl <;> cases posts
      · exact below y mem k event posts
    | @sends i target sentEvent z xs speaker voice request next asks sent aimed posts' each =>
      simp only [List.cons_append, List.mem_cons, List.mem_append] at mem
      rcases mem with rfl | rfl | mem | mem
      · cases posts
      · obtain ⟨rfl, rfl⟩ := Prod.mk.inj (Option.some.inj (posts'.symm.trans posts))
        obtain ⟨⟨core, there, _⟩, _⟩ := actor?_eq_some.1 aimed
        refine still _ _ ⟨by simp [there], fun timer => ?_⟩
        have reached : (w.actor? target).any w.isTimer = true := by simp [aimed, timer]
        have innocent := harmless x rest outside found
        have other : speaker.isTimer w = false := by
          by_contra same
          have avoided := (clockwork.not_timer found asks (by simpa using same)).2 _ sent
          rw [reached] at avoided
          cases avoided
        subst asks
        simp only [Task.meddles, other, Bool.not_false, Bool.true_and] at innocent
        cases request
        case send | sendAndExecute =>
          cases sent
          cases reached.symm.trans innocent
        case stopTimer =>
          cases sent
          rcases post_of_stopTimer found moved now y (by simp) with mem | stops
          · exact (clockwork.respects u _ found y (List.mem_cons_of_mem _ mem) _ _ posts).2 timer
          · exact stops _ _ posts
        all_goals cases sent
      · cases (plain y (each y mem)).symm.trans posts
      · exact below y mem k event posts
  · rcases orderly.bystander moved mine now with ⟨old, was, same⟩ | ⟨_, n, fresh | fresh⟩
    · exact still y k (clockwork.respects u old was y (same ▸ mem) k event posts)
    all_goals
      rw [fresh, List.mem_singleton] at mem
      subst mem
      cases posts

omit [Strategy σ] in
/-- Whoever is created as a timer is the built-in one. -/
theorem machine?_explored {r : Registry} (accepted : r.Accepted) :
    r.machine? Timer.explored = some Timer.exploredMachine := by
  obtain ⟨types, _, built⟩ := accepted
  unfold Registry.build at built
  simp only at built
  split at built <;> cases built
  rfl

/-- A new timer was started by its owner, and it is at the beginning of its course. -/
theorem Clockwork.starts (clockwork : w.Clockwork) (orderly : w.Orderly)
    (harmless : ∀ x rest outside, w.thread? t = some ⟨x :: rest, outside⟩ → x.meddles w = false)
    (moved : w.stepThread? t = some w') (new : w.isTimer i = false) (timer : w'.isTimer i = true) :
    ∃ j info phase next rest outside, w.thread? t = some ⟨.perform (.action (.actor j) phase)
        (.ask .own (.startTimer info.period info.periodic) next) :: rest, outside⟩ ∧
      w.actors.length = i ∧ (w.core? (.actor j)).map (·.id) = some info.owner ∧
      w'.Clock i j info .waiting := by
  have evolves := orderly.evolves (.does moved)
  obtain ⟨x, rest, outside, found, _⟩ := of_stepThread? moved
  obtain ⟨core', now⟩ := Option.isSome_iff_exists.1 (core?_of_isTimer timer)
  have absent : w.core? (.actor i) = none := by
    cases was : w.core? (.actor i) with
    | none => rfl
    | some core =>
      rw [isTimer_evolve evolves (by simp [was]), new] at timer
      cases timer
  have mind : w.mind? (.actor i) = none := by simpa [mind?, core?] using absent
  have mind' : (w'.mind? (.actor i)).isSome = true := by
    obtain ⟨a, there, _⟩ := Option.map_eq_some_iff.1 now
    simp [mind?, there]
  obtain ⟨speaker, voice, request, next, typeTag, event, asks, cause, v, creates, thread, rfl⟩ :=
    creates_of_stepThread? orderly.fit clockwork.owned found moved mind mind'
  have there := now
  rw [core?_setThread] at there
  obtain rfl := creates.position absent there
  obtain ⟨d, a, offered, added, free, fresh, mailbox, begins, first⟩ := creates
  obtain rfl : core' = a.core := by simpa [core?, added] using there.symm
  -- what is created is the built-in timer
  have same : d.typeTag = typeTag := by
    have is := List.find?_some offered
    simp only [Bool.and_eq_true, beq_iff_eq] at is
    exact is.2
  obtain rfl : typeTag = Timer.explored := by
    simp only [isTimer, now, Option.any_some, beq_iff_eq] at timer
    rw [fresh] at timer
    exact same.symm.trans timer
  obtain rfl := Option.some.inj (offered.symm.trans (machine?_explored orderly.fit.registry))
  have creates : request.creates = true := by
    rcases cause with ⟨_, _, rfl⟩ | ⟨_, _, _, _, _, rfl, _⟩ <;> rfl
  have other : speaker.isTimer w = false := by
    by_contra same
    have avoided := (clockwork.not_timer found asks (by simpa using same)).1
    rw [creates] at avoided
    cases avoided
  have innocent := harmless x rest outside found
  subst asks
  rcases cause with ⟨name, execute, rfl⟩ | ⟨period, periodic, j, core, phase, rfl, rfl, _, rfl, owner, rfl⟩
  · simp [Task.meddles, other, Request.meddles] at innocent
  · have apart : t ≠ .actor w.actors.length := by
      rintro rfl
      simp [thread?] at found
    refine ⟨j, ⟨a.core.id, core.id, period, periodic⟩, phase, next, rest, outside, found, rfl,
      by simp [owner], timer, ?_, by simp [now],
      actor?_evolve evolves (clockwork.named j core owner), ?_, ?_⟩
    · refine ⟨Timer.asleep ⟨a.core.id, core.id, period, periodic⟩, some _, [],
        [.firstTurn w.actors.length], false, ?_, ?_, by simp, .begins rfl⟩
      · rw [mind?_setThread]
        simp only [mind?, added, List.getElem?_concat_length, Option.map_some, begins]
        rw [fresh]
        rfl
      · rw [v.thread?_setThread_ne apart.symm]
        simp [thread?, added, first]
    · rw [isTimer_evolve evolves (by simp [owner])]
      exact other
    · rw [mailbox_setThread]
      simp [World.mailbox, added, mailbox]

/-- Timers stay on their courses, whoever moves. -/
theorem Clockwork.step (clockwork : w.Clockwork) (orderly : w.Orderly) (explores : w.explores = true)
    (staffed : w.Staffed)
    (harmless : ∀ x rest outside, w.thread? t = some ⟨x :: rest, outside⟩ → x.meddles w = false)
    (moved : w.stepThread? t = some w') : w'.Clockwork where
  owned := clockwork.owned.step orderly moved
  named := clockwork.named.step orderly clockwork.owned moved
  respects := clockwork.respects_step orderly harmless moved
  clocks i timer := by
    cases was : w.isTimer i with
    | true =>
      obtain ⟨j, info, before, clock⟩ := clockwork.clocks i was
      obtain ⟨_, _, _, after, _, clock', _⟩ :=
        clock.step orderly explores staffed clockwork.owned clockwork.respects moved
      exact ⟨j, info, after, clock'⟩
    | false =>
      obtain ⟨j, info, _, _, _, _, _, _, _, clock⟩ :=
        clockwork.starts orderly harmless moved was timer
      exact ⟨j, info, .waiting, clock⟩

omit [Strategy σ] in
/-- As long as nothing has happened there is no timer. -/
theorem Clockwork.initial (controller : Controller σ) (registry : Registry) (policy : DequeuePolicy)
    (ids : Allocator) (test : Program) :
    (World.new controller registry policy ids test).Clockwork where
  owned t thread found x mem i own := by
    cases t with
    | driver =>
      obtain rfl := Option.some.inj found
      obtain rfl := List.mem_singleton.1 mem
      cases own
    | actor | sleeper => cases found
  named j core found := nomatch found
  respects t thread found x mem k event posts := by
    cases t with
    | driver =>
      obtain rfl := Option.some.inj found
      obtain rfl := List.mem_singleton.1 mem
      cases posts
    | actor | sleeper => cases found
  clocks i timer := nomatch timer

/-! ## Steps of an explored run -/

/-- While decisions are explored every step is taken by a thread. -/
theorem stepThread?_of_step? (explores : w.explores = true) (moved : w.step? = some w') :
    ∃ t, w.mover? = some t ∧ w.stepThread? t = some w' := by
  rcases of_step? moved with moves | ⟨unmoved, clock, rfl⟩
  · exact moves
  · exfalso
    unfold mover? at unmoved
    unfold step? at moved
    split at moved
    · next running => simp [running] at unmoved
    · next running =>
      rw [if_neg running] at unmoved
      have ceased : w.isOver = true := by simpa [explores] using running
      have still : w.threads.findSome? w.stepThread? = none := by
        simpa [List.findSome?_eq_none_iff] using unmoved
      rw [still] at moved
      simp [ceased] at moved

/-- The event that an actor posts in the next step, with the position of whom it is for. -/
def posts? (w : World σ) (i : Nat) : Option (Nat × Event) :=
  (w.does? (.actor i)).bind (·.posting?)

theorem thread?_of_posts? (posts : (w.posts? i).isSome = true) :
    (w.thread? (.actor i)).isSome = true := by
  obtain ⟨p, posting⟩ := Option.isSome_iff_exists.1 posts
  obtain ⟨x, does, _⟩ := Option.bind_eq_some_iff.1 posting
  obtain ⟨_, rest, outside, found⟩ := thread_of_does? does
  simp [found]

/-- Only actors accept events. -/
theorem thread?_of_accepted {envelope : Envelope} (mem : envelope ∈ (w.onward i).accepted) :
    (w.thread? (.actor i)).isSome = true := by
  obtain ⟨x, arrives⟩ : ∃ x, w.arrival? i x = some envelope := by
    unfold onward at mem
    split at mem
    · exact ⟨_, by simpa [traffic] using mem⟩
    · cases mem
  obtain ⟨_, _, admitted⟩ := exists_admitted? arrives
  unfold admitted? at admitted
  split at admitted
  · next found => simp [thread?, found]
  · cases admitted

end World

namespace Experiment

variable [Strategy σ]

/-- In a run nobody but a timer's owner, by starting and stopping it, reaches the timer. -/
def SparesTimers (e : Experiment) (ids : Allocator) (s : σ) : Prop :=
  ∀ n, (e.iterate n ids s).upcoming?.all (fun x => !x.meddles (e.iterate n ids s)) = true

variable {e : Experiment} (accepted : e.registry.Accepted) {ids : Allocator} {s : σ}

include accepted

theorem explores_iterate (n : Nat) : (e.iterate n ids s).explores = true := by
  have steers := (e.evolves accepted ids s (Nat.zero_le n)).controller
  simp only [World.explores, Controller.explores, steers.mode]
  rfl

variable (spares : e.SparesTimers ids s)

include spares

omit accepted in
theorem harmless (n : Nat) {t : ThreadId} (moves : (e.iterate n ids s).mover? = some t) :
    ∀ x rest outside, (e.iterate n ids s).thread? t = some ⟨x :: rest, outside⟩ →
      x.meddles (e.iterate n ids s) = false := by
  intro x rest outside found
  have next : (e.iterate n ids s).upcoming? = some x := by simp [World.upcoming?, moves, found]
  simpa [next] using spares n

theorem clockwork (n : Nat) : (e.iterate n ids s).Clockwork := by
  induction n with
  | zero => exact .initial _ _ _ _ _
  | succ n ih =>
    rw [e.iterate_succ]
    cases moved : (e.iterate n ids s).step? with
    | none => exact ih
    | some w' =>
      have explores : (e.iterate n ids s).explores = true := explores_iterate accepted n
      obtain ⟨t, moves, does⟩ := World.stepThread?_of_step? explores moved
      exact ih.step ((e.reached n ids s).orderly accepted) explores (e.staffed accepted ids s n)
        (harmless spares n moves) does

/-- What one step of a run does to a timer. A timer whose queue is not empty does not get to fire
again, unless events are left in it that could be handled. -/
theorem clock_succ {n i j : Nat} {info : TimerInfo} {before : Timer.Prospect}
    (clock : (e.iterate n ids s).Clock i j info before) :
    ∃ after, (e.iterate (n + 1) ids s).Clock i j info after ∧ (before = .spent → after = .spent) ∧
      (∀ p, (e.iterate n ids s).posts? i = some p →
        p = (j, Timer.firing info) ∧ before = .firing ∧ after = .after info) ∧
      (e.settings.runtime.dequeuePolicy = .firstNonDeferred →
        ((e.iterate n ids s).mailbox i).queue ≠ [] → after ≠ .spent →
          ((e.iterate (n + 1) ids s).mailbox i).queue ≠ [] ∧ (before = .waiting → after = .waiting)) := by
  have succ := e.iterate_succ ids s n
  cases moved : (e.iterate n ids s).step? with
  | none =>
    rw [moved] at succ
    rw [succ]
    exact ⟨before, clock, id, by simp [World.posts?, World.does?, moved], fun _ queued _ => ⟨queued, id⟩⟩
  | some w' =>
    rw [moved, Option.getD_some] at succ
    rw [succ]
    have orderly := (e.reached n ids s).orderly accepted
    have staffed := e.staffed accepted ids s n
    have works := clockwork accepted spares n
    obtain ⟨t, moves, does⟩ :=
      World.stepThread?_of_step? (explores_iterate accepted n) moved
    obtain ⟨x, rest, outside, after, found, clock', turn, posts⟩ := clock.step orderly
      (explores_iterate accepted n) staffed works.owned works.respects does
    obtain ⟨x', _, _, found', handles⟩ := staffed.handles orderly does i
    cases found.symm.trans found'
    refine ⟨after, clock', ?_, fun p posting => ?_, fun policy queued alive => ?_⟩
    · rintro rfl
      cases turn <;> rfl
    · -- what it posts it posts in its own thread
      rw [World.posts?, World.does?_of_step? moved moves found] at posting
      split at posting
      · next mine => exact posts mine.symm p posting
      · cases posting
    · have fixed : (e.iterate n ids s).policy = .firstNonDeferred :=
        ((e.evolves accepted ids s (Nat.zero_le n)).policy).trans policy
      have unselected : (e.iterate n ids s).selection? i x = none := by
        cases turn with
        | keeps _ unselected | misses unselected => exact unselected
        | ends => exact absurd rfl alive
        | tries empty => exact absurd (empty fixed) queued
      have undrained : (e.iterate n ids s).drained w' i = [] := by
        unfold World.drained
        split
        · next closes => exact absurd (handles.spent closes.1 closes.2) (clock'.times.not_spent alive)
        · rfl
      have balance := handles.undergoes.length_queue
      simp only [World.traffic, unselected, undrained, Option.map_none, Option.getD_none,
        Option.bind_none, Option.toList_none, List.length_nil] at balance
      refine ⟨fun empty => ?_, ?_⟩
      · rw [empty, List.length_nil] at balance
        exact queued (List.length_eq_zero_iff.1 (by omega))
      · rintro rfl
        cases turn with
        | keeps => rfl
        | ends => exact absurd rfl alive
        | tries empty => exact absurd (empty fixed) queued

/-- Once a timer is on its course it stays there. -/
theorem clock_of_le {m n i j : Nat} {info : TimerInfo} (le : m ≤ n)
    (clock : ∃ prospect, (e.iterate m ids s).Clock i j info prospect) :
    ∃ prospect, (e.iterate n ids s).Clock i j info prospect := by
  induction le with
  | refl => exact clock
  | step _ ih =>
    obtain ⟨before, clock⟩ := ih
    obtain ⟨after, clock', _⟩ := clock_succ accepted spares clock
    exact ⟨after, clock'⟩

/-- A timer that is spent stays so. -/
theorem spent_of_le {m n i j : Nat} {info : TimerInfo} (le : m ≤ n)
    (spent : (e.iterate m ids s).Clock i j info .spent) :
    (e.iterate n ids s).Clock i j info .spent := by
  induction le with
  | refl => exact spent
  | step _ ih =>
    obtain ⟨after, clock, stays, _⟩ := clock_succ accepted spares ih
    exact stays rfl ▸ clock

section

variable (policy : e.settings.runtime.dequeuePolicy = .firstNonDeferred) {m n i j : Nat}
  {info : TimerInfo}

include policy

/-- A timer that is to be stopped is spent, or its queue is not empty. -/
theorem stopping_of_le (le : m ≤ n)
    (stopping : (e.iterate m ids s).Clock i j info .spent ∨
      ((e.iterate m ids s).mailbox i).queue ≠ [] ∧
        ∃ prospect, (e.iterate m ids s).Clock i j info prospect) :
    (e.iterate n ids s).Clock i j info .spent ∨
      ((e.iterate n ids s).mailbox i).queue ≠ [] ∧
        ∃ prospect, (e.iterate n ids s).Clock i j info prospect := by
  induction le with
  | refl => exact stopping
  | step _ ih =>
    rcases ih with spent | ⟨queued, before, clock⟩
    · exact .inl (spent_of_le accepted spares (Nat.le_succ _) spent)
    · obtain ⟨after, clock', _, _, stops⟩ := clock_succ accepted spares clock
      by_cases spent : after = .spent
      · exact .inl (spent ▸ clock')
      · exact .inr ⟨(stops policy queued spent).1, after, clock'⟩

/-- A timer that is to be stopped does not get to fire again. -/
theorem resting_of_le (le : m ≤ n)
    (resting : (e.iterate m ids s).Clock i j info .spent ∨
      ((e.iterate m ids s).mailbox i).queue ≠ [] ∧ (e.iterate m ids s).Clock i j info .waiting) :
    (e.iterate n ids s).Clock i j info .spent ∨
      ((e.iterate n ids s).mailbox i).queue ≠ [] ∧ (e.iterate n ids s).Clock i j info .waiting := by
  induction le with
  | refl => exact resting
  | step _ ih =>
    rcases ih with spent | ⟨queued, clock⟩
    · exact .inl (spent_of_le accepted spares (Nat.le_succ _) spent)
    · obtain ⟨after, clock', _, _, stops⟩ := clock_succ accepted spares clock
      by_cases spent : after = .spent
      · exact .inl (spent ▸ clock')
      · obtain ⟨queued', waits⟩ := stops policy queued spent
        exact .inr ⟨queued', waits rfl ▸ clock'⟩

end

end Experiment

/-! ## The law of timers -/

/-- In the step after the first `m` steps of a run the actor at position `j` starts the timer that is
at position `i` from then on. -/
structure Experiment.StartsTimer [Strategy σ] (e : Experiment) (ids : Allocator) (s : σ) (m i j : Nat)
    (info : TimerInfo) : Prop where
  asks : ∃ phase next, (e.iterate m ids s).upcoming? = some (.perform (.action (.actor j) phase)
    (.ask .own (.startTimer info.period info.periodic) next))
  new : (e.iterate m ids s).actors.length = i
  self : ((e.iterate (m + 1) ids s).core? (.actor i)).map (·.id) = some info.timer
  owner : ((e.iterate m ids s).core? (.actor j)).map (·.id) = some info.owner

namespace Experiment

variable [Strategy σ] {e : Experiment} {ids : Allocator} {s : σ}

/-- Every timer was started, and it is on its course from then on. -/
theorem starts_of_isTimer (accepted : e.registry.Accepted) (spares : e.SparesTimers ids s)
    {i k : Nat} (timer : (e.iterate k ids s).isTimer i = true) :
    ∃ m j info, e.StartsTimer ids s m i j info ∧ (e.iterate (m + 1) ids s).Clock i j info .waiting := by
  induction k with
  | zero => cases timer
  | succ k ih =>
    cases was : (e.iterate k ids s).isTimer i with
    | true => exact ih was
    | false =>
      have succ := e.iterate_succ ids s k
      cases moved : (e.iterate k ids s).step? with
      | none =>
        rw [moved] at succ
        rw [succ] at timer
        cases was.symm.trans timer
      | some w' =>
        rw [moved, Option.getD_some] at succ
        rw [succ] at timer
        obtain ⟨t, moves, does⟩ :=
          World.stepThread?_of_step? (explores_iterate accepted k) moved
        obtain ⟨j, info, phase, next, rest, outside, found, new, owner, clock⟩ :=
          (clockwork accepted spares k).starts ((e.reached k ids s).orderly accepted)
            (harmless spares k moves) does was timer
        refine ⟨k, j, info, ⟨⟨phase, next, ?_⟩, new, ?_, owner⟩, ?_⟩
        · simp [World.upcoming?, moves, found]
        · rw [succ]
          exact clock.self
        · rw [succ]
          exact clock

/-- Nobody is at the position of a timer before it is started. -/
theorem StartsTimer.lt_of_thread? (accepted : e.registry.Accepted) {m n i j : Nat} {info : TimerInfo}
    (starts : e.StartsTimer ids s m i j info)
    (there : ((e.iterate n ids s).thread? (.actor i)).isSome = true) : m < n := by
  by_contra early
  obtain ⟨a, was, _⟩ := Option.map_eq_some_iff.1 (Option.isSome_iff_exists.1 there).choose_spec
  obtain ⟨core, found, _⟩ := (e.evolves accepted ids s (Nat.le_of_not_lt early)).cores (.actor i)
    a.core (by simp [World.core?, was])
  obtain ⟨b, is, _⟩ := Option.map_eq_some_iff.1 found
  exact absurd starts.new (Nat.ne_of_gt (List.getElem?_eq_some_iff.1 is).1)

section

variable (accepted : e.registry.Accepted) (spares : e.SparesTimers ids s) {n n' l i j : Nat}
  {info : TimerInfo}

include accepted spares

/-- Only a timer that is firing posts an event. -/
theorem firing_of_posts? {before : Timer.Prospect}
    (posts : ((e.iterate n ids s).posts? i).isSome = true)
    (clock : (e.iterate n ids s).Clock i j info before) :
    before = .firing ∧ (e.iterate (n + 1) ids s).Clock i j info (.after info) := by
  obtain ⟨p, posting⟩ := Option.isSome_iff_exists.1 posts
  obtain ⟨after, clock', _, tells, _⟩ := clock_succ accepted spares clock
  obtain ⟨_, firing, rfl⟩ := tells p posting
  exact ⟨firing, clock'⟩

/-- A timer that is spent posts nothing. -/
theorem not_posts?_of_spent (le : n ≤ n') (spent : (e.iterate n ids s).Clock i j info .spent) :
    ¬((e.iterate n' ids s).posts? i).isSome = true := fun posts =>
  nomatch (firing_of_posts? accepted spares posts (spent_of_le accepted spares le spent)).1

/-- A timer that is not periodic posts nothing after its first event. -/
theorem not_posts?_of_single (single : info.periodic = false) (lt : n < n')
    (clock : ∃ before, (e.iterate n ids s).Clock i j info before)
    (posts : ((e.iterate n ids s).posts? i).isSome = true) :
    ¬((e.iterate n' ids s).posts? i).isSome = true := by
  obtain ⟨before, clock⟩ := clock
  have spent := (firing_of_posts? accepted spares posts clock).2
  rw [Timer.Prospect.after, if_neg (by simp [single])] at spent
  exact not_posts?_of_spent accepted spares lt spent

/-- A timer posts nothing after the first event that it posts when it is to be stopped. -/
theorem not_posts?_of_stopping (policy : e.settings.runtime.dequeuePolicy = .firstNonDeferred)
    (stopping : (e.iterate l ids s).Clock i j info .spent ∨
      ((e.iterate l ids s).mailbox i).queue ≠ [] ∧
        ∃ prospect, (e.iterate l ids s).Clock i j info prospect)
    (le : l ≤ n) (lt : n < n') (posts : ((e.iterate n ids s).posts? i).isSome = true) :
    ¬((e.iterate n' ids s).posts? i).isSome = true := by
  rcases stopping_of_le accepted spares policy le stopping with spent | ⟨queued, before, clock⟩
  · exact absurd posts (not_posts?_of_spent accepted spares (Nat.le_refl _) spent)
  obtain ⟨rfl, again⟩ := firing_of_posts? accepted spares posts clock
  obtain ⟨after, _, _, tells, stays⟩ := clock_succ accepted spares clock
  obtain ⟨p, posting⟩ := Option.isSome_iff_exists.1 posts
  obtain ⟨_, _, rfl⟩ := tells p posting
  by_cases periodic : info.periodic = true
  · have waits : Timer.Prospect.after info = .waiting := if_pos periodic
    rw [waits] at again stays
    intro posts'
    rcases resting_of_le accepted spares policy lt (.inr ⟨(stays policy queued nofun).1, again⟩)
      with spent | ⟨_, waiting⟩
    · exact not_posts?_of_spent accepted spares (Nat.le_refl _) spent posts'
    · cases (firing_of_posts? accepted spares posts' waiting).1
  · rw [Timer.Prospect.after, if_neg periodic] at again
    exact not_posts?_of_spent accepted spares lt again

end

/-- Who never acts again after it has acted acts at most once. -/
private theorem eq_of_not_again {P Q : Nat → Prop}
    (again : ∀ n n', P n → n < n' → Q n → ¬Q n') {n n' : Nat} (here : P n) (there : P n')
    (now : Q n) (then_ : Q n') : n = n' := by
  rcases Nat.lt_trichotomy n n' with lt | same | lt
  · exact absurd then_ (again n n' here lt now)
  · exact same
  · exact absurd now (again n' n there lt then_)

/-- Timers fire as they were asked to and stop when they are told. In every explored run in which
nobody reaches a timer but by starting and stopping it, every timer was started by its owner; each
event that it posts goes to its owner and tells the timer, the owner, the period and whether it is
periodic; a timer that is not periodic posts at most one; and if events are not left in a queue that
could be handled, a timer posts at most one after it has accepted an event that stops it. -/
theorem fires_as_asked (e : Experiment) (accepted : e.registry.Accepted) (ids : Allocator) (s : σ)
    (spares : e.SparesTimers ids s) {i k : Nat} (timer : (e.iterate k ids s).isTimer i = true) :
    ∃ m j info, e.StartsTimer ids s m i j info ∧
      (∀ n p, (e.iterate n ids s).posts? i = some p → m < n ∧ p = (j, Timer.firing info)) ∧
      (info.periodic = false → ∀ n n', ((e.iterate n ids s).posts? i).isSome →
        ((e.iterate n' ids s).posts? i).isSome → n = n') ∧
      (e.settings.runtime.dequeuePolicy = .firstNonDeferred →
        ∀ l, ∀ envelope ∈ (e.traffic ids s i l).accepted, envelope.event.type = Timer.stop →
          ∀ n n', l < n → l < n' → ((e.iterate n ids s).posts? i).isSome →
            ((e.iterate n' ids s).posts? i).isSome → n = n') := by
  obtain ⟨m, j, info, starts, clock⟩ := starts_of_isTimer accepted spares timer
  have clocks : ∀ n, m < n → ∃ prospect, (e.iterate n ids s).Clock i j info prospect := fun n lt =>
    clock_of_le accepted spares lt ⟨_, clock⟩
  have later : ∀ n, ((e.iterate n ids s).posts? i).isSome = true → m < n := fun n posts =>
    starts.lt_of_thread? accepted (World.thread?_of_posts? posts)
  refine ⟨m, j, info, starts, fun n p posting => ?_, fun single n n' => ?_,
    fun policy l envelope mem stops n n' => ?_⟩
  · have posts : ((e.iterate n ids s).posts? i).isSome = true := by simp [posting]
    obtain ⟨before, clock⟩ := clocks n (later n posts)
    obtain ⟨_, _, _, tells, _⟩ := clock_succ accepted spares clock
    exact ⟨later n posts, (tells p posting).1⟩
  · exact eq_of_not_again (P := fun _ => True) (fun n n' _ lt posts =>
      not_posts?_of_single accepted spares single lt (clocks n (later n posts)) posts) trivial trivial
  · -- what it has accepted is left in its queue until it is spent
    have undergoes := ((e.staffed accepted ids s l).onward ((e.reached l ids s).orderly accepted) i).1
    rw [← e.iterate_succ] at undergoes
    have started : m < l + 1 :=
      Nat.lt_succ_of_lt (starts.lt_of_thread? accepted (World.thread?_of_accepted mem))
    exact eq_of_not_again (P := (l < ·)) fun n n' lt lt' =>
      not_posts?_of_stopping accepted spares policy
        (.inr ⟨undergoes.queue_ne_nil mem, clocks _ started⟩) lt lt'

private def waiting : StateDescriptor :=
  ⟨"Init", true, none, some fun o =>
    .ask .own (.startTimer 10 true) fun
      | .ok (.actor timer) => .ask .own (.stopTimer timer) fun _ => .finish o.memory .ok
      | _ => .finish o.memory .ok, none, [(Timer.elapsed, .ignore)]⟩

/-- A machine that starts a timer and stops it. -/
private def hasty : Declaration :=
  { typeTag := "Owner", kind := .machine, inherited := [], observes := [], derived := [waiting] }

private def hastyDescriptor : Descriptor := ⟨"Owner", .machine, [waiting], waiting, []⟩

/-- The test creates the machine. -/
def hastening (policy : DequeuePolicy) : Experiment where
  settings := { Settings.exploration with runtime := { dequeuePolicy := policy } }
  registry := ⟨Timer.descriptors ++ [hastyDescriptor]⟩
  test := .ask .own (.create "Owner" none none false) fun _ => .finish {} .ok

/-- The timer has found its queue empty when it is told to stop. From then on it fires whenever it is
asked. -/
def stoppedLate : ScriptedStrategy :=
  .ofAnswers [.ok 1, .ok 2, .ok 1, .ok 1, .ok 2, .ok 2, .ok 2, .ok 2, .ok 2]

private theorem accepted_hastening (policy : DequeuePolicy) :
    (hastening policy).registry.Accepted := by
  have built : hasty.build = .ok hastyDescriptor :=
    Declaration.build_of_plain (by decide) rfl rfl rfl rfl rfl
  exact ⟨[hastyDescriptor], by simpa using ⟨hasty, built⟩, rfl⟩

/-- In a run that comes to a stop only finitely many steps can reach a timer. -/
private theorem sparesTimers_of_stuck {m : Nat} (stuck : (e.iterate m ids s).step? = none)
    (each : ∀ n < m + 1,
      (e.iterate n ids s).upcoming?.all (fun x => !x.meddles (e.iterate n ids s)) = true) :
    e.SparesTimers ids s := by
  intro n
  rcases Nat.lt_or_ge n (m + 1) with lt | le
  · exact each n lt
  · rw [iterate_of_stuck e stuck (Nat.le_of_succ_le le)]
    exact each m (Nat.lt_succ_self m)

private theorem sparesTimers_hastening :
    (hastening .firstNonDeferred).SparesTimers ⟨0, 0⟩ stoppedLate :=
  sparesTimers_of_stuck (m := 60) rfl (by decide +kernel)

/-- The timer fires once more after it was told to stop. -/
theorem fires_as_asked_hastening :
    ((hastening .firstNonDeferred).traffic ⟨0, 0⟩ stoppedLate 1 22).accepted.map (·.event.type) =
        [Timer.stop] ∧
      ((hastening .firstNonDeferred).iterate 36 ⟨0, 0⟩ stoppedLate).posts? 1 ≠ none ∧
      ∀ n, 22 < n → ((hastening .firstNonDeferred).iterate n ⟨0, 0⟩ stoppedLate).posts? 1 ≠ none →
        n = 36 := by
  have posts : ((hastening .firstNonDeferred).iterate 36 ⟨0, 0⟩ stoppedLate).posts? 1 ≠ none := by
    decide +kernel
  obtain ⟨m, j, info, _, _, _, stops⟩ := fires_as_asked (hastening .firstNonDeferred)
    (accepted_hastening _) ⟨0, 0⟩ stoppedLate sparesTimers_hastening (i := 1) (k := 36)
    (by decide +kernel)
  refine ⟨rfl, posts, fun n later again => ?_⟩
  exact stops rfl 22 ⟨.ofType Timer.stop, none⟩ (List.mem_singleton_self _) rfl n 36 later (by decide)
    (Option.isSome_iff_ne_none.2 again) (Option.isSome_iff_ne_none.2 posts)

/-- If events are left in a queue that could be handled, so is the one that stops a timer: it fires
again and again. -/
theorem fires_after_stop :
    (hastening .firstUnhandled).registry.Accepted ∧
      (hastening .firstUnhandled).SparesTimers ⟨0, 0⟩ stoppedLate ∧
      ((hastening .firstUnhandled).iterate 22 ⟨0, 0⟩ stoppedLate).isTimer 1 = true ∧
      ((hastening .firstUnhandled).traffic ⟨0, 0⟩ stoppedLate 1 22).accepted.map (·.event.type) =
        [Timer.stop] ∧
      ((hastening .firstUnhandled).iterate 36 ⟨0, 0⟩ stoppedLate).posts? 1 ≠ none ∧
      ((hastening .firstUnhandled).iterate 51 ⟨0, 0⟩ stoppedLate).posts? 1 ≠ none :=
  ⟨accepted_hastening _, sparesTimers_of_stuck (m := 70) rfl (by decide +kernel), rfl, rfl,
    by decide +kernel, by decide +kernel⟩

end Experiment

end SteeredActors
