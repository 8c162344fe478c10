import SteeredActors.Proofs.World.Traffic

/-!
# Nothing that a mailbox accepts gets lost

In every explored run, after its end as before it, the mailbox of an actor undergoes one step after
the other, and its traffic tells which. So there is a logbook of all that it has accepted, and the
logbook balances at all times.
-/

set_option autoImplicit false
set_option relaxedAutoImplicit false

namespace SteeredActors

variable {σ : Type}

namespace World

/-! ## The work of actors -/

/-- An actor whose interpreter has halted or that has no work of its own any more. -/
def Spent (w : World σ) (i : Nat) : Prop :=
  (∃ core, w.core? (.actor i) = some core ∧ core.halted = true) ∨
    ∀ thread, w.thread? (.actor i) = some thread → ∀ x ∈ thread.tasks, x.worker? = none

/-- Actors do their own work, one piece at a time, until their mailboxes are closed. -/
structure Staffed (w : World σ) : Prop where
  own : ∀ t thread, w.thread? t = some thread → ∀ x ∈ thread.tasks, ∀ i, x.worker? = some i →
    t = .actor i
  once : ∀ t thread, w.thread? t = some thread → thread.tasks.countP (·.worker?.isSome) ≤ 1
  spent : ∀ i, (w.mailbox i).status = .halted → w.Spent i
  tidy : ∀ i, (w.mailbox i).status = .halted → (w.mailbox i).queue = []

/-- One step of the mailbox of an actor. -/
structure Handles (w w' : World σ) (i : Nat) (x : Task) : Prop where
  undergoes : (w.mailbox i).Undergoes (w.traffic w' i x) (w'.mailbox i)
  spent : (w.mailbox i).status ≠ .halted → (w'.mailbox i).status = .halted → w'.Spent i
  /-- What is dispatched is handled next. -/
  hands : ∀ envelope ∈ (w.traffic w' i x).dispatched, ∃ thread,
    w'.thread? (.actor i) = some thread ∧
      thread.tasks.head? = some (.handle (.actor i) envelope.event envelope.rendezvous)

variable {w w' : World σ} {i : Nat} {x : Task}

/-- The work that an actor has left when it does a piece of it. -/
theorem Staffed.rest (h : w.Staffed) {t : ThreadId} {rest : List Task} {outside : Bool}
    (found : w.thread? t = some ⟨x :: rest, outside⟩) (own : x.worker? = some i) :
    ∀ y ∈ rest, y.worker? = none := by
  have once := h.once t _ found
  simp only [List.countP_cons, own, Option.isSome_some, if_true] at once
  have none : rest.countP (·.worker?.isSome) = 0 := by omega
  simpa using List.countP_eq_zero.1 none

private theorem Handles.of_rests (queue : (w'.mailbox i).queue = (w.mailbox i).queue)
    (status : (w'.mailbox i).status = .halted ↔ (w.mailbox i).status = .halted)
    (unopened : w.arrival? i x = none) (unselected : w.selection? i x = none) :
    w.Handles w' i x := by
  have still : w.traffic w' i x = {} := by
    simp only [traffic, unopened, unselected, drained, status]
    simp
  refine ⟨?_, fun alive halted => absurd (status.1 halted) alive, by simp [still]⟩
  rw [still]
  exact .rests queue status

/-- A mailbox is closed, or it was closed before. -/
private theorem Handles.of_closes (staffed : w.Staffed)
    (mailbox : w'.mailbox i = (w.mailbox i).halt.2) (unopened : w.arrival? i x = none)
    (unselected : w.selection? i x = none) (spent : w'.Spent i) : w.Handles w' i x := by
  have halted : (w'.mailbox i).status = .halted := by rw [mailbox]; rfl
  by_cases alive : (w.mailbox i).status = .halted
  · refine .of_rests ?_ (by simp [halted, alive]) unopened unselected
    rw [staffed.tidy i alive, mailbox]
    rfl
  · have closing : w.traffic w' i x = { drained := (w.mailbox i).queue } := by
      simp [traffic, unopened, unselected, drained, alive, halted]
    refine ⟨?_, fun _ _ => spent, by simp [closing]⟩
    rw [closing, mailbox]
    exact .drains alive

variable [Strategy σ]

/-- A step of a thread is a step of every mailbox. -/
theorem Staffed.handles (staffed : w.Staffed) (orderly : w.Orderly) {t : ThreadId}
    (moved : w.stepThread? t = some w') (i : Nat) :
    ∃ x rest outside, w.thread? t = some ⟨x :: rest, outside⟩ ∧ w.Handles w' i x := by
  obtain ⟨x, rest, outside, found, steps⟩ := of_stepThread? moved
  refine ⟨x, rest, outside, found, ?_⟩
  have deals := deals_exec orderly.fit t (orderly.founded t _ found x List.mem_cons_self) i
  rcases steps with ⟨xs, w₁, old, executed, there, rfl⟩ | ⟨a, w₁, executed, rfl⟩
  · rw [executed] at deals
    have same := w₁.mailbox_setThread t ⟨xs ++ rest, old.outside⟩ i
    cases deals with
    | rests queue status unopened unselected =>
      exact .of_rests (by rw [same, queue]) (by rw [same, status]) unopened unselected
    | @receives _ _ envelope accepted unselected alive mailbox =>
      have open_ : ((w₁.setThread t ⟨xs ++ rest, old.outside⟩).mailbox i).status ≠ .halted := by
        rw [same, mailbox]
        exact (Mailbox.queue_enqueue envelope alive).2
      have coming : w.traffic (w₁.setThread t ⟨xs ++ rest, old.outside⟩) i x =
          { accepted := [envelope] } := by
        simp [traffic, accepted, unselected, drained, open_]
      refine ⟨?_, fun _ halted => absurd halted open_, by simp [coming]⟩
      rw [coming, same, mailbox]
      exact .accepts envelope alive
    | @selects _ _ verdict hasDefault selected discarded unopened chosen own awake scanned hands =>
      obtain rfl : t = .actor i := by
        refine staffed.own t _ found x List.mem_cons_self i ?_
        rw [own]
        rfl
      -- an actor that still works has not closed its mailbox
      have alive : (w.mailbox i).status ≠ .halted := by
        intro halted
        rcases staffed.spent i halted with ⟨core, there, ceased⟩ | idle
        · rw [awake core there] at ceased
          cases ceased
        · have none := idle _ found x List.mem_cons_self
          rw [own] at none
          cases none
      have open_ := (Mailbox.scan_of_dequeue alive scanned).2.2.2
      rw [← same] at open_
      have going : w.traffic (w₁.setThread (.actor i) ⟨xs ++ rest, old.outside⟩) i x =
          { discarded, dispatched := selected.envelope?.toList } := by
        simp [traffic, unopened, chosen, drained, open_]
      refine ⟨?_, fun _ halted => absurd halted open_, fun envelope mem => ?_⟩
      · rw [going, same]
        exact .selects alive scanned
      · rw [going] at mem
        cases selected with
        | default | idle => cases mem
        | event taken =>
          obtain rfl := List.mem_singleton.1 mem
          have next := hands envelope rfl
          obtain ⟨y, ys, rfl⟩ : ∃ y ys, xs = y :: ys := by
            cases xs with
            | nil => cases next
            | cons y ys => exact ⟨y, ys, rfl⟩
          exact ⟨_, w₁.thread?_setThread there _, by simpa using next⟩
    | closes mailbox unopened unselected spent =>
      refine .of_closes staffed (by rw [same, mailbox]) unopened unselected ?_
      rcases spent with ⟨core, there, halted⟩ | ⟨own, rfl⟩
      · obtain ⟨core', there', becomes⟩ :=
          (Evolves.setThread (S := x.Restacks w) w₁ t _).cores _ core there
        exact .inl ⟨core', there', becomes.halted halted⟩
      · obtain rfl := staffed.own t _ found x List.mem_cons_self i own
        refine .inr fun thread found' y mem => ?_
        rw [w₁.eq_of_thread?_setThread found'] at mem
        exact staffed.rest found own y mem
  · rw [executed] at deals
    cases deals with
    | answers kept unopened unselected =>
      have unwinds := w₁.unwinds_deliverAnswer (S := x.Restacks w) t a rest
      generalize w₁.deliverAnswer t a rest = w₂ at unwinds
      cases unwinds with
      | resumes works | ends works =>
        have same := (works.mailbox i).trans kept
        exact .of_rests (by rw [mailbox_setThread, same]) (by rw [mailbox_setThread, same]) unopened
          unselected
      | @abandons w₃ j works mine =>
        have same : ((w₃.abandon j).setThread t ⟨[.retire .yield], false⟩).mailbox i =
            if j = i ∧ i < w₃.actors.length then (w.mailbox i).halt.2 else w.mailbox i := by
          rw [mailbox_setThread, mailbox_abandon, works.mailbox, kept]
        by_cases own : j = i ∧ i < w₃.actors.length
        · rw [if_pos own] at same
          refine .of_closes staffed same unopened unselected (.inr fun thread found' y mem => ?_)
          obtain rfl := own.1
          obtain rfl := mine
          rw [eq_of_thread?_setThread _ found', List.mem_singleton] at mem
          exact mem ▸ rfl
        · rw [if_neg own] at same
          exact .of_rests (by rw [same]) (by rw [same]) unopened unselected

/-! ## Staffing -/

section Staffing

variable {w₁ : World σ} {t : ThreadId} {rest tasks : List Task}

omit [Strategy σ] in
/-- A thread never has more own work to do than before. -/
private theorem Follows.countP_le (follows : w.Follows x rest tasks) :
    tasks.countP (·.worker?.isSome) ≤ (x :: rest).countP (·.worker?.isSome) := by
  have spawned : ∀ xs : List Task, (∀ y ∈ xs, y.Spawned (x.Restacks w) w) →
      xs.countP (·.worker?.isSome) = 0 := fun xs each =>
    List.countP_eq_zero.2 fun y mem => by simp [(each y mem).2.1]
  cases follows with
  | spawns each =>
    rw [List.countP_append, spawned _ each, List.countP_cons]
    omega
  | turns own each next _ =>
    rw [List.countP_append, spawned _ each, List.countP_cons, List.countP_cons]
    simp [own, next]
  | resumes program suffix =>
    have le := suffix.sublist.countP_le (p := fun y : Task => y.worker?.isSome)
    rw [List.countP_cons] at le ⊢
    rw [List.countP_cons]
    simp only [Task.worker?] at le ⊢
    grind
  | retires | ends => simp [Task.worker?]

omit [Strategy σ] in
/-- Own work is that of the same actor. -/
private theorem Follows.exists_worker {y : Task} (follows : w.Follows x rest tasks)
    (mem : y ∈ tasks) (works : y.worker? = some i) : ∃ z ∈ x :: rest, z.worker? = some i := by
  cases follows with
  | spawns each =>
    rcases List.mem_append.1 mem with mem | mem
    · cases (each y mem).2.1.symm.trans works
    · exact ⟨y, List.mem_cons_of_mem _ mem, works⟩
  | turns own each next _ =>
    rcases List.mem_append.1 mem with mem | mem
    · cases (each y mem).2.1.symm.trans works
    · rcases List.mem_cons.1 mem with rfl | mem
      · obtain rfl := Option.some.inj (next.symm.trans works)
        exact ⟨x, List.mem_cons_self, own⟩
      · exact ⟨y, List.mem_cons_of_mem _ mem, works⟩
  | resumes program suffix =>
    rcases List.mem_cons.1 mem with rfl | mem
    · cases works
    · exact ⟨y, List.mem_cons_of_mem _ (suffix.subset (List.mem_cons_of_mem _ mem)), works⟩
  | retires =>
    obtain rfl := List.mem_singleton.1 mem
    cases works
  | ends => cases mem

/-- Whoever is spent stays so. -/
private theorem Spent.evolve {outside : Bool} (spent : w.Spent i)
    (there : (w.thread? (.actor i)).isSome) (acts : w.Acts (x.Restacks w) w₁)
    (found : w.thread? t = some ⟨x :: rest, outside⟩) (follows : w.Follows x rest tasks)
    (outside' : Bool) : (w₁.setThread t ⟨tasks, outside'⟩).Spent i := by
  rcases spent with ⟨core, was, halted⟩ | idle
  · obtain ⟨core', now, becomes⟩ := (acts.toEvolves.trans (.setThread w₁ t _)).cores _ core was
    exact .inl ⟨core', now, becomes.halted halted⟩
  · refine .inr fun thread now y mem => ?_
    by_cases mine : t = .actor i
    · subst mine
      rw [eq_of_thread?_setThread w₁ now] at mem
      have none : (x :: rest).countP (·.worker?.isSome) = 0 :=
        List.countP_eq_zero.2 fun z member => by simp [idle _ found z member]
      have le := follows.countP_le
      rw [none, Nat.le_zero, List.countP_eq_zero] at le
      simpa using le y mem
    · rw [w₁.thread?_setThread_ne (Ne.symm mine)] at now
      obtain ⟨old, was⟩ := Option.isSome_iff_exists.1 there
      obtain ⟨thread', now', same⟩ := acts.kept _ old was
      obtain rfl := Option.some.inj (now.symm.trans now')
      exact idle old was y (same ▸ mem)

/-- Threads do what they did, or begin. -/
private theorem Staffed.threads (staffed : w.Staffed) {outside : Bool}
    (acts : w.Acts (x.Restacks w) w₁)
    (found : w.thread? t = some ⟨x :: rest, outside⟩) (follows : w.Follows x rest tasks)
    {outside' : Bool} {u : ThreadId} {thread : Thread}
    (now : (w₁.setThread t ⟨tasks, outside'⟩).thread? u = some thread) :
    thread.tasks.countP (·.worker?.isSome) ≤ 1 ∧
      ∀ y ∈ thread.tasks, ∀ i, y.worker? = some i → u = .actor i := by
  by_cases mine : u = t
  · subst mine
    rw [eq_of_thread?_setThread w₁ now]
    refine ⟨Nat.le_trans follows.countP_le (staffed.once _ _ found), fun y mem i works => ?_⟩
    obtain ⟨z, member, works'⟩ := follows.exists_worker mem works
    exact staffed.own u _ found z member i works'
  · rw [w₁.thread?_setThread_ne mine] at now
    cases was : w.thread? u with
    | some old =>
      obtain ⟨thread', now', same⟩ := acts.kept u old was
      obtain rfl := Option.some.inj (now.symm.trans now')
      rw [same]
      exact ⟨staffed.once u old was, staffed.own u old was⟩
    | none =>
      have fresh := acts.begun u thread was now
      cases u with
      | driver => exact fresh.elim
      | actor j | sleeper j =>
        rw [show thread.tasks = _ from fresh]
        simp [Task.worker?]

end Staffing

/-- A closed mailbox is empty. -/
private theorem tidy_of_undergoes {m m' : Mailbox} {traffic : Traffic}
    (undergoes : m.Undergoes traffic m') (tidy : m.status = .halted → m.queue = [])
    (closed : m'.status = .halted) : m'.queue = [] := by
  cases undergoes with
  | rests queue status => rw [queue, tidy (status.1 closed)]
  | accepts envelope alive => exact absurd closed (Mailbox.queue_enqueue envelope alive).2
  | selects alive found => exact absurd closed (Mailbox.scan_of_dequeue alive found).2.2.2
  | drains => rfl

private theorem Staffed.does (staffed : w.Staffed) (orderly : w.Orderly) {t : ThreadId}
    (moved : w.stepThread? t = some w') : w'.Staffed := by
  have handles := staffed.handles orderly moved
  obtain ⟨x, rest, outside, w₁, tasks, outside', found, acts, follows, rfl⟩ := orderly.step moved
  refine ⟨fun u thread now => (staffed.threads acts found follows now).2,
    fun u thread now => (staffed.threads acts found follows now).1, fun i closed => ?_,
    fun i closed => ?_⟩
  · by_cases before : (w.mailbox i).status = .halted
    · have there : (w.thread? (.actor i)).isSome := by
        cases absent : w.actors[i]? with
        | none => simp [mailbox, absent] at before
        | some a => simp [thread?, absent]
      exact (staffed.spent i before).evolve there acts found follows outside'
    · obtain ⟨_, _, _, _, step⟩ := handles i
      exact step.spent before closed
  · obtain ⟨_, _, _, _, step⟩ := handles i
    exact tidy_of_undergoes step.undergoes (staffed.tidy i) closed

omit [Strategy σ] in
/-- As long as no actor is there nobody has anything to do but the test. -/
theorem Staffed.initial (controller : Controller σ) (registry : Registry) (policy : DequeuePolicy)
    (ids : Allocator) (test : Program) :
    (World.new controller registry policy ids test).Staffed := by
  refine ⟨fun t thread found x mem i works => ?_, fun t thread found => ?_, fun i closed => ?_,
    fun i closed => ?_⟩
  · cases t with
    | driver =>
      obtain rfl := Option.some.inj found
      obtain rfl := List.mem_singleton.1 mem
      cases works
    | actor j | sleeper j => cases found
  · cases t with
    | driver =>
      obtain rfl := Option.some.inj found
      exact Nat.zero_le 1
    | actor j | sleeper j => cases found
  · cases closed
  · cases closed

/-! ## What is done next -/

/-- The thread that takes the next step. -/
def mover? (w : World σ) : Option ThreadId :=
  if w.explores && !w.isOver then some (threadOf w.controller.scheduled)
  else w.threads.find? fun t => (w.stepThread? t).isSome

/-- The task that is done in the next step, if it is a thread that takes it. -/
def upcoming? (w : World σ) : Option Task :=
  w.mover?.bind fun t => (w.thread? t).bind (·.tasks.head?)

/-- The task that a thread does in the next step, if it is the one that takes it. -/
def does? (w : World σ) (t : ThreadId) : Option Task :=
  if w.step?.isSome ∧ w.mover? = some t then w.upcoming? else none

/-- What the next step takes in and out of the mailbox of an actor. -/
def onward (w : World σ) (i : Nat) : Traffic :=
  match w.step?, w.upcoming? with
  | some w', some x => w.traffic w' i x
  | _, _ => {}

theorem does?_of_step? {t : ThreadId} {rest : List Task} {outside : Bool}
    (moved : w.step? = some w') (moves : w.mover? = some t)
    (found : w.thread? t = some ⟨x :: rest, outside⟩) (u : ThreadId) :
    w.does? u = if u = t then some x else none := by
  simp [does?, moved, moves, upcoming?, found, eq_comm (a := u)]

theorem thread_of_does? {t : ThreadId} (does : w.does? t = some x) :
    w.mover? = some t ∧ ∃ rest outside, w.thread? t = some ⟨x :: rest, outside⟩ := by
  unfold does? at does
  split at does
  · next moves =>
    obtain ⟨⟨tasks, outside⟩, found, first⟩ : ∃ thread, w.thread? t = some thread ∧
        thread.tasks.head? = some x := by
      simpa [upcoming?, moves.2, Option.bind_eq_some_iff] using does
    cases tasks with
    | nil => cases first
    | cons y rest =>
      obtain rfl := Option.some.inj first
      exact ⟨moves.2, rest, outside, found⟩
  · cases does

/-- A step is taken by a thread, or nobody moves but the clock. -/
theorem of_step? (moved : w.step? = some w') :
    (∃ t, w.mover? = some t ∧ w.stepThread? t = some w') ∨
      w.mover? = none ∧ ∃ clock, w' = { w with clock } := by
  unfold step? at moved
  unfold mover?
  split at moved
  · next running => exact .inl ⟨_, if_pos running, moved⟩
  · next running =>
    rw [if_neg running]
    split at moved
    · next found =>
      cases moved
      obtain ⟨before, t, after, split, moves, still⟩ := List.findSome?_eq_some_iff.1 found
      refine .inl
        ⟨t, List.find?_eq_some_iff_append.2 ⟨by simp [moves], before, after, split, ?_⟩, moves⟩
      intro u mem
      simp [still u mem]
    · next none =>
      refine .inr ⟨?_, ?_⟩
      · simpa using none
      · split at moved
        · cases moved
        · unfold passTime? at moved
          split at moved
          · split at moved
            · cases moved
              exact ⟨_, rfl⟩
            · cases moved
          · cases moved

theorem Staffed.step (staffed : w.Staffed) (orderly : w.Orderly) (moved : w.step? = some w') :
    w'.Staffed := by
  rcases of_step? moved with ⟨t, _, does⟩ | ⟨_, clock, rfl⟩
  · exact staffed.does orderly does
  · exact ⟨fun t thread found => staffed.own t thread (by cases t <;> exact found),
      fun t thread found => staffed.once t thread (by cases t <;> exact found),
      staffed.spent, staffed.tidy⟩

/-- Every step of a world is a step of every mailbox. -/
theorem Staffed.onward (staffed : w.Staffed) (orderly : w.Orderly) (i : Nat) :
    (w.mailbox i).Undergoes (w.onward i) ((w.step?.getD w).mailbox i) ∧
      ∀ envelope ∈ (w.onward i).dispatched, ∃ thread,
        (w.step?.getD w).thread? (.actor i) = some thread ∧
          thread.tasks.head? = some (.handle (.actor i) envelope.event envelope.rendezvous) := by
  unfold World.onward
  cases moved : w.step? with
  | none => exact ⟨.rests rfl .rfl, by simp⟩
  | some w' =>
    rcases of_step? moved with ⟨t, moves, does⟩ | ⟨unmoved, clock, rfl⟩
    · obtain ⟨x, rest, outside, found, handles⟩ := staffed.handles orderly does i
      have next : w.upcoming? = some x := by simp [upcoming?, moves, found]
      rw [next]
      exact ⟨handles.undergoes, handles.hands⟩
    · have next : w.upcoming? = none := by simp [upcoming?, unmoved]
      rw [next]
      exact ⟨.rests rfl .rfl, by simp⟩

end World

namespace Experiment

variable [Strategy σ]

theorem staffed (e : Experiment) (accepted : e.registry.Accepted) (ids : Allocator) (s : σ)
    (n : Nat) : (e.iterate n ids s).Staffed := by
  induction n with
  | zero => exact .initial _ _ _ _ _
  | succ n ih =>
    rw [e.iterate_succ]
    cases moved : (e.iterate n ids s).step? with
    | none => exact ih
    | some w => exact ih.step ((e.reached n ids s).orderly accepted) moved

/-- What the step after the first `n` steps of an iteration takes in and out of the mailbox of an
actor. -/
def traffic (e : Experiment) (ids : Allocator) (s : σ) (i n : Nat) : Traffic :=
  (e.iterate n ids s).onward i

/-- For every mailbox of every run there is a logbook that balances after every step: each envelope
that the mailbox has accepted is queued, or it was handed out by one selection, discarded by one
selection, or dropped when the actor halted or was abandoned; what is queued is queued in the order of
arrival, and what has left by selections is, of every type, what arrived first, in that order. What a
selection hands out is what the actor handles next. -/
theorem exists_logbook (e : Experiment) (accepted : e.registry.Accepted) (ids : Allocator) (s : σ)
    (i : Nat) :
    (∃ logbook : Nat → Logbook, ∀ n,
      Logbook.Balances (e.traffic ids s i) n ((e.iterate n ids s).mailbox i).queue (logbook n) ∧
      (logbook n).Extends (logbook (n + 1)) ∧
      ∀ type, (Traffic.departures (e.traffic ids s i) n).filter (·.event.type = type) <+:
        (Traffic.arrivals (e.traffic ids s i) n).filter (·.event.type = type)) ∧
    ∀ n, ∀ envelope ∈ (e.traffic ids s i n).dispatched, ∃ thread,
      (e.iterate (n + 1) ids s).thread? (.actor i) = some thread ∧
        thread.tasks.head? = some (.handle (.actor i) envelope.event envelope.rendezvous) := by
  have steps := fun n =>
    (e.staffed accepted ids s n).onward ((e.reached n ids s).orderly accepted) i
  simp only [← e.iterate_succ] at steps
  exact ⟨Logbook.exists_of_undergoes rfl fun n => (steps n).1, fun n => (steps n).2⟩

private def noted : Action := fun o => .finish o.memory .ok

private def sorts : StateDescriptor :=
  ⟨"Init", true, none, none, none,
    [(⟨"Later"⟩, .defer), (⟨"Never"⟩, .ignore), (⟨"Now"⟩, .action noted)]⟩

/-- A machine that defers one event, ignores another and handles a third. -/
private def sorter : Declaration :=
  { typeTag := "Sorter", kind := .machine, inherited := [], observes := [], derived := [sorts] }

private def sorterDescriptor : Descriptor := ⟨"Sorter", .machine, [sorts], sorts, []⟩

/-- The test sends the machine one event of each type and halts it. -/
def sorting : Experiment where
  settings := .exploration
  registry := ⟨Timer.descriptors ++ [sorterDescriptor]⟩
  test :=
    .ask .own (.create "Sorter" none none false) fun
      | .ok (.actor id) =>
        .ask .own (.send id (.ofType ⟨"Later"⟩)) fun _ =>
          .ask .own (.send id (.ofType ⟨"Never"⟩)) fun _ =>
            .ask .own (.send id (.ofType ⟨"Now"⟩)) fun _ =>
              .ask .own (.send id (.ofType .halt)) fun _ => .finish {} .ok
      | _ => .finish {} .ok

/-- The machine has its turn when the test is done. -/
private def turnsOfSorting : ScriptedStrategy :=
  .ofAnswers [.ok 0, .ok 0, .ok 0, .ok 0, .ok 0, .ok 1]

private theorem accepted_sorting : sorting.registry.Accepted := by
  have built : sorter.build = .ok sorterDescriptor :=
    Declaration.build_of_plain (by decide) rfl rfl rfl rfl rfl
  exact ⟨[sorterDescriptor], by simpa using ⟨sorter, built⟩, rfl⟩

/-- The first selection hands out one event and discards another. The deferred one is dropped when the
machine halts. -/
theorem exists_logbook_sorting :
    ∃ logbook : Nat → Logbook,
      ((logbook 39).having .queued).map (·.event.type) = [⟨"Later"⟩, .halt] ∧
      ((logbook 39).having (.discarded 38)).map (·.event.type) = [⟨"Never"⟩] ∧
      ((logbook 39).having (.dispatched 38)).map (·.event.type) = [⟨"Now"⟩] ∧
      ((logbook 44).having .queued).map (·.event.type) = [] ∧
      ((logbook 44).having (.dispatched 42)).map (·.event.type) = [.halt] ∧
      ((logbook 44).having (.drained 43)).map (·.event.type) = [⟨"Later"⟩] := by
  obtain ⟨⟨logbook, balances⟩, _⟩ :=
    sorting.exists_logbook accepted_sorting ⟨0, 0⟩ turnsOfSorting 0
  obtain ⟨early, _⟩ := balances 39
  obtain ⟨late, _⟩ := balances 44
  refine ⟨logbook, ?_, ?_, ?_, ?_, ?_, ?_⟩
  · rw [early.queued]
    rfl
  · rw [early.discarded]
    rfl
  · rw [early.dispatched]
    rfl
  · rw [late.queued]
    rfl
  · rw [late.dispatched]
    rfl
  · rw [late.drained]
    rfl

end Experiment

end SteeredActors
