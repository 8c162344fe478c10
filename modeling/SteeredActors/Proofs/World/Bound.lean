import Mathlib.Order.OrderIsoNat
import SteeredActors.Proofs.World.Decisions
import SteeredActors.Proofs.World.Drift
import SteeredActors.Proofs.World.Roster

/-!
# The bound on decisions

Decisions are counted, and the run ends with the first that exceeds the bound. So a run that neither
ends nor stops with a thread that has to wait takes no more decisions from some step on, and one thread
holds the turn. That thread posts nothing any more, because a decision follows whatever is posted, and
so it takes no more events than are queued for it. What is left to it for ever is to go round: to do
what an interpreter raises, or to let a monitor handle the reserved event.
-/

set_option autoImplicit false
set_option relaxedAutoImplicit false

namespace SteeredActors

variable {σ : Type}

/-! ## Decisions are counted -/

namespace Controller

variable {c : Controller σ} {op : Nat} {kind : PointKind}

private theorem steps_assign {enabled : List Nat} {answer : Except Divergence Nat}
    (goesOn : (c.assign kind enabled answer).isOver = false) :
    (c.assign kind enabled answer).steps = c.steps := by
  unfold assign at *
  split
  · split
    · rfl
    · simp_all [diverge, isOver_finish]
  · simp_all [diverge, isOver_finish]

/-- A decision that does not end the run is counted. -/
theorem steps_advance [Strategy σ] (goesOn : (c.advance op kind).isOver = false) :
    (c.advance op kind).steps = c.steps + 1 := by
  unfold advance at *
  simp only at *
  split
  · next idle =>
    rw [if_pos idle, finishIdle] at goesOn
    split at goesOn <;> simp [isOver_finish] at goesOn
  · next works =>
    rw [if_neg works] at goesOn
    split
    · simp_all [isOver_finish]
    · next within =>
      rw [if_neg within] at goesOn
      rw [steps_assign goesOn]
      unfold askOperation
      split <;> rfl

end Controller

/-! ## What brings a decision -/

variable {w w' : World σ}

/-- Who passes the turn on, or is done, brings a decision. -/
theorem Sound.decision?_of_next? (h : Sound w) (poised : Poised w) {x : Task}
    (next : w.next? = some x) {kind : PointKind} (own : x = .pass kind ∨ x = .retire kind) :
    w.decision? ≠ none := by
  obtain ⟨rest, outside, found⟩ := World.thread_of_next? next
  obtain ⟨thread, there, posture, asks⟩ := h.holder poised
  cases found.symm.trans there
  rcases own with rfl | rfl
  · have known : outside = false := by
      cases posture with
      | working works =>
        cases works with
        | cons fits => exact fits
      | idles => rfl
    simp [World.decision?, next, World.caller?, there, known, asks]
  · simp [World.decision?, next, asks]

variable [Strategy σ] {t : ThreadId} {rest : List Task}

/-- Nobody reaches a scheduling point from outside. -/
theorem Sound.givesUp_of_point (h : Sound w) (running : w.isOver = false) {kind : PointKind}
    (found : w.thread? t = some ⟨.point kind :: rest, true⟩) (moved : w.stepThread? t = some w')
    {thread : Thread} (now : w'.thread? t = some thread) : GivesUp rest thread.tasks := by
  have executed : w.exec t (.point kind) =
      w.unwind (.invalidOperation "called from a thread the controller does not schedule") := by
    simp [World.exec, running, h.explores, World.caller?, found, World.ensureKnown]
  rw [World.stepThread?_cons found, executed] at moved
  cases Option.some.inj moved
  exact w.givesUp_of_deliverAnswer now

namespace Experiment

variable {e : Experiment} {ids : Allocator} {s : σ} {N n : Nat} {x : Task} {outside : Bool}

/-- A run that neither ends nor stops, in which one thread has the turn from some step on and brings no
decision. -/
structure Steady (e : Experiment) (ids : Allocator) (s : σ) (N : Nat) (t : ThreadId) : Prop where
  running : ∀ n, (e.iterate n ids s).isOver = false
  moves : ∀ n, (e.iterate n ids s).step? ≠ none
  turn : ∀ n, N ≤ n → World.threadOf (e.iterate n ids s).controller.scheduled = t
  undecided : ∀ n, N ≤ n → (e.iterate n ids s).decision? = none

namespace Steady

theorem sound (steady : e.Steady ids s N t) (n : Nat) :
    Sound (e.iterate n ids s) ∧ Poised (e.iterate n ids s) :=
  ⟨e.sound (steady.running n), e.poised (steady.running n)⟩

theorem moved (steady : e.Steady ids s N t) (le : N ≤ n) :
    (e.iterate n ids s).stepThread? t = some (e.iterate (n + 1) ids s) := by
  obtain ⟨w, moved⟩ := Option.ne_none_iff_exists'.1 (steady.moves n)
  rw [e.iterate_succ, moved, Option.getD_some, ← moved,
    World.step?_of_running (steady.sound n).1.explores (steady.running n), steady.turn n le]

/-- The thread that has the turn has something to do. -/
theorem busy (steady : e.Steady ids s N t) (le : N ≤ n) : ∃ x rest outside,
    (e.iterate n ids s).thread? t = some ⟨x :: rest, outside⟩ ∧
      Posture t.own? ⟨x :: rest, outside⟩ ∧
      (e.iterate n ids s).operation? t = some (e.iterate n ids s).controller.scheduled := by
  obtain ⟨x, rest, outside, found, _⟩ := World.of_stepThread? (steady.moved le)
  obtain ⟨thread, there, posture, asks⟩ := (steady.sound n).1.holder (steady.sound n).2
  rw [steady.turn n le] at there posture asks
  cases found.symm.trans there
  exact ⟨x, rest, outside, found, posture, asks⟩

/-- What the thread has to do when its task has led to others. -/
theorem thread_of_go (steady : e.Steady ids s N t) (le : N ≤ n)
    (found : (e.iterate n ids s).thread? t = some ⟨x :: rest, outside⟩) {xs : List Task}
    {w : World σ} (executed : (e.iterate n ids s).exec t x = .go xs w)
    (kept : w.thread? t = (e.iterate n ids s).thread? t) :
    (e.iterate (n + 1) ids s).thread? t = some ⟨xs ++ rest, outside⟩ := by
  rw [found] at kept
  have moved := steady.moved le
  rw [World.stepThread?_cons found, executed] at moved
  simp only [kept, Option.some.injEq] at moved
  rw [← moved, World.thread?_setThread _ kept]

theorem not_decides (steady : e.Steady ids s N t) (le : N ≤ n)
    (found : (e.iterate n ids s).thread? t = some ⟨x :: rest, outside⟩) {kind : PointKind} :
    ¬(x = .pass kind ∨ x = .retire kind) := fun own =>
  (steady.sound n).1.decision?_of_next? (steady.sound n).2
    (World.next?_of_turn (steady.turn n le) found) own (steady.undecided n le)

/-- The thread reaches no scheduling point. -/
theorem not_points (steady : e.Steady ids s N t) (le : N ≤ n) {kind : PointKind} :
    (e.iterate n ids s).thread? t ≠ some ⟨.point kind :: rest, false⟩ := by
  intro found
  obtain ⟨_, _, _, _, _, asks⟩ := steady.busy le
  have next := (steady.sound n).1.passes_of_point (steady.running n) asks found
  rw [steady.moved le] at next
  have now : (e.iterate (n + 1) ids s).thread? t = some ⟨.pass kind :: .turn :: rest, false⟩ := by
    rw [Option.some.inj next]
    exact World.thread?_setThread _ found _
  exact steady.not_decides (Nat.le_succ_of_le le) now (.inl rfl)

/-- The thread posts nothing, because a scheduling point follows. -/
theorem not_posts (steady : e.Steady ids s N t) (accepted : e.registry.Accepted) (le : N ≤ n)
    {i : Nat} {event : Event} :
    (e.iterate n ids s).thread? t ≠ some ⟨.post i event :: rest, outside⟩ := by
  intro found
  obtain ⟨_, _, _, there, posture, _⟩ := steady.busy le
  cases found.symm.trans there
  have known : outside = false := by
    cases posture with
    | working works =>
      cases works with
      | cons fits => exact fits
  obtain ⟨kind, comes⟩ := (e.everywhere accepted ids s enduring_precedes
    (fun _ => ⟨trivial, trivial⟩) n t _ found).1
  obtain ⟨ys, rfl⟩ := List.head?_eq_some_iff.1 ((Option.or_none).symm.trans comes)
  have next := steady.thread_of_go le found rfl (World.thread?_enqueue _ t i ⟨event, none⟩)
  rw [known] at next
  exact steady.not_points (Nat.le_succ_of_le le) next

/-- The thread does not begin to wait for a reply, because a decision comes with that. -/
theorem not_engages (steady : e.Steady ids s N t) (le : N ≤ n) {i : Nat} {event : Event} :
    (e.iterate n ids s).thread? t ≠ some ⟨.engage i event :: rest, outside⟩ := by
  intro found
  obtain ⟨_, _, _, there, posture, asks⟩ := steady.busy le
  cases found.symm.trans there
  have known : outside = false := by
    cases posture with
    | working works =>
      cases works with
      | cons fits => exact fits.1
  subst known
  refine steady.not_decides (Nat.le_succ_of_le le) (steady.thread_of_go le found
    (World.exec_engage found (steady.sound n).1.explores asks) ?_) (.inl rfl)
  exact (World.thread?_enqueue _ t i _).trans ((World.thread?_blockCaller _ t _).trans
    (World.thread?_openRendezvous _ t _))

/-- So nothing arrives in any mailbox. -/
theorem arrival?_eq_none (steady : e.Steady ids s N t) (accepted : e.registry.Accepted) (le : N ≤ n)
    (found : (e.iterate n ids s).thread? t = some ⟨x :: rest, outside⟩) (i : Nat) :
    (e.iterate n ids s).arrival? i x = none := by
  cases x
  case post => exact absurd found (steady.not_posts accepted le)
  case engage => exact absurd found (steady.not_engages le)
  all_goals rfl

/-- The queue of an actor becomes shorter with each event that it takes, and never longer. -/
theorem length_queue_le (steady : e.Steady ids s N t) (accepted : e.registry.Accepted) (le : N ≤ n)
    (found : (e.iterate n ids s).thread? t = some ⟨x :: rest, outside⟩) (i : Nat) :
    ((e.iterate (n + 1) ids s).mailbox i).queue.length +
        (((e.iterate n ids s).selection? i x).bind (·.1.envelope?)).toList.length ≤
      ((e.iterate n ids s).mailbox i).queue.length := by
  obtain ⟨_, _, _, there, handles⟩ := (e.staffed accepted ids s n).handles
    ((e.reached n ids s).orderly accepted) (steady.moved le) i
  cases found.symm.trans there
  have length := handles.undergoes.length_queue
  simp only [World.traffic, steady.arrival?_eq_none accepted le found i, Option.toList_none,
    List.length_nil] at length
  omega

/-- From some step on the thread takes no more events. -/
theorem exists_unselected (steady : e.Steady ids s N t) (accepted : e.registry.Accepted) (i : Nat) :
    ∃ M, N ≤ M ∧ ∀ n, M ≤ n → ∀ x rest outside,
      (e.iterate n ids s).thread? t = some ⟨x :: rest, outside⟩ →
        ∀ envelope discarded, (e.iterate n ids s).selection? i x ≠
          some (.event envelope, discarded) := by
  have shrinks : Antitone fun k => ((e.iterate (N + k) ids s).mailbox i).queue.length := by
    refine antitone_nat_of_succ_le fun k => ?_
    obtain ⟨x, rest, outside, found, _⟩ := steady.busy (Nat.le_add_right N k)
    exact Nat.le_trans (Nat.le_add_right _ _)
      (steady.length_queue_le accepted (Nat.le_add_right N k) found i)
  obtain ⟨m, same⟩ := WellFoundedLT.antitone_chain_condition shrinks
  refine ⟨N + m, Nat.le_add_right N m, fun n after x rest outside found envelope discarded
    selected => ?_⟩
  obtain ⟨k, rfl⟩ := Nat.exists_eq_add_of_le after
  have length := steady.length_queue_le accepted (Nat.le_trans (Nat.le_add_right N m) after) found i
  have now := same (m + k) (Nat.le_add_right m k)
  have next := same (m + k + 1) (by omega)
  simp only [selected, ← Nat.add_assoc] at length now next
  simp [Selected.envelope?] at length
  omega

/-- The thread is not that of a timer. -/
theorem awake (steady : e.Steady ids s N t) (le : N ≤ n)
    (found : (e.iterate n ids s).thread? t = some ⟨x :: rest, outside⟩) : x.fires = false := by
  obtain ⟨_, _, _, there, posture, _⟩ := steady.busy le
  cases found.symm.trans there
  cases posture with
  | working works =>
    cases works with
    | cons fits =>
      cases x <;> try rfl
      case sleep => exact fits.elim
      case perform speaker _ => cases speaker <;> first | rfl | exact fits.elim
    | _ => rfl
  | _ => rfl

/-- The thread gives up where it would come to a decision. -/
theorem undecides (steady : e.Steady ids s N t) (le : N ≤ n)
    (found : (e.iterate n ids s).thread? t = some ⟨x :: rest, outside⟩) (schedules : x.schedules = true)
    {thread : Thread} (now : (e.iterate (n + 1) ids s).thread? t = some thread) :
    GivesUp rest thread.tasks := by
  cases x <;> first | cases schedules; done | skip
  case pass => exact absurd (.inl rfl) (steady.not_decides le found)
  case retire => exact absurd (.inr rfl) (steady.not_decides le found)
  case point kind =>
    cases outside with
    | false => exact absurd found (steady.not_points le)
    | true =>
      exact (steady.sound n).1.givesUp_of_point (steady.running n) found (steady.moved le) now

/-- What the thread has to do. -/
private def todo (e : Experiment) (ids : Allocator) (s : σ) (t : ThreadId) (n : Nat) : List Task :=
  (((e.iterate n ids s).thread? t).map (·.tasks)).getD []

private theorem found_of_todo (steady : e.Steady ids s N t) (le : N ≤ n)
    (todo : todo e ids s t n = x :: rest) :
    ∃ outside, (e.iterate n ids s).thread? t = some ⟨x :: rest, outside⟩ := by
  obtain ⟨y, below, outside, found, _⟩ := steady.busy le
  simp only [Steady.todo, found, Option.map_some, Option.getD_some] at todo
  exact ⟨outside, todo ▸ found⟩

/-- From some step on the thread takes no more events, whoever's it is. -/
private theorem exists_starved (steady : e.Steady ids s N t) (accepted : e.registry.Accepted) :
    ∃ M, N ≤ M ∧ ∀ n, M ≤ n → ∀ i rest outside,
      (e.iterate n ids s).thread? t = some ⟨.cycle i :: rest, outside⟩ →
        ∀ envelope discarded, (e.iterate n ids s).selection? i (.cycle i) ≠
          some (.event envelope, discarded) := by
  have own : ∀ n i rest outside,
      (e.iterate n ids s).thread? t = some ⟨.cycle i :: rest, outside⟩ → t = .actor i :=
    fun n i rest outside found =>
      (e.staffed accepted ids s n).own t _ found (.cycle i) List.mem_cons_self i rfl
  cases t with
  | actor j =>
    obtain ⟨M, le, unselected⟩ := steady.exists_unselected accepted j
    refine ⟨M, le, fun n after i rest outside found => ?_⟩
    obtain rfl := ThreadId.actor.inj (own n i rest outside found)
    exact unselected n after _ _ _ found
  | driver | sleeper =>
    exact ⟨N, Nat.le_refl N, fun n _ i rest outside found => nomatch own n i rest outside found⟩

/-- Without going round the thread would drift. -/
theorem goes_round (steady : e.Steady ids s N t) (accepted : e.registry.Accepted) (m : Nat) :
    ∃ n, m ≤ n ∧ (e.iterate n ids s).next?.any (e.iterate n ids s).goesRound = true := by
  by_contra settled
  have settled : ∀ n, m ≤ n → ∀ x, (e.iterate n ids s).next? = some x →
      (e.iterate n ids s).goesRound x = false := by
    intro n le x next
    by_contra round
    exact settled ⟨n, le, by simpa [next] using round⟩
  obtain ⟨M, le, starved⟩ := steady.exists_starved accepted
  have after : ∀ k, N ≤ max M m + k ∧ M ≤ max M m + k ∧ m ≤ max M m + k := by omega
  have found : ∀ {k x rest}, todo e ids s t (max M m + k) = x :: rest →
      ∃ outside, (e.iterate (max M m + k) ids s).thread? t = some ⟨x :: rest, outside⟩ :=
    fun todo => steady.found_of_todo (after _).1 todo
  have now : ∀ k, ∃ thread, (e.iterate (max M m + (k + 1)) ids s).thread? t = some thread ∧
      todo e ids s t (max M m + (k + 1)) = thread.tasks := by
    intro k
    obtain ⟨_, _, _, there, _⟩ := steady.busy (after (k + 1)).1
    exact ⟨_, there, by simp [todo, there]⟩
  have drift : Drift (fun k => e.iterate (max M m + k) ids s)
      (fun k => todo e ids s t (max M m + k)) e.registry.descriptors.length := by
    refine
      { busy := fun k => ?_, goes := fun {k x rest} head => ?_,
        undecided := fun {k x rest} head schedules => ?_, unretired := fun {k kind rest} head => ?_,
        settled := fun {k x rest} head => ?_,
        unselected := fun {k i rest envelope discarded} head => ?_,
        awake := fun {k x rest} head => ?_, nests := fun k => ?_ }
    · obtain ⟨x, rest, _, there, _⟩ := steady.busy (after k).1
      simp [todo, there]
    · obtain ⟨outside, there⟩ := found head
      obtain ⟨thread, next, same⟩ := now k
      rw [same]
      exact World.goes_of_stepThread? there (steady.moved (after k).1) next
    · obtain ⟨outside, there⟩ := found head
      obtain ⟨thread, next, same⟩ := now k
      rw [same]
      exact steady.undecides (after k).1 there schedules next
    · obtain ⟨outside, there⟩ := found head
      exact steady.not_decides (after k).1 there (.inr rfl)
    · obtain ⟨outside, there⟩ := found head
      exact settled _ (after k).2.2 x (World.next?_of_turn (steady.turn _ (after k).1) there)
    · obtain ⟨outside, there⟩ := found head
      exact starved _ (after k).2.1 i rest outside there envelope discarded
    · obtain ⟨outside, there⟩ := found head
      exact steady.awake (after k).1 there
    · obtain ⟨x, rest, outside, there, _⟩ := steady.busy (after k).1
      have nests := e.length_inHand_le accepted ids s there
      simpa [todo, there] using nests
  exact drift.absurd

end Steady

/-- From some step on a run goes on for ever without a decision or a choice, while one thread has the
turn, and again and again it goes round. -/
structure Loops (e : Experiment) (ids : Allocator) (s : σ) (N : Nat) : Prop where
  running : ∀ n, N ≤ n → (e.iterate n ids s).isOver = false
  turn : ∀ n, N ≤ n →
    (e.iterate n ids s).controller.scheduled = (e.iterate N ids s).controller.scheduled
  steps : ∀ n, N ≤ n → (e.iterate n ids s).controller.steps = (e.iterate N ids s).controller.steps
  round : ∀ m, ∃ n, m ≤ n ∧ (e.iterate n ids s).next?.any (e.iterate n ids s).goesRound = true

variable (e ids s)

/-- A run that has not ended has kept to the bound. -/
theorem steps_le (accepted : e.registry.Accepted) (running : (e.iterate n ids s).isOver = false) :
    (e.iterate n ids s).controller.steps ≤ e.settings.scheduling.maxSteps := by
  have steers := (e.evolves accepted ids s (Nat.zero_le n)).controller
  have bounded := steers.within (fun _ => Nat.zero_le _) running
  rwa [steers.maxSteps] at bounded

variable {e ids s}

/-- A step that brings a decision and no outcome is counted. -/
private theorem steps_of_decision (running : (e.iterate n ids s).isOver = false)
    (goesOn : (e.iterate (n + 1) ids s).isOver = false)
    (decides : (e.iterate n ids s).decision? ≠ none) :
    (e.iterate (n + 1) ids s).controller.steps = (e.iterate n ids s).controller.steps + 1 := by
  obtain ⟨d, decides⟩ := Option.ne_none_iff_exists'.1 decides
  obtain ⟨w, moved, advanced⟩ :=
    (e.sound running).step_of_decision (e.poised running) running decides
  have next : e.iterate (n + 1) ids s = w := by rw [e.iterate_succ, moved, Option.getD_some]
  rw [next] at goesOn ⊢
  have same : d.controller.steps = (e.iterate n ids s).controller.steps := by
    obtain ⟨_, ⟨_, same⟩ | ⟨_, same⟩⟩ :=
      World.decision?_inv (e.sound running) (e.poised running) decides
    · rw [same]
    · rw [same]
      rfl
  rw [World.isOver, advanced] at goesOn
  rw [advanced, Controller.steps_advance goesOn, same]

/-- A run that neither ends nor stops becomes steady. -/
private theorem exists_steady (accepted : e.registry.Accepted)
    (running : ∀ n, (e.iterate n ids s).isOver = false)
    (moves : ∀ n, (e.iterate n ids s).step? ≠ none) :
    ∃ N, (∀ n, N ≤ n →
        (e.iterate n ids s).controller.steps = (e.iterate N ids s).controller.steps ∧
        (e.iterate n ids s).controller.scheduled = (e.iterate N ids s).controller.scheduled) ∧
      e.Steady ids s N (World.threadOf (e.iterate N ids s).controller.scheduled) := by
  have left : Antitone fun n =>
      e.settings.scheduling.maxSteps - (e.iterate n ids s).controller.steps := by
    refine antitone_nat_of_succ_le fun n => Nat.sub_le_sub_left ?_ _
    exact (e.evolves accepted ids s (Nat.le_succ n)).controller.steps
  obtain ⟨N, same⟩ := WellFoundedLT.antitone_chain_condition left
  have steps : ∀ n, N ≤ n →
      (e.iterate n ids s).controller.steps = (e.iterate N ids s).controller.steps := by
    intro n le
    have equal : e.settings.scheduling.maxSteps - (e.iterate N ids s).controller.steps =
        e.settings.scheduling.maxSteps - (e.iterate n ids s).controller.steps := same n le
    have within := e.steps_le ids s accepted (running n)
    have within' := e.steps_le ids s accepted (running N)
    omega
  have undecided : ∀ n, N ≤ n → (e.iterate n ids s).decision? = none := by
    intro n le
    by_contra decides
    have more := steps_of_decision (running n) (running (n + 1)) decides
    rw [steps n le, steps (n + 1) (Nat.le_succ_of_le le)] at more
    omega
  have turn : ∀ n, N ≤ n →
      (e.iterate n ids s).controller.scheduled = (e.iterate N ids s).controller.scheduled := by
    intro n le
    induction le with
    | refl => rfl
    | @step n le ih =>
      obtain ⟨w, moved⟩ := Option.ne_none_iff_exists'.1 (moves n)
      rw [← ih]
      exact (e.sound (running n)).scheduled_of_undecided (e.poised (running n))
        (e.transition_of_step? (running (n + 1)) moved) (undecided n le)
  exact ⟨N, fun n le => ⟨steps n le, turn n le⟩, running, moves, fun n le => by rw [turn n le],
    undecided⟩

variable (e ids s)

/-- A run ends, or it stops because the thread that has the turn has to wait, or it loops. The bound on
decisions ends all others: they take more decisions than it allows. -/
theorem ends_or_loops (accepted : e.registry.Accepted) :
    (∃ n, (e.iterate n ids s).isOver = true) ∨
      (∃ n, (e.iterate n ids s).isOver = false ∧ (e.iterate n ids s).step? = none) ∨
      ∃ N, e.Loops ids s N := by
  by_cases ended : ∃ n, (e.iterate n ids s).isOver = true
  · exact .inl ended
  by_cases stopped : ∃ n, (e.iterate n ids s).step? = none
  · obtain ⟨n, stopped⟩ := stopped
    exact .inr (.inl ⟨n, by simpa using fun ceased => ended ⟨n, ceased⟩, stopped⟩)
  obtain ⟨N, same, steady⟩ := exists_steady accepted
    (fun n => by simpa using fun ceased => ended ⟨n, ceased⟩) fun n none => stopped ⟨n, none⟩
  exact .inr (.inr ⟨N, fun n _ => steady.running n, fun n le => (same n le).2,
    fun n le => (same n le).1, steady.goes_round accepted⟩)

private def watches : StateDescriptor :=
  ⟨"Init", true, none, none, none, [(.default, .action fun o => .finish o.memory .ok)]⟩

/-- A monitor whose state handles the reserved event. -/
private def watcher : Declaration :=
  { typeTag := "Watcher", kind := .monitor, inherited := [], observes := [], derived := [watches] }

private def watcherDescriptor : Descriptor := ⟨"Watcher", .monitor, [watches], watches, []⟩

/-- The test registers the monitor, and no more than one decision is allowed. -/
def watching : Experiment where
  settings := { scheduling := { mode := .exploration, maxSteps := 1 } }
  registry := ⟨Timer.descriptors ++ [watcherDescriptor]⟩
  test := .ask .own (.registerMonitor "Watcher") fun _ => .finish {} .ok

private def turnsOfWatching : ScriptedStrategy := .ofAnswers []

private theorem accepted_watching : watching.registry.Accepted := by
  have built : watcher.build = .ok watcherDescriptor :=
    Declaration.build_of_plain (by decide) rfl rfl rfl rfl rfl
  exact ⟨[watcherDescriptor], by simpa using ⟨watcher, built⟩, rfl⟩

/-- What a run comes back to it does again. -/
private theorem forall_of_period {m p : Nat} (positive : 0 < p)
    (same : e.iterate (m + p) ids s = e.iterate m ids s) {P : World σ → Prop}
    (first : ∀ n, n < m + p → P (e.iterate n ids s)) (n : Nat) : P (e.iterate n ids s) := by
  have again : ∀ k, e.iterate (m + p + k) ids s = e.iterate (m + k) ids s := by
    intro k
    induction k with
    | zero => exact same
    | succ k ih => rw [← Nat.add_assoc, ← Nat.add_assoc, e.iterate_succ, e.iterate_succ, ih]
  induction n using Nat.strongRecOn with
  | _ n ih =>
    rcases Nat.lt_or_ge n (m + p) with early | late
    · exact first n early
    · obtain ⟨k, rfl⟩ := Nat.exists_eq_add_of_le late
      rw [again k]
      exact ih (m + k) (by omega)

private theorem watching_goes_on (n : Nat) :
    (watching.iterate n ⟨0, 0⟩ turnsOfWatching).isOver = false ∧
      (watching.iterate n ⟨0, 0⟩ turnsOfWatching).step?.isSome = true :=
  forall_of_period watching ⟨0, 0⟩ turnsOfWatching (m := 4) (p := 5) (by decide) rfl
    (P := fun w => w.isOver = false ∧ w.step?.isSome = true) (by decide +kernel) n

/-- When it is registered the monitor begins to handle the reserved event, and it does so for ever. No
decision is taken at all. -/
theorem ends_or_loops_watching :
    watching.registry.Accepted ∧
      (∀ n, (watching.iterate n ⟨0, 0⟩ turnsOfWatching).isOver = false) ∧
      ∃ N, watching.Loops ⟨0, 0⟩ turnsOfWatching N := by
  refine ⟨accepted_watching, fun n => (watching_goes_on n).1, ?_⟩
  rcases ends_or_loops watching ⟨0, 0⟩ turnsOfWatching accepted_watching with
    ⟨n, ended⟩ | ⟨n, _, stopped⟩ | loops
  · rw [(watching_goes_on n).1] at ended
    cases ended
  · have moves := (watching_goes_on n).2
    rw [stopped] at moves
    cases moves
  · exact loops

end Experiment

end SteeredActors
