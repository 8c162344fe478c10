import SteeredActors.Proofs.World.Errands

/-!
# Whom a call waits for

A call that waits is begun only for an actor that was found, and actors stay. So whoever is engaged
with is there.
-/

set_option autoImplicit false
set_option relaxedAutoImplicit false

namespace SteeredActors

variable {σ : Type}

/-- Calls among the tasks go to the first actors, so many of them. -/
def Aimed (n : Nat) (tasks : List Task) : Prop := ∀ i event, Task.engage i event ∈ tasks → i < n

theorem Aimed.append {n : Nat} {first second : List Task} (h : Aimed n first)
    (k : Aimed n second) : Aimed n (first ++ second) := by
  intro i event mem
  rcases List.mem_append.1 mem with mem | mem
  · exact h i event mem
  · exact k i event mem

theorem Aimed.mono {n m : Nat} {tasks : List Task} (h : Aimed n tasks) (le : n ≤ m) :
    Aimed m tasks := fun i event mem => Nat.lt_of_lt_of_le (h i event mem) le

theorem Aimed.of_suffix {n : Nat} {xs tasks : List Task} (h : Aimed n tasks)
    (suffix : xs <:+ tasks) : Aimed n xs := fun i event mem => h i event (suffix.subset mem)

namespace World

/-- Whomever a thread calls is there. -/
def AllAimed (w : World σ) : Prop :=
  ∀ u thread, (∀ j, u ≠ .sleeper j) → w.thread? u = some thread →
    Aimed w.actors.length thread.tasks

/-- Nobody is called by tasks that are no errands. -/
private theorem aimed_of_plain (n : Nat) {tasks : List Task} (plain : ∀ y ∈ tasks, y.isErrand = false) :
    Aimed n tasks := by
  intro i event mem
  cases plain _ mem

variable [Strategy σ] {w : World σ} {t : ThreadId} {x : Task}

/-- A request leads to calls of actors that are there. -/
theorem aimed_of_served {thread : Thread} {speaker : Speaker} {voice : Voice} {request : Request}
    {tasks : List Task} {v : World σ}
    (served : w.service t thread speaker voice request = .later tasks v) :
    Aimed w.actors.length tasks := by
  have brings := w.brings_service t thread speaker voice request
  rw [served] at brings
  cases brings with
  | later _ plain => exact aimed_of_plain _ fun y mem => (plain y mem).1
  | accesses => simp [Aimed]
  | @sends target j sent y tasks _ found posts plain =>
    intro i event mem
    rcases List.mem_cons.1 mem with same | mem
    · cases same
    rcases List.mem_cons.1 mem with rfl | mem
    · cases posts
      exact (List.findIdx?_eq_some_iff_findIdx_eq.1 found).1
    · exact aimed_of_plain _ plain i event mem

/-- Whatever is done, whom the tasks call is there. -/
theorem aimed_of_exec {thread : Thread} (found : w.thread? t = some thread) {xs : List Task}
    {v : World σ} (executed : w.exec t x = .go xs v) : Aimed w.actors.length xs := by
  cases asks : x.request? with
  | some request =>
    obtain ⟨speaker, voice, next, rfl⟩ := Task.of_request? asks
    rcases exec_ask found speaker voice request next with
      ⟨a, v, _, goes⟩ | ⟨tasks, v, outside, served, goes⟩ <;> cases goes.symm.trans executed
    · simp [Aimed]
    · exact (aimed_of_served served).append (by simp [Aimed])
  | none =>
    cases settled : x.registers with
    | false =>
      have leads := w.errands_exec t asks (fun object operation same => ?_) settled
      · rw [executed] at leads
        exact aimed_of_plain _ fun y mem => (leads.2 y mem).1
      · subst same
        simp only [exec] at executed
        split at executed <;> cases executed
    | true =>
      cases x
      case install d id =>
        rcases w.exec_install t d id with ⟨waits, _⟩ | ⟨r, answers⟩ | ⟨_, goes⟩
        · cases waits.symm.trans executed
        · cases answers.symm.trans executed
        · cases goes.symm.trans executed
          simp [Aimed]
      case enlist m =>
        cases executed
        simp [Aimed]
      all_goals cases settled

/-! ## Steps -/

/-- After a step of a thread it calls only those who were there. -/
private theorem aimed_stepThread? {w' : World σ} (moved : w.stepThread? t = some w')
    (aimed : ∀ thread, w.thread? t = some thread → Aimed w.actors.length thread.tasks)
    {thread : Thread} (now : w'.thread? t = some thread) : Aimed w.actors.length thread.tasks := by
  obtain ⟨x, rest, outside, found, steps⟩ := of_stepThread? moved
  have below : ∀ {tasks}, tasks <:+ x :: rest → Aimed w.actors.length tasks := fun suffix =>
    (aimed _ found).of_suffix suffix
  rcases steps with ⟨xs, v, old, executed, _, rfl⟩ | ⟨a, v, _, rfl⟩
  · rw [v.eq_of_thread?_setThread now]
    exact (aimed_of_exec found executed).append (below (List.suffix_cons x rest))
  · have unwinds := v.unwinds_deliverAnswer (S := fun _ => True) t a rest
    generalize v.deliverAnswer t a rest = v' at unwinds now
    cases unwinds with
    | @resumes _ speaker tasks before shared _ next works suffix a =>
      rw [eq_of_thread?_setThread _ now]
      have resumed := (List.suffix_cons _ tasks).trans (suffix.trans (List.suffix_cons x rest))
      have plain : Aimed w.actors.length [.perform speaker (next a)] := by simp [Aimed]
      exact plain.append (below resumed)
    | ends | abandons =>
      rw [eq_of_thread?_setThread _ now]
      simp [Aimed]

/-- Everyone who is called stays there. -/
private theorem AllAimed.step {w' : World σ} (h : AllAimed w)
    (step : Transition (threadOf w.controller.scheduled) w w')
    (moved : w.stepThread? (threadOf w.controller.scheduled) = some w') : AllAimed w' := by
  intro u thread known found
  refine Aimed.mono ?_ step.length_actors_le
  by_cases own : u = threadOf w.controller.scheduled
  · subst own
    exact aimed_stepThread? moved (h _ · known) found
  · rcases step.thread?_of_ne own known found with before | ⟨i, rfl⟩
    · exact h u thread known before
    · simp [Aimed]

end World

/-- As long as a run has no outcome, whoever is engaged with is there. -/
theorem Experiment.allAimed [Strategy σ] (e : Experiment) {ids : Allocator} {s : σ} {n : Nat}
    (running : (e.iterate n ids s).isOver = false) : (e.iterate n ids s).AllAimed := by
  refine (e.invariant (P := World.AllAimed) ?_ ?_ running).2.2
  · intro u thread known found
    cases u with
    | driver =>
      obtain rfl := Option.some.inj found
      simp [iterate, World.run, World.new, Aimed]
    | actor i => cases found
    | sleeper j => exact absurd rfl (known j)
  · intro k _ sound poised aimed step goesOn
    cases moved : (e.iterate k ids s).step? with
    | none =>
      rw [e.iterate_succ, moved, Option.getD_none]
      exact aimed
    | some w =>
      have same : e.iterate (k + 1) ids s = w := by rw [e.iterate_succ, moved, Option.getD_some]
      rw [World.step?_of_running sound.explores (e.running_of_succ ids s goesOn)] at moved
      rw [same] at step ⊢
      exact aimed.step step moved

end SteeredActors
