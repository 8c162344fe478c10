import SteeredActors.Proofs.World.Accesses
import SteeredActors.Proofs.World.Responses
import SteeredActors.Proofs.World.Yields

/-!
# Answers

Only a task that comes right before a program that waits brings it a value. So what is done for a call
stays above that program until it has been done, or else an error abandons all of it and is the answer.
-/

set_option autoImplicit false
set_option relaxedAutoImplicit false

namespace SteeredActors

variable {σ : Type}

/-- A task that brings a value to the program that waits. -/
def Task.brings : Task → Bool
  | .collect _ | .touch _ _ | .answer _ | .listMonitors | .readMonitor _ => true
  | _ => false

/-- What brings a value comes right before the program that waits for it. -/
theorem Task.Precedes.waits {x : Task} {next : Option Task} (precedes : x.Precedes next)
    (brings : x.brings = true) : ∃ y, next = some y ∧ y.waits = true := by
  cases x <;> first | cases brings; done | obtain ⟨_, _, _, _, rfl⟩ := precedes; exact ⟨_, rfl, rfl⟩

/-! ## Who answers -/

namespace World

variable [Strategy σ] {w w' : World σ} {t : ThreadId}

/-- What brings no value and answers has failed. -/
theorem exists_error_of_exec {x : Task} (plain : x.brings = false) {a : Answer} {v : World σ}
    (executed : w.exec t x = .answer a v) : ∃ failure, a = .error failure := by
  cases responds_of_exec executed with
  | collects | lists | reads | gives | touches => cases plain
  | lacks | misses | repeats | strange | ends | unwinds => exact ⟨_, rfl⟩

/-! ## Who is answered -/

omit [Strategy σ] in
/-- Only an access to a shared object tells its refusals apart. -/
theorem adaptAnswer_false (a : Answer) : adaptAnswer false a = a := by
  cases a with
  | ok => rfl
  | error failure => cases failure <;> rfl

omit [Strategy σ] in
/-- An answer abandons what stands above the program that waits. -/
theorem thread?_deliverAnswer_of_waits {old : Thread} (there : w.thread? t = some old) (a : Answer)
    {xs : List Task} (quiet : awaited xs = false) (speaker : Speaker) (outside shared : Bool)
    (next : Answer → Program) (rest : List Task) :
    (w.deliverAnswer t a (xs ++ .resume speaker outside shared next :: rest)).thread? t =
      some ⟨.perform speaker (next (adaptAnswer shared a)) :: rest, outside⟩ := by
  induction xs generalizing w with
  | nil => exact thread?_setThread _ there _
  | cons x xs ih =>
    obtain ⟨plain, quiet⟩ := Bool.or_eq_false_iff.1 ((awaited_cons x xs).symm.trans quiet)
    have skipped := fun (v : World σ) (there : v.thread? t = some old) => ih there quiet
    cases x
    case resume => cases plain
    case release m => exact skipped _ (by cases t <;> exact there)
    case enlist m => exact skipped _ (by cases t <;> exact there)
    all_goals exact skipped w there

/-- Of the programs that wait one is the first. -/
theorem exists_waiting {xs : List Task} (waiting : awaited xs = true) :
    ∃ above speaker outside shared next below,
      xs = above ++ .resume speaker outside shared next :: below ∧ awaited above = false := by
  induction xs with
  | nil => cases waiting
  | cons x xs ih =>
    cases first : x.waits with
    | true =>
      cases x
      case resume speaker outside shared next => exact ⟨[], _, _, _, _, xs, rfl, rfl⟩
      all_goals cases first
    | false =>
      rw [awaited_cons, first, Bool.false_or] at waiting
      obtain ⟨above, speaker, outside, shared, next, below, rfl, quiet⟩ := ih waiting
      exact ⟨x :: above, speaker, outside, shared, next, below, rfl, by simp [first, quiet]⟩

/-- What stands above what is to be done for a call stays above it, or the call fails. -/
theorem above_of_stepThread? (orderly : w.Orderly) {x : Task} {xs legs rest : List Task}
    {speaker : Speaker} {outside before shared : Bool} {next : Answer → Program}
    (found : w.thread? t = some
      ⟨x :: (xs ++ (legs ++ .resume speaker before shared next :: rest)), outside⟩)
    (quiet : awaited legs = false) (precedes : x.Precedes (xs ++ legs).head?)
    (moved : w.stepThread? t = some w') {thread : Thread} (now : w'.thread? t = some thread) :
    (∃ ys, thread.tasks = ys ++ (legs ++ .resume speaker before shared next :: rest)) ∨
      ∃ failure, thread.tasks =
        .perform speaker (next (adaptAnswer shared (.error failure))) :: rest := by
  obtain ⟨x', below, outside', found', steps⟩ := of_stepThread? moved
  cases found.symm.trans found'
  rcases steps with ⟨ys, v, old, _, _, rfl⟩ | ⟨a, v, executed, rfl⟩
  · rw [v.eq_of_thread?_setThread now]
    exact .inl ⟨ys ++ xs, (List.append_assoc _ _ _).symm⟩
  have leads := orderly.exec t (orderly.founded _ _ found _ List.mem_cons_self)
  rw [executed] at leads
  obtain ⟨old, kept, _⟩ := leads.kept _ _ found
  cases waiting : awaited xs with
  | true =>
    obtain ⟨above, voice, outside', shared', next', below, rfl, silent⟩ := exists_waiting waiting
    rw [List.append_assoc, List.cons_append,
      thread?_deliverAnswer_of_waits kept a silent] at now
    obtain rfl := Option.some.inj now
    exact .inl ⟨_ :: below, rfl⟩
  | false =>
    -- What brings a value comes right before a program that waits, and none does above the call.
    have plain : x.brings = false := by
      by_contra brings
      obtain ⟨y, first, waits⟩ := precedes.waits (by simpa using brings)
      have mem : y ∈ xs ++ legs := List.mem_of_mem_head? first
      have none : awaited (xs ++ legs) = false := by simp [waiting, quiet]
      rw [awaited, List.any_eq_false] at none
      exact none y mem waits
    obtain ⟨failure, rfl⟩ := exists_error_of_exec plain executed
    have silent : awaited (xs ++ legs) = false := by simp [waiting, quiet]
    rw [← List.append_assoc, thread?_deliverAnswer_of_waits kept _ silent] at now
    obtain rfl := Option.some.inj now
    exact .inr ⟨failure, rfl⟩

end World

end SteeredActors
