import SteeredActors.Proofs.World.Admission

/-!
# Rejected requests

A rejected request leaves the world as it was, but for the program that is told. What is rejected at once
has not changed anything, and what has been let through is not rejected any more, whatever programs ask
for in between. That leaves the look for a monitor, which the thread takes in its next step.
-/

set_option autoImplicit false
set_option relaxedAutoImplicit false

namespace SteeredActors

variable {σ : Type}

/-- If it is a thread's turn to move and it can, it does. -/
private theorem World.step?_of_mover [Strategy σ] {w w' : World σ} {t : ThreadId}
    (moves : w.mover? = some t) (moved : w.stepThread? t = some w') : w.step? = some w' := by
  cases stepped : w.step? with
  | some v =>
    rcases of_step? stepped with ⟨u, moves', moved'⟩ | ⟨unmoved, _⟩
    · cases moves.symm.trans moves'
      exact moved'.symm.trans moved
    · cases unmoved.symm.trans moves
  | none =>
    unfold mover? at moves
    unfold step? at stepped
    split at moves
    · next running =>
      cases moves
      rw [if_pos running, moved] at stepped
      cases stepped
    · next running =>
      rw [if_neg running] at stepped
      have mem := List.mem_of_find?_eq_some moves
      split at stepped
      · cases stepped
      · next still =>
        rw [List.findSome?_eq_none_iff.1 still t mem] at moved
        cases moved

/-! ## Programs that ask -/

/-- A request, with the program that makes it and what its thread has to do afterwards. -/
structure Inquiry where
  thread : ThreadId
  speaker : Speaker
  voice : Voice
  request : Request
  next : Answer → Program
  outside : Bool
  below : List Task

namespace Inquiry

/-- The thread whose program makes the request. -/
def asks (q : Inquiry) : Thread :=
  ⟨.perform q.speaker (.ask q.voice q.request q.next) :: q.below, q.outside⟩

/-- The request is made by a thread that the controller does not know. -/
def strange (q : Inquiry) : Bool := q.outside || q.voice == .outsider

/-- The number with the controller of whoever makes the request. -/
def caller? (q : Inquiry) (w : World σ) : Option Nat :=
  if q.strange then none else w.operation? q.thread

/-- What stands below all that is done for the request. -/
def waits (q : Inquiry) : List Task :=
  .resume q.speaker q.outside q.request.isAccess q.next :: q.below

/-- The thread whose program goes on with an answer. -/
def told (q : Inquiry) (a : Answer) : Thread := ⟨.perform q.speaker (q.next a) :: q.below, q.outside⟩

variable {q : Inquiry}

/-- A program that goes on does not wait. -/
theorem perform_ne_waits (program : Program) (above : List Task) :
    .perform q.speaker program :: q.below ≠ above ++ q.waits := by
  intro same
  cases above with
  | nil => cases (List.cons.inj same).1
  | cons y ys =>
    have := congrArg List.length same
    simp [waits] at this
    omega

theorem of_caller? {w : World σ} (known : (q.caller? w).isSome = true) :
    q.strange = false ∧ ∀ j, q.thread ≠ .sleeper j := by
  unfold caller? at known
  split at known
  · cases known
  · next own =>
    refine ⟨by simpa using own, fun j same => ?_⟩
    rw [same] at known
    cases known

variable [Strategy σ] {w w' v : World σ}

/-- A request that is answered at once. -/
theorem stepThread?_of_now (found : w.thread? q.thread = some q.asks) {a : Answer}
    (served : w.service q.thread q.asks q.speaker q.voice q.request = .now a v) :
    w.stepThread? q.thread = some (v.setThread q.thread (q.told a)) := by
  have kept := World.thread?_of_service found q.asks q.speaker q.voice q.request
  rw [served] at kept
  rcases World.exec_ask found q.speaker q.voice q.request q.next with
    ⟨a', v', served', executed⟩ | ⟨_, _, _, served', _⟩ <;> cases served.symm.trans served'
  have there : v.thread? q.thread = some q.asks := kept
  rw [World.stepThread?_cons (by exact found), executed]
  simp only [there]
  rfl

/-- A program is told what comes of looking for a monitor. -/
theorem stepThread?_of_refused (operates : q.request.isOperation = true) {x : Task} {outside : Bool}
    (found : w.thread? q.thread = some ⟨x :: ([.answer .null] ++ q.waits), outside⟩) {a : Answer}
    (executed : w.exec q.thread x = .answer a v) :
    w.stepThread? q.thread = some (v.setThread q.thread (q.told a)) := by
  rw [World.stepThread?_cons found, executed]
  simp only [List.cons_append, List.nil_append, waits, World.deliverAnswer,
    Request.isAccess_of_isOperation operates, World.adaptAnswer_false]
  rfl

/-- A request for which something has to be done. -/
theorem stepThread?_of_later (found : w.thread? q.thread = some q.asks) {tasks : List Task}
    (served : w.service q.thread q.asks q.speaker q.voice q.request = .later tasks v) :
    w.stepThread? q.thread = some (v.setThread q.thread ⟨tasks ++ q.waits, q.strange⟩) := by
  have kept := World.thread?_of_service found q.asks q.speaker q.voice q.request
  rw [served] at kept
  have executed : w.exec q.thread (.perform q.speaker (.ask q.voice q.request q.next)) =
      .go (tasks ++ [.resume q.speaker q.outside q.request.isAccess q.next])
        (v.setThread q.thread { q.asks with outside := q.strange }) := by
    simp only [World.exec, World.perform, found, asks]
    split
    · next answered => cases answered.symm.trans served
    · next served' =>
      cases served'.symm.trans served
      cases q.request <;> rfl
  have there := v.thread?_setThread (by exact kept) { q.asks with outside := q.strange }
  rw [World.stepThread?_cons (by exact found), executed]
  simp only [there, World.setThread_setThread]
  rw [List.append_assoc]
  rfl

variable {known own outside outside' : Bool} {x : Task} {xs above above' : List Task}

/-- What is done for a request is not a program that waits. -/
private theorem waits_of_served {t : ThreadId} {old : Thread} {speaker : Speaker} {voice : Voice}
    {request : Request} {tasks : List Task}
    (served : w.service t old speaker voice request = .later tasks v) :
    ∀ y ∈ tasks, y.waits = false := by
  have leads := w.leaving_serve (if old.outside || voice == .outsider then none
    else w.operation? t) speaker voice request
  rw [← World.service, served] at leads
  rcases leads.shape with ⟨serves, _⟩ | ⟨_, rfl⟩
  · intro y mem
    have serves := serves y mem
    cases y <;> first | rfl | cases serves
  · simp [Task.waits]

/-- What a task goes on with has been let through, or it is done for another program. -/
private theorem admitted_of_go {t : ThreadId} {below ys : List Task} {old : Thread}
    (plain : x.waits = false) (idle : awaited xs = true ∨ x.worker? = none)
    (admitted : Admitted known own outside xs)
    (found : w.thread? t = some ⟨x :: below, outside⟩) (executed : w.exec t x = .go ys v)
    (kept : v.thread? t = some old) : Admitted known own old.outside (ys ++ xs) := by
  cases asks : x.request? with
  | none =>
    rw [World.thread?_of_exec found asks plain executed] at kept
    obtain rfl := Option.some.inj kept
    have yields := (World.brings_of_exec executed).yields.admits asks known
    exact admitted.append fun y mem => ⟨(yields y mem).1, idle.imp id (yields y mem).2⟩
  | some request =>
    obtain ⟨speaker, voice, next, rfl⟩ := Task.of_request? asks
    rcases World.exec_ask found speaker voice request next with
      ⟨a, v', served, executed'⟩ | ⟨tasks, v', before, served, executed'⟩ <;>
      cases executed.symm.trans executed'
    · have keeps := World.thread?_of_service found
        ⟨.perform speaker (.ask voice request next) :: below, outside⟩ speaker voice request
      rw [served] at keeps
      obtain rfl := Option.some.inj (kept.symm.trans keeps)
      exact (admitted_cons rfl xs).2 ⟨.inr rfl, admitted⟩
    · have resumes : Admitted known own old.outside
          (.resume speaker outside request.isAccess next :: xs) := admitted
      rw [List.append_assoc]
      exact resumes.append fun y mem => ⟨waits_of_served served y mem, .inl rfl⟩

/-- What has been let through stays so, whatever the thread does next. Even what looks for a monitor has
been let through when it has been done and the program still waits. -/
theorem admitted_of_plain (orderly : w.Orderly) (plain : x.waits = false)
    (idle : awaited xs = true ∨ x.worker? = none) (admitted : Admitted known own outside xs)
    (found : w.thread? q.thread = some ⟨x :: (xs ++ q.waits), outside⟩)
    (moved : w.stepThread? q.thread = some w')
    (now : w'.thread? q.thread = some ⟨above ++ q.waits, outside'⟩) :
    Admitted known own outside' above := by
  obtain ⟨x', below, out, found', steps⟩ := World.of_stepThread? moved
  cases found.symm.trans found'
  rcases steps with ⟨ys, v, old, executed, kept, rfl⟩ | ⟨a, v, executed, rfl⟩
  · rw [v.thread?_setThread kept] at now
    obtain ⟨same, rfl⟩ := Thread.mk.inj (Option.some.inj now)
    obtain rfl := List.append_cancel_right ((List.append_assoc ..).trans same)
    exact admitted_of_go plain idle admitted found executed kept
  · have leads := orderly.exec q.thread (orderly.founded _ _ found _ List.mem_cons_self)
    rw [executed] at leads
    obtain ⟨old, kept, _⟩ := leads.kept _ _ found
    cases waiting : awaited xs with
    | false =>
      rw [waits, World.thread?_deliverAnswer_of_waits kept a waiting] at now
      exact (perform_ne_waits _ _ (Thread.mk.inj (Option.some.inj now)).1).elim
    | true =>
      obtain ⟨ys, speaker, before, shared, next, below, rfl, quiet⟩ := World.exists_waiting waiting
      rw [List.append_assoc, List.cons_append, World.thread?_deliverAnswer_of_waits kept a quiet]
        at now
      obtain ⟨same, rfl⟩ := Thread.mk.inj (Option.some.inj now)
      obtain rfl := List.append_cancel_right ((List.cons_append ..).trans same)
      exact (admitted_cons rfl below).2 ⟨.inr rfl, admitted.below⟩

/-- A program whose request has been done goes on under the name that its thread had. -/
private theorem resumed {t : ThreadId} {speaker : Speaker} {before shared : Bool}
    {next : Answer → Program} {rest : List Task}
    (found : w.thread? t = some ⟨.resume speaker before shared next :: rest, outside⟩)
    (moved : w.stepThread? t = some w') :
    w'.thread? t = some ⟨.perform speaker (next (.ok .null)) :: rest, before⟩ := by
  have kept := w.thread?_setThread found
    ⟨.resume speaker before shared next :: rest, before⟩
  have executed : w.exec t (.resume speaker before shared next) =
      .go [.perform speaker (next (.ok .null))]
        (w.setThread t ⟨.resume speaker before shared next :: rest, before⟩) := by
    simp only [World.exec, found]
  rw [World.stepThread?_go found executed kept moved]
  exact World.thread?_setThread _ kept _

/-- What has been let through stays so as long as the program waits. -/
theorem admitted_of_stepThread? (orderly : w.Orderly)
    (found : w.thread? q.thread = some ⟨above ++ q.waits, outside⟩)
    (admitted : Admitted known own outside above) (moved : w.stepThread? q.thread = some w')
    (now : w'.thread? q.thread = some ⟨above' ++ q.waits, outside'⟩) :
    Admitted known own outside' above' := by
  cases above with
  | nil =>
    rw [resumed found moved] at now
    exact (perform_ne_waits _ _ (Thread.mk.inj (Option.some.inj now)).1).elim
  | cons x xs =>
    cases plain : x.waits with
    | false =>
      obtain ⟨free, rest⟩ := (admitted_cons plain xs).1 admitted
      exact admitted_of_plain orderly plain (free.imp id Task.worker?_of_admits) rest found moved now
    | true =>
      cases x <;> first | cases plain; done | skip
      rw [resumed found moved] at now
      obtain ⟨same, rfl⟩ := Thread.mk.inj (Option.some.inj now)
      obtain rfl := List.append_cancel_right ((List.cons_append ..).trans same)
      exact (admitted_cons rfl xs).2 ⟨.inr rfl, admitted⟩

/-- A move of its thread answers a program, or the program waits on. -/
theorem waits_or_answered (orderly : w.Orderly)
    (found : w.thread? q.thread = some ⟨above ++ q.waits, outside⟩)
    (moved : w.stepThread? q.thread = some w') :
    (∃ above outside, w'.thread? q.thread = some ⟨above ++ q.waits, outside⟩) ∨ above = [] ∨
      ∃ x xs a v, above = x :: xs ∧ awaited above = false ∧ w.exec q.thread x = .answer a v := by
  cases above with
  | nil => exact .inr (.inl rfl)
  | cons x xs =>
    rw [List.cons_append] at found
    obtain ⟨x', below, out, found', steps⟩ := World.of_stepThread? moved
    cases found.symm.trans found'
    rcases steps with ⟨ys, v, old, executed, kept, rfl⟩ | ⟨a, v, executed, rfl⟩
    · exact .inl ⟨ys ++ xs, old.outside, by rw [v.thread?_setThread kept, List.append_assoc]⟩
    · cases quiet : awaited (x :: xs) with
      | false => exact .inr (.inr ⟨x, xs, a, v, rfl, rfl, executed⟩)
      | true =>
        have plain : x.waits = false := by
          cases x <;> first | rfl | skip
          simp only [World.exec, found] at executed
          cases executed
        rw [awaited_cons, plain, Bool.false_or] at quiet
        have leads := orderly.exec q.thread (orderly.founded _ _ found x List.mem_cons_self)
        rw [executed] at leads
        obtain ⟨old, kept, _⟩ := leads.kept _ _ found
        obtain ⟨ys, speaker, before, shared, next, below, rfl, silent⟩ := World.exists_waiting quiet
        rw [List.append_assoc, List.cons_append, World.thread?_deliverAnswer_of_waits kept a silent]
        exact .inl ⟨_ :: below, before, rfl⟩

/-- What has been let through does not fail as if it were out of order. -/
theorem not_rejects (explores : w.explores = true)
    (found : w.thread? q.thread = some ⟨x :: (above ++ q.waits), outside⟩)
    (admitted : Admitted known own outside (x :: above)) (quiet : awaited (x :: above) = false)
    (calls : known = true → own = false ∧ ∀ j, q.thread ≠ .sleeper j) {failure : Failure}
    (executed : w.exec q.thread x = .answer (.error failure) v) : failure.rejects = false := by
  by_contra rejects
  obtain ⟨plain, silent⟩ := Bool.or_eq_false_iff.1 ((awaited_cons x above).symm.trans quiet)
  have admits : x.admits known = true :=
    ((admitted_cons plain above).1 admitted).1.resolve_left (by simp [silent])
  rcases (World.doubts_of_exec executed (by simpa using rejects)).2 with looks | ⟨kind, rfl, unknown⟩
  · cases x <;> first | cases looks; done | cases admits
  · obtain ⟨name, others⟩ := calls admits
    have called := (World.isSome_caller? explores found).2 ⟨(admitted.same quiet).trans name, others⟩
    simp [unknown] at called

end Inquiry

namespace Experiment

variable [Strategy σ] (e : Experiment) (ids : Allocator) (s : σ)

/-- In step `n` a program makes a request. -/
structure Makes (q : Inquiry) (n : Nat) : Prop where
  moves : (e.iterate n ids s).mover? = some q.thread
  asks : (e.iterate n ids s).thread? q.thread = some q.asks

/-- After step `n` and until step `m` the program waits. -/
def Awaits (q : Inquiry) (n m : Nat) : Prop :=
  ∀ k, n < k → k ≤ m → ∃ above outside,
    (e.iterate k ids s).thread? q.thread = some ⟨above ++ q.waits, outside⟩

/-- What a program asks for in step `n` is answered in step `m`: at once, or by what is done for it and
not for another request that is made meanwhile, or because there is nothing more to be done. -/
inductive Answers (q : Inquiry) (n : Nat) : Nat → Answer → Prop where
  | atOnce {a : Answer} {v : World σ} (served : (e.iterate n ids s).service q.thread q.asks q.speaker
      q.voice q.request = .now a v) : Answers q n n a
  | later {m : Nat} {x : Task} {above : List Task} {outside : Bool} {a : Answer} {v : World σ}
      (lt : n < m) (awaits : e.Awaits ids s q n m)
      (moves : (e.iterate m ids s).mover? = some q.thread)
      (found : (e.iterate m ids s).thread? q.thread = some ⟨x :: (above ++ q.waits), outside⟩)
      (quiet : awaited (x :: above) = false)
      (executed : (e.iterate m ids s).exec q.thread x = .answer a v) : Answers q n m a
  | done {m : Nat} {outside : Bool} (lt : n < m) (awaits : e.Awaits ids s q n m)
      (moves : (e.iterate m ids s).mover? = some q.thread)
      (found : (e.iterate m ids s).thread? q.thread = some ⟨q.waits, outside⟩) :
      Answers q n m (.ok .null)

/-- Before step `n` the program waits, and its request has been let through. -/
def LetThrough (q : Inquiry) (known : Bool) (n : Nat) : Prop :=
  ∃ above outside, (e.iterate n ids s).thread? q.thread = some ⟨above ++ q.waits, outside⟩ ∧
    Admitted known q.strange outside above

variable {e ids s} {q : Inquiry} {n m k : Nat} {known : Bool}

theorem Awaits.since (awaits : e.Awaits ids s q n m) (le : n ≤ k) : e.Awaits ids s q k m :=
  fun j lt => awaits j (Nat.lt_of_le_of_lt le lt)

theorem Awaits.until (awaits : e.Awaits ids s q n m) (le : k ≤ m) : e.Awaits ids s q n k :=
  fun j lt before => awaits j lt (Nat.le_trans before le)

private theorem iterate_succ_of_mover {t : ThreadId} {w : World σ}
    (moves : (e.iterate n ids s).mover? = some t)
    (moved : (e.iterate n ids s).stepThread? t = some w) : e.iterate (n + 1) ids s = w := by
  rw [iterate_succ, World.step?_of_mover moves moved, Option.getD_some]

/-- A thread moves, or it is as it was. -/
private theorem moves_or_same (accepted : e.registry.Accepted) {t : ThreadId} {thread : Thread}
    (found : (e.iterate m ids s).thread? t = some thread) :
    (e.iterate m ids s).mover? = some t ∧
        (e.iterate m ids s).stepThread? t = some (e.iterate (m + 1) ids s) ∨
      (e.iterate (m + 1) ids s).thread? t = some thread := by
  rw [e.iterate_succ ids s m]
  cases moved : (e.iterate m ids s).step? with
  | none => exact .inr found
  | some w =>
    rw [Option.getD_some]
    rcases World.of_step? moved with ⟨u, moves, does⟩ | ⟨_, clock, rfl⟩
    · by_cases mine : t = u
      · subst mine
        exact .inl ⟨moves, does⟩
      · exact .inr (((e.tended accepted ids s m).shares does).others mine found)
    · cases t <;> exact .inr found

/-- What a program asks for comes of looking whether it may. -/
private theorem fair_service (accepted : e.registry.Accepted) (ids : Allocator) (s : σ) (n : Nat)
    (operates : q.request.isOperation = true) :
    ((e.iterate n ids s).service q.thread q.asks q.speaker q.voice q.request).Fair
      (e.iterate n ids s) (q.caller? (e.iterate n ids s)).isSome := by
  refine World.fair_serve (e.tended accepted ids s n).explores (fun i core found => ?_) q.speaker
    q.voice operates
  obtain ⟨_, id, _, _, _, made, becomes⟩ :=
    (e.evolves accepted ids s (Nat.zero_le n)).fresh (.actor i) core rfl found
  exact becomes.id ▸ made rfl

/-- What has to be done for a request is next for its thread. -/
private theorem begins_of_later (makes : e.Makes ids s q n) {tasks : List Task} {w : World σ}
    (served : (e.iterate n ids s).service q.thread q.asks q.speaker q.voice q.request =
      .later tasks w) :
    e.iterate (n + 1) ids s = w.setThread q.thread ⟨tasks ++ q.waits, q.strange⟩ ∧
      (e.iterate (n + 1) ids s).thread? q.thread = some ⟨tasks ++ q.waits, q.strange⟩ := by
  have begun := iterate_succ_of_mover makes.moves (Inquiry.stepThread?_of_later makes.asks served)
  have kept := World.thread?_of_service makes.asks q.asks q.speaker q.voice q.request
  rw [served] at kept
  exact ⟨begun, begun ▸ w.thread?_setThread kept _⟩

/-- A program that has been answered at once does not wait. -/
private theorem not_awaits_of_now (makes : e.Makes ids s q n) {a : Answer} {w : World σ}
    (served : (e.iterate n ids s).service q.thread q.asks q.speaker q.voice q.request = .now a w)
    (lt : n < m) : ¬e.Awaits ids s q n m := by
  intro awaits
  obtain ⟨above, outside, waiting⟩ := awaits (n + 1) (Nat.lt_succ_self n) lt
  rw [iterate_succ_of_mover makes.moves (Inquiry.stepThread?_of_now makes.asks served)] at waiting
  exact Inquiry.perform_ne_waits _ _ (Thread.mk.inj (w.eq_of_thread?_setThread waiting)).1.symm

/-- What has been let through stays so until the answer. -/
private theorem letThrough_of_awaits (accepted : e.registry.Accepted) (le : k ≤ m)
    (awaits : e.Awaits ids s q k m) (through : e.LetThrough ids s q known k) :
    e.LetThrough ids s q known m := by
  induction le with
  | refl => exact through
  | @step m le ih =>
    obtain ⟨above, outside, found, admitted⟩ := ih (awaits.until (Nat.le_succ m))
    obtain ⟨above', outside', now⟩ := awaits (m + 1) (Nat.lt_succ_of_le le) (Nat.le_refl _)
    rcases moves_or_same accepted found with ⟨_, moved⟩ | same
    · exact ⟨above', outside', now, Inquiry.admitted_of_stepThread?
        ((e.reached m ids s).orderly accepted) found admitted moved now⟩
    · exact ⟨above, outside, same, admitted⟩

/-- A thread keeps its turn if all that it does is to go on to its next task. -/
private theorem mover?_of_begun (accepted : e.registry.Accepted) {t : ThreadId} {thread : Thread}
    (running : (e.iterate n ids s).isOver = false) (moves : (e.iterate n ids s).mover? = some t)
    (begun : e.iterate (n + 1) ids s = (e.iterate n ids s).setThread t thread) :
    (e.iterate (n + 1) ids s).mover? = some t := by
  have explores := fun n => (e.tended accepted ids s n).explores
  have running' : (e.iterate (n + 1) ids s).isOver = false := by
    rw [begun, World.isOver, World.controller_setThread]
    exact running
  have moves' := World.mover?_of_running (explores (n + 1)) running'
  rw [begun, World.controller_setThread, ← World.mover?_of_running (explores n) running,
    moves] at moves'
  rw [begun, moves']

/-- What looks for a monitor has not been done yet, or the request has been let through. -/
private theorem eq_or_letThrough (accepted : e.registry.Accepted) (le : k ≤ m)
    (awaits : e.Awaits ids s q k m) (moves : (e.iterate k ids s).mover? = some q.thread)
    {x : Task} (looks : x.looksUp = true)
    (found : (e.iterate k ids s).thread? q.thread =
      some ⟨x :: .answer .null :: q.waits, q.strange⟩) :
    e.iterate m ids s = e.iterate k ids s ∨ e.LetThrough ids s q known m := by
  have plain : x.waits = false ∧ x.worker? = none := by
    cases x <;> first | cases looks; done | exact ⟨rfl, rfl⟩
  have succ := e.iterate_succ ids s k
  cases moved : (e.iterate k ids s).step? with
  | none => exact .inl (e.iterate_of_stuck moved le)
  | some w =>
    rw [moved, Option.getD_some] at succ
    rcases Nat.eq_or_lt_of_le le with rfl | lt
    · exact .inl rfl
    · obtain ⟨above, outside, now⟩ := awaits (k + 1) (Nat.lt_succ_self k) lt
      refine .inr (letThrough_of_awaits accepted lt (awaits.since (Nat.le_succ k))
        ⟨above, outside, now, ?_⟩)
      rcases World.of_step? moved with ⟨t, moves', does⟩ | ⟨unmoved, _⟩
      · obtain rfl := Option.some.inj (moves.symm.trans moves')
        have last : Admitted known q.strange q.strange [.answer .null] :=
          (admitted_cons rfl []).2 ⟨.inr rfl, rfl⟩
        exact Inquiry.admitted_of_plain ((e.reached k ids s).orderly accepted) plain.1 (.inr plain.2)
          last found does (succ ▸ now)
      · cases moves.symm.trans unmoved

/-- A request that has been let through is not rejected. -/
private theorem not_letThrough (accepted : e.registry.Accepted) {x : Task} {above : List Task}
    {outside : Bool} {w : World σ}
    (found : (e.iterate m ids s).thread? q.thread = some ⟨x :: (above ++ q.waits), outside⟩)
    (quiet : awaited (x :: above) = false) {failure : Failure}
    (executed : (e.iterate m ids s).exec q.thread x = .answer (.error failure) w)
    (rejects : failure.rejects = true) :
    ¬e.LetThrough ids s q (q.caller? (e.iterate n ids s)).isSome m := by
  rintro ⟨above', outside', found', admitted⟩
  obtain ⟨same, rfl⟩ := Thread.mk.inj (Option.some.inj (found'.symm.trans found))
  obtain rfl := List.append_cancel_right (same.trans (List.cons_append ..).symm)
  have spares := Inquiry.not_rejects (e.tended accepted ids s m).explores found admitted quiet
    Inquiry.of_caller? executed
  cases spares.symm.trans rejects

/-- A rejected request leaves no trace: the world in which its program is told is that in which it asked,
but for the place of the thread in the program. -/
theorem traceless_of_rejected (accepted : e.registry.Accepted)
    (operates : q.request.isOperation = true) (makes : e.Makes ids s q n) {failure : Failure}
    (answers : e.Answers ids s q n m (.error failure)) (rejects : failure.rejects = true) :
    e.iterate (m + 1) ids s =
      (e.iterate n ids s).setThread q.thread (q.told (.error failure)) := by
  have fair := fair_service accepted ids s n operates
  cases served : (e.iterate n ids s).service q.thread q.asks q.speaker q.voice q.request with
  | now a v =>
    rw [served] at fair
    cases fair with
    | now same =>
      cases answers with
      | atOnce served' =>
        cases served.symm.trans served'
        rw [iterate_succ_of_mover makes.moves (Inquiry.stepThread?_of_now makes.asks served),
          same _ rfl rejects]
      | later lt awaits => exact (not_awaits_of_now makes served lt awaits).elim
  | later tasks v =>
    obtain ⟨begun, there⟩ := begins_of_later makes served
    rw [served] at fair
    cases answers with
    | atOnce served' => cases served.symm.trans served'
    | @later _ x above outside _ _ lt awaits moves found quiet executed =>
      have awaits := awaits.since (Nat.le_succ n)
      have stopped := not_letThrough (n := n) accepted found quiet executed rejects
      cases fair with
      | later each =>
        have done : Admitted (q.caller? (e.iterate n ids s)).isSome q.strange q.strange [] := rfl
        have sure := done.append fun y mem => ⟨(each y mem).1, .inr (each y mem).2⟩
        rw [List.append_nil] at sure
        exact (stopped (letThrough_of_awaits accepted lt awaits ⟨tasks, _, there, sure⟩)).elim
      | looksUp running looks =>
        have turn := mover?_of_begun accepted running makes.moves begun
        have same := (eq_or_letThrough accepted lt awaits turn looks there).resolve_right stopped
        obtain ⟨tasks, -⟩ := Thread.mk.inj (Option.some.inj (found.symm.trans (same ▸ there)))
        obtain rfl : above = [.answer .null] :=
          List.append_cancel_right (List.cons.inj tasks).2
        obtain ⟨rfl, -⟩ := World.doubts_of_exec executed rejects
        rw [iterate_succ_of_mover moves (Inquiry.stepThread?_of_refused operates found executed),
          same, begun, World.setThread_setThread]

/-- A program that waits no longer has been answered. -/
theorem exists_answer (accepted : e.registry.Accepted) (lt : n < m) (awaits : e.Awaits ids s q n m)
    (last : ¬e.Awaits ids s q n (m + 1)) : ∃ a, e.Answers ids s q n m a := by
  obtain ⟨above, outside, found⟩ := awaits m lt (Nat.le_refl m)
  have stops : ¬∃ above outside, (e.iterate (m + 1) ids s).thread? q.thread =
      some ⟨above ++ q.waits, outside⟩ := by
    refine fun goesOn => last fun k after le => ?_
    rcases Nat.eq_or_lt_of_le le with rfl | before
    · exact goesOn
    · exact awaits k after (Nat.le_of_lt_succ before)
  rcases moves_or_same accepted found with ⟨moves, moved⟩ | same
  · rcases Inquiry.waits_or_answered ((e.reached m ids s).orderly accepted) found moved with
      goesOn | rfl | ⟨x, xs, a, v, rfl, quiet, executed⟩
    · exact absurd goesOn stops
    · exact ⟨_, .done lt awaits moves found⟩
    · exact ⟨a, .later lt awaits moves found quiet executed⟩
  · exact absurd ⟨above, outside, same⟩ stops

private def guards : StateDescriptor := ⟨"Init", true, none, none, none, []⟩

private def warden : Declaration :=
  { typeTag := "Warden", kind := .monitor, inherited := [], observes := [], derived := [guards] }

private def wardenDescriptor : Descriptor := ⟨"Warden", .monitor, [guards], guards, []⟩

/-- The test registers the same monitor twice. -/
def repeating : Experiment where
  settings := .exploration
  registry := ⟨Timer.descriptors ++ [wardenDescriptor]⟩
  test :=
    .ask .own (.registerMonitor "Warden") fun _ =>
      .ask .own (.registerMonitor "Warden") fun _ => .finish {} .ok

private def turnsOfRepeating : ScriptedStrategy := .ofAnswers []

private theorem accepted_repeating : repeating.registry.Accepted := by
  have built : warden.build = .ok wardenDescriptor :=
    Declaration.build_of_plain (by decide) rfl rfl rfl rfl rfl
  exact ⟨[wardenDescriptor], by simpa using ⟨warden, built⟩, rfl⟩

/-- The second registration. -/
private def again : Inquiry :=
  { thread := .driver, speaker := .test, voice := .own, request := .registerMonitor "Warden",
    next := fun _ => .finish {} .ok, outside := false, below := [] }

/-- The monitor has started when the test is told that it is there already, and nothing comes of it. -/
theorem traceless_of_rejected_repeating :
    repeating.registry.Accepted ∧ again.request.isOperation = true ∧
      repeating.Makes ⟨0, 0⟩ turnsOfRepeating again 7 ∧
      repeating.Answers ⟨0, 0⟩ turnsOfRepeating again 7 8
        (.error (.runtime (.invalidOperation "Monitor 'Warden' is already registered"))) ∧
      (repeating.iterate 7 ⟨0, 0⟩ turnsOfRepeating).monitors.length = 1 ∧
      repeating.iterate 9 ⟨0, 0⟩ turnsOfRepeating =
        (repeating.iterate 7 ⟨0, 0⟩ turnsOfRepeating).setThread .driver
          ⟨[.perform .test (.finish {} .ok)], false⟩ := by
  have makes : repeating.Makes ⟨0, 0⟩ turnsOfRepeating again 7 := ⟨rfl, rfl⟩
  have answers : repeating.Answers ⟨0, 0⟩ turnsOfRepeating again 7 8
      (.error (.runtime (.invalidOperation "Monitor 'Warden' is already registered"))) := by
    have found : (repeating.iterate 8 ⟨0, 0⟩ turnsOfRepeating).thread? again.thread =
        some ⟨.install wardenDescriptor ⟨0, "Warden", "Warden", "Warden", 0⟩ ::
          ([.answer .null] ++ again.waits), false⟩ := rfl
    refine .later (by decide) (fun k after le => ?_) rfl found rfl rfl
    obtain rfl : k = 8 := by omega
    exact ⟨_ :: [.answer .null], _, found⟩
  exact ⟨accepted_repeating, rfl, makes, answers, rfl,
    traceless_of_rejected accepted_repeating rfl makes answers rfl⟩

end Experiment

end SteeredActors
