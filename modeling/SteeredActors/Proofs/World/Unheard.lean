import SteeredActors.Proofs.World.Answers
import SteeredActors.Proofs.World.Halting

/-!
# Calls to an actor that has halted

Monitors are told of the event, as always. Then it is dropped, and after a few steps of its own the
call returns: one that only sends as if the event had been taken, and one that waits with the
answer that nothing was handled. Only a delivery to a monitor that fails can bring another answer.
-/

set_option autoImplicit false
set_option relaxedAutoImplicit false

namespace SteeredActors

variable {σ : Type}

/-- A call that sends: whose it is, how the program goes on, and what its thread has to do then. -/
structure Outgoing where
  speaker : Speaker
  request : Request
  next : Answer → Program
  rest : List Task

namespace Outgoing

/-- What waits for the answer, and what comes afterwards. -/
def waiting (call : Outgoing) : List Task := .resume call.speaker false false call.next :: call.rest

/-- What the thread has to do when the call has returned. -/
def returned (call : Outgoing) (a : Answer) : List Task :=
  .perform call.speaker (call.next a) :: call.rest

/-- What a call to an actor that has halted returns. -/
def verdict (call : Outgoing) : Value := if call.request.isRendezvous then .bool false else .null

/-- What a thread has to do once the event has been dropped, with the number of steps; the last
task brings the answer. -/
inductive Homeward (call : Outgoing) (last : Task) : Nat → List Task → Prop where
  | points (kind : PointKind) : Homeward call last 4 (.point kind :: last :: call.waiting)
  | passes (kind : PointKind) : Homeward call last 3 (.pass kind :: .turn :: last :: call.waiting)
  | waits : Homeward call last 2 (.turn :: last :: call.waiting)
  | answers : Homeward call last 1 (last :: call.waiting)
  | returned : Homeward call last 0 (call.returned (.ok call.verdict))

/-- A task that answers a call to an actor that has halted. -/
inductive Settled (w : World σ) (call : Outgoing) : Task → Prop where
  | sends (returns : call.request.isRendezvous = false) : Settled w call (.answer .null)
  | executes (r : Nat) (waits : call.request.isRendezvous = true)
      (replied : w.replied? r = some false) : Settled w call (.collect r)

theorem Settled.mono {w w' : World σ} {call : Outgoing} {last : Task} (settled : Settled w call last)
    (kept : ∀ r, w.replied? r = some false → w'.replied? r = some false) : Settled w' call last := by
  cases settled with
  | sends returns => exact .sends returns
  | executes r waits replied => exact .executes r waits (kept r replied)

end Outgoing

/-- A machine or the test, in its own operation, makes a call that sends an event to the actor at a
position. -/
structure World.Calls (w : World σ) (call : Outgoing) (i : Nat) (event : Event) : Prop where
  asks : w.thread? (World.threadOf w.controller.scheduled) =
    some ⟨.perform call.speaker (.ask .own call.request call.next) :: call.rest, false⟩
  sends : ∃ target, call.request.sent? = some (target, event) ∧ w.actor? target = some i
  machine : call.speaker.isMonitor = false

/-- Such a call is let through unless an actor would wait for itself. -/
theorem World.Calls.called {w : World σ} {call : Outgoing} {i : Nat} {event : Event}
    (calls : w.Calls call i event) (other : w.controller.scheduled ≠ i + 1) :
    w.call? = some ⟨i, event, w.observers event.type⟩ := by
  obtain ⟨target, sends, found⟩ := calls.sends
  have passes : w.bars call.speaker .own false call.request i = false := by
    simp [World.bars, calls.machine, other]
  rw [World.call?_of_thread calls.asks, sends, Option.bind_some, found, Option.bind_some, passes]
  rfl

section Steps

variable [Strategy σ] {w : World σ} {call : Outgoing}

/-- The event is dropped, and the call goes on. -/
theorem Sound.step_of_dropped (h : Sound w) (poised : Poised w) (running : w.isOver = false)
    {i : Nat} {a : Actor} {event : Event} {outside : Bool}
    (found : w.thread? (World.threadOf w.controller.scheduled) =
      some ⟨call.request.legs i event ++ call.waiting, outside⟩)
    (there : w.actors[i]? = some a) (closed : a.mailbox.status = .halted) :
    ∃ w' last left tasks, w.step? = some w' ∧ left ≤ 3 ∧ call.Homeward last (left + 1) tasks ∧
      w'.thread? (World.threadOf w.controller.scheduled) = some ⟨tasks, false⟩ ∧
      call.Settled w' last := by
  rw [World.step?_of_running h.explores running]
  cases waits : call.request.isRendezvous with
  | false =>
    rw [Request.legs, waits] at found
    obtain rfl : outside = false := by
      obtain ⟨_, found', posture, _⟩ := h.holder poised
      obtain rfl := Option.some.inj (found.symm.trans found')
      cases posture with
      | working works =>
        cases works with
        | cons fits => exact fits
    have kept := (World.thread?_enqueue w _ i ⟨event, none⟩).trans found
    refine ⟨_, .answer .null, 3, .point .send :: .answer .null :: call.waiting, ?_, Nat.le_refl 3,
      .points .send, World.thread?_setThread _ kept _, .sends waits⟩
    rw [World.stepThread?_cons found]
    simp only [World.exec, kept]
    rfl
  | true =>
    rw [Request.legs, waits] at found
    obtain ⟨w₁, actors, opened, same, moved⟩ := h.step_of_engage poised found
    have there₁ : w₁.actors[i]? = some a := by rw [actors, there]
    have kept := (World.thread?_enqueue w₁ _ i ⟨event, some w.rendezvous.length⟩).trans
      (same.trans found)
    refine ⟨_, .collect w.rendezvous.length, 2, _, moved, by decide, .passes .rendezvous,
      World.thread?_setThread _ kept _, .executes _ waits ?_⟩
    have awaits : w₁.Awaits w.controller.scheduled w.rendezvous.length := by
      simp [World.Awaits, opened]
    rw [World.replied?, (SameDues.setThread _ _ _).rendezvous,
      World.enqueue_of_halted there₁ _ closed, World.discard, World.replyAll_eq]
    exact World.replied?_replyEach_false (List.mem_singleton.2 rfl) awaits

/-- Each further step brings the call closer to its answer. -/
theorem Sound.step_of_homeward (h : Sound w) (poised : Poised w) (running : w.isOver = false)
    {last : Task} {left : Nat} {tasks : List Task} (homeward : call.Homeward last (left + 1) tasks)
    (settled : call.Settled w last)
    (found : w.thread? (World.threadOf w.controller.scheduled) = some ⟨tasks, false⟩) :
    ∃ w' tasks', w.step? = some w' ∧ call.Homeward last left tasks' ∧
      w'.thread? (World.threadOf w.controller.scheduled) = some ⟨tasks', false⟩ := by
  have asks : w.operation? (World.threadOf w.controller.scheduled) =
      some w.controller.scheduled := by
    obtain ⟨_, _, _, asks⟩ := h.holder poised
    exact asks
  have known : w.caller? (World.threadOf w.controller.scheduled) = some w.controller.scheduled := by
    simp [World.caller?, found, asks]
  rw [World.step?_of_running h.explores running]
  cases homeward with
  | points kind =>
    exact ⟨_, _, h.passes_of_point running asks found, .passes kind,
      World.thread?_setThread _ found _⟩
  | passes kind =>
    have kept : World.thread?
        { w with controller := (w.controller.schedule w.controller.scheduled kind).2 }
        (World.threadOf w.controller.scheduled) = some ⟨_, false⟩ :=
      (World.thread?_setController ..).trans found
    refine ⟨_, _, ?_, .waits, World.thread?_setThread _ kept _⟩
    rw [World.stepThread?_cons found]
    simp only [World.exec, known, kept]
    rfl
  | waits =>
    have passed : w.controller.passage w.controller.scheduled = .passed :=
      (Controller.passage_eq (by simpa [World.explores, Controller.explores] using h.explores)
        running _).trans (if_pos rfl)
    refine ⟨_, _, ?_, .answers, World.thread?_setThread _ found _⟩
    rw [World.stepThread?_cons found]
    simp only [World.exec, known, passed, World.follow, found]
    rfl
  | answers =>
    have executed : w.exec (World.threadOf w.controller.scheduled) last =
        .answer (.ok call.verdict) w := by
      cases settled with
      | sends returns => simp [World.exec, Outgoing.verdict, returns]
      | executes r waits replied =>
        rw [World.replied?] at replied
        simp [World.exec, Outgoing.verdict, waits, World.collected, replied]
    refine ⟨w.setThread _ ⟨call.returned (.ok call.verdict), false⟩, _, ?_, .returned,
      World.thread?_setThread _ found _⟩
    rw [World.stepThread?_cons found, executed]
    rfl

end Steps

theorem World.threadOf_injective {op op' : Nat} (same : World.threadOf op = World.threadOf op') :
    op = op' := by
  cases op <;> cases op' <;> cases same <;> rfl

namespace Experiment

section Course

variable [Strategy σ] (e : Experiment) (ids : Allocator) (s : σ)

/-- How many steps an operation takes between two moments of a run. -/
def stepsOf (op k n : Nat) : Nat :=
  (List.range' k (n - k)).countP fun j => (e.iterate j ids s).controller.scheduled == op

theorem stepsOf_succ {op k n : Nat} (le : k ≤ n) :
    e.stepsOf ids s op k (n + 1) = e.stepsOf ids s op k n +
      if (e.iterate n ids s).controller.scheduled = op then 1 else 0 := by
  rw [stepsOf, Nat.succ_sub le, List.range'_concat, List.countP_append, List.countP_singleton,
    Nat.one_mul, Nat.add_sub_cancel' le, stepsOf]
  simp

/-- An operation has tasks above those that post the event of its call. -/
def Tells (op : Nat) (call : Outgoing) (i : Nat) (event : Event) (n : Nat) (above : List Task) : Prop :=
  ∃ outside, (e.iterate n ids s).thread? (World.threadOf op) =
    some ⟨above ++ (call.request.legs i event ++ call.waiting), outside⟩

/-- How far a call that an operation has made is, if its target has halted before. -/
inductive Course (op : Nat) (call : Outgoing) (i : Nat) (event : Event) (c n : Nat) : Prop where
  /-- Monitors are still told. -/
  | told {above : List Task} (tells : e.Tells ids s op call i event n above)
  /-- What was done for a monitor has failed, and the call with it. -/
  | failed {k : Nat} {above : List Task} {failure : Failure} {outside : Bool} (after : c < k)
      (before : k < n) (some : above ≠ []) (tells : e.Tells ids s op call i event k above)
      (fails : (e.iterate (k + 1) ids s).thread? (World.threadOf op) =
        Option.some ⟨call.returned (.error failure), outside⟩)
  /-- The event was dropped, and the call is about to return. -/
  | dropped {k left : Nat} {last : Task} {tasks : List Task} (after : c < k) (before : k < n)
      (posts : e.Tells ids s op call i event k [])
      (found : (e.iterate n ids s).thread? (World.threadOf op) = some ⟨tasks, false⟩)
      (homeward : call.Homeward last (left + 1) tasks)
      (settled : call.Settled (e.iterate n ids s) last)
      (soon : e.stepsOf ids s op k n + (left + 1) ≤ 5)
  /-- The call has returned that nothing was wrong, or that nothing was handled. -/
  | returned {k l : Nat} (after : c < k) (between : k < l) (before : l ≤ n)
      (posts : e.Tells ids s op call i event k [])
      (found : (e.iterate l ids s).thread? (World.threadOf op) =
        some ⟨call.returned (.ok call.verdict), false⟩)
      (soon : e.stepsOf ids s op k l ≤ 5)

variable {e ids s} {op c n i : Nat} {call : Outgoing} {event : Event} {a : Actor}

/-- A step of another operation leaves a thread as it is. -/
private theorem thread_of_other (accepted : e.registry.Accepted)
    (running : (e.iterate n ids s).isOver = false)
    (other : (e.iterate n ids s).controller.scheduled ≠ op) {thread : Thread}
    (found : (e.iterate n ids s).thread? (World.threadOf op) = some thread) :
    (e.iterate (n + 1) ids s).thread? (World.threadOf op) = some thread := by
  rw [e.iterate_succ]
  cases moved : (e.iterate n ids s).step? with
  | none => exact found
  | some w =>
    rw [World.step?_of_running (e.sound running).explores running] at moved
    exact ((e.tended accepted ids s n).shares moved).others
      (fun same => other (World.threadOf_injective same).symm) found

/-- The tasks of a monitor stay above a call, or the call fails. -/
private theorem tells_succ (accepted : e.registry.Accepted)
    (running : (e.iterate n ids s).isOver = false)
    (turn : (e.iterate n ids s).controller.scheduled = op) {x : Task} {above : List Task}
    (tells : e.Tells ids s op call i event n (x :: above)) :
    (∃ above', e.Tells ids s op call i event (n + 1) above') ∨
      ∃ failure outside, (e.iterate (n + 1) ids s).thread? (World.threadOf op) =
        some ⟨call.returned (.error failure), outside⟩ := by
  obtain ⟨outside, found⟩ := tells
  have orderly := (e.reached n ids s).orderly accepted
  obtain ⟨y, ys, legs, _⟩ := call.request.exists_legs i event
  have quiet : awaited (call.request.legs i event) = false := by
    unfold Request.legs
    split <;> rfl
  have precedes := (e.everywhere accepted ids s enduring_precedes (fun _ => ⟨trivial, trivial⟩) n
    _ _ found).1
  cases moved : (e.iterate n ids s).step? with
  | none =>
    have same : e.iterate (n + 1) ids s = e.iterate n ids s := by
      rw [e.iterate_succ, moved, Option.getD_none]
    exact .inl ⟨x :: above, outside, same ▸ found⟩
  | some w =>
    have next : e.iterate (n + 1) ids s = w := by rw [e.iterate_succ, moved, Option.getD_some]
    rw [World.step?_of_running (e.sound running).explores running, turn] at moved
    obtain ⟨_, _, _, w₁, tasks, outside', was, acts, _, same⟩ := orderly.step moved
    obtain ⟨old, kept, _⟩ := acts.kept _ _ was
    have now : (e.iterate (n + 1) ids s).thread? (World.threadOf op) = some ⟨tasks, outside'⟩ := by
      rw [next, same]
      exact w₁.thread?_setThread kept _
    rcases World.above_of_stepThread? orderly found quiet (by simpa [legs] using precedes) moved
      (next ▸ now) with ⟨above', rfl⟩ | ⟨failure, rfl⟩
    · exact .inl ⟨above', outside', now⟩
    · rw [World.adaptAnswer_false] at now
      exact .inr ⟨failure, outside', now⟩

/-- Until it has returned a call to an actor that has halted takes its course. -/
private theorem course_succ (accepted : e.registry.Accepted)
    (running : (e.iterate (n + 1) ids s).isOver = false) (later : c < n)
    (there : (e.iterate n ids s).actors[i]? = some a)
    (closed : a.mailbox.status = .halted) (course : e.Course ids s op call i event c n) :
    e.Course ids s op call i event c (n + 1) := by
  have before := e.running_of_succ ids s running
  have sound := e.sound before
  have poised := e.poised before
  -- What others do does not matter.
  by_cases turn : (e.iterate n ids s).controller.scheduled = op
  swap
  · have same : ∀ {thread : Thread}, (e.iterate n ids s).thread? (World.threadOf op) = some thread →
        (e.iterate (n + 1) ids s).thread? (World.threadOf op) = some thread :=
      fun found => thread_of_other accepted before turn found
    cases course with
    | told tells =>
      obtain ⟨outside, found⟩ := tells
      exact .told ⟨outside, same found⟩
    | failed after lt some tells fails => exact .failed after (by omega) some tells fails
    | dropped after lt posts found homeward settled soon =>
      refine .dropped after (by omega) posts (same found) homeward
        (settled.mono fun r => e.replied?_of_le (Nat.le_succ n) running) ?_
      rw [e.stepsOf_succ ids s (Nat.le_of_lt lt), if_neg turn]
      exact soon
    | returned after between le posts found soon =>
      exact .returned after between (by omega) posts found soon
  subst turn
  cases course with
  | failed after lt some tells fails => exact .failed after (by omega) some tells fails
  | returned after between le posts found soon =>
    exact .returned after between (by omega) posts found soon
  | @told above tells =>
    cases above with
    | cons x above =>
      rcases tells_succ accepted before rfl tells with ⟨_, tells'⟩ | ⟨_, _, fails⟩
      · exact .told tells'
      · exact .failed later (Nat.lt_succ_self n) (List.cons_ne_nil x above) tells fails
    | nil =>
      obtain ⟨outside, found⟩ := tells
      obtain ⟨w, last, left, tasks, moved, le, homeward, now, settled⟩ :=
        sound.step_of_dropped poised before found there closed
      have next : e.iterate (n + 1) ids s = w := by rw [e.iterate_succ, moved, Option.getD_some]
      refine .dropped later (Nat.lt_succ_self n) ⟨outside, found⟩ (next ▸ now) homeward
        (next ▸ settled) ?_
      rw [e.stepsOf_succ ids s (Nat.le_refl n), if_pos rfl]
      simp [stepsOf]
      omega
  | @dropped k left last tasks after lt posts found homeward settled soon =>
    obtain ⟨w, tasks', moved, homeward', now⟩ :=
      sound.step_of_homeward poised before homeward settled found
    have next : e.iterate (n + 1) ids s = w := by rw [e.iterate_succ, moved, Option.getD_some]
    have counted := e.stepsOf_succ ids s (Nat.le_of_lt lt) |>.trans
      (congrArg (e.stepsOf ids s (e.iterate n ids s).controller.scheduled k n + ·) (if_pos rfl))
    rw [← next] at now
    cases left with
    | zero =>
      cases homeward' with
      | returned =>
        exact .returned after (by omega) (Nat.le_refl _) posts now (by omega)
    | succ left =>
      exact .dropped after (by omega) posts now homeward'
        (settled.mono fun r => e.replied?_of_le (Nat.le_succ n) running) (by omega)

/-- A call that is let through takes its course from the next step on. -/
private theorem course (accepted : e.registry.Accepted) {m : Nat}
    (halts : e.Halts ids s m i a) (after : m < c) (later : c < n)
    (running : (e.iterate n ids s).isOver = false)
    (calls : (e.iterate c ids s).Calls call i event) :
    e.Course ids s (e.iterate c ids s).controller.scheduled call i event c n := by
  induction later with
  | refl =>
    have before := e.running_of_succ ids s running
    have sound := e.sound before
    obtain ⟨_, ⟨tasks, parting, there⟩, _⟩ := halts.parts after before
    -- The actor itself makes no call any more.
    have other : (e.iterate c ids s).controller.scheduled ≠ i + 1 := by
      intro own
      have asks := calls.asks
      rw [own, World.threadOf, World.thread?, there] at asks
      cases parting <;> cases asks
    obtain ⟨w, moved, _, now⟩ := World.step_of_call sound (e.poised before)
      ((e.reached c ids s).orderly accepted) before calls.asks (calls.called other)
    have next : e.iterate (c + 1) ids s = w := by rw [e.iterate_succ, moved, Option.getD_some]
    have tells : e.Tells ids s (e.iterate c ids s).controller.scheduled call i event (c + 1)
        [.forward event] := ⟨false, next ▸ now⟩
    exact .told tells
  | @step n later ih =>
    have before := e.running_of_succ ids s running
    obtain ⟨_, ⟨_, _, there⟩, _⟩ := halts.parts (Nat.lt_trans after later) before
    exact course_succ accepted running later there rfl (ih before)

end Course

section

variable [Strategy σ] (e : Experiment) (ids : Allocator) (s : σ)

/-- What holds of an actor at a moment after the step in which it has halted. -/
structure Stilled (m i : Nat) (a : Actor) (n : Nat) : Prop where
  /-- Its mailbox is closed and empty, and its interpreter is as it was left. -/
  closed : ∃ b, (e.iterate n ids s).actors[i]? = some b ∧ b.mailbox.status = .halted ∧
    b.mailbox.queue = [] ∧ b.core = { a.core with halted := true, stack := [], raised := none }
  /-- Of its work only the event that it was handed is settled. -/
  silent : ∀ x, (e.iterate n ids s).next? = some x → x.subject? = some (.actor i) →
    ∃ r handled, x = .settle i r handled
  /-- It keeps the turn for three steps at most, and then it is done for good. -/
  done : n ≤ m + 3 ∧ (e.iterate n ids s).controller.scheduled = i + 1 ∨
    (e.iterate n ids s).controller.status? (i + 1) = some .completed ∧
      (e.iterate n ids s).controller.scheduled ≠ i + 1
  /-- When the controller is asked who goes next, its operation is completed. -/
  completed : ∀ d, (e.iterate n ids s).decision? = some d →
    d.controller.status? (i + 1) = some .completed
  /-- Whoever waited for it is told that nothing was handled. -/
  replied : m + 1 < n → ∀ r ∈ a.slots, (e.iterate n ids s).replied? r = some false
  /-- Later calls return, and all that can go wrong is a delivery to a monitor. -/
  unheard : ∀ c call event, m < c → c < n → (e.iterate c ids s).Calls call i event →
    e.Course ids s (e.iterate c ids s).controller.scheduled call i event c n

variable {e ids s} {m n i : Nat} {a : Actor}

/-- Halting is final. -/
theorem stilled_of_halts (accepted : e.registry.Accepted) (halts : e.Halts ids s m i a)
    (later : m < n) (running : (e.iterate n ids s).isOver = false) : e.Stilled ids s m i a n := by
  have sound := e.sound running
  have poised := e.poised running
  obtain ⟨left, parts, soon⟩ := halts.parts later running
  obtain ⟨tasks, parting, there⟩ := parts
  refine
    { closed := ⟨_, there, rfl, rfl, rfl⟩
      silent := fun x next works => halts.silent later running next works
      done := ?_
      completed := fun d decides => ?_
      replied := fun after r waits => halts.replied after running waits
      unheard := ?_ }
  · have ends := sound.of_parts ⟨tasks, parting, there⟩ rfl
    rcases Nat.eq_zero_or_pos left with rfl | more
    · exact .inr ⟨ends.2 rfl, sound.not_scheduled_of_parts poised ⟨tasks, parting, there⟩ rfl⟩
    · exact .inl ⟨by omega, ends.1 (by omega)⟩
  · have operation := (sound.actors i _ there).operation
    have agrees := (sound.agrees poised decides there).halted rfl
    rwa [operation] at agrees
  · intro c call event after before calls
    exact course accepted halts after before running calls

end

private def takes : StateDescriptor :=
  ⟨"Only", true, none, none, none, [(⟨"Ping"⟩, .action fun o => .finish o.memory .ok)]⟩

/-- A machine that takes one kind of event. -/
private def taker : Declaration :=
  { typeTag := "Taker", kind := .machine, inherited := [], observes := [], derived := [takes] }

private def takerDescriptor : Descriptor := ⟨"Taker", .machine, [takes], takes, []⟩

/-- The test halts a machine and waits for that. Then it sends to it, and waits for it once more. -/
def retiring : Experiment where
  settings := .exploration
  registry := ⟨Timer.descriptors ++ [takerDescriptor]⟩
  test :=
    .ask .own (.create "Taker" none none true) fun
      | .ok (.actor id) =>
        .ask .own (.sendAndExecute id (.ofType .halt)) fun _ =>
          .ask .own (.send id (.ofType ⟨"Ping"⟩)) fun _ =>
            .ask .own (.sendAndExecute id (.ofType ⟨"Ping"⟩)) fun _ => .finish {} .ok
      | _ => .finish {} .ok

private def turnsOfRetiring : ScriptedStrategy :=
  .ofAnswers [.ok 1, .ok 0, .ok 1, .ok 0, .ok 0, .ok 0]

private theorem accepted_retiring : retiring.registry.Accepted := by
  have built : taker.build = .ok takerDescriptor :=
    Declaration.build_of_plain (by decide) rfl rfl rfl rfl rfl
  exact ⟨[takerDescriptor], by simpa using ⟨taker, built⟩, rfl⟩

/-- The test that waits for the machine when it halts, and the one that calls it later, are told that
nothing was handled. -/
theorem stilled_of_halts_retiring :
    retiring.registry.Accepted ∧ ∃ a, retiring.Halts ⟨0, 0⟩ turnsOfRetiring 16 0 a ∧
      (retiring.iterate 36 ⟨0, 0⟩ turnsOfRetiring).isOver = false ∧ a.slots = [1] ∧
      (retiring.iterate 36 ⟨0, 0⟩ turnsOfRetiring).replied? 1 = some false ∧
      ∃ call, (retiring.iterate 29 ⟨0, 0⟩ turnsOfRetiring).Calls call 0 (.ofType ⟨"Ping"⟩) ∧
        call.verdict = .bool false ∧
        retiring.Course ⟨0, 0⟩ turnsOfRetiring 0 call 0 (.ofType ⟨"Ping"⟩) 29 36 ∧
        (retiring.iterate 35 ⟨0, 0⟩ turnsOfRetiring).thread? .driver =
          some ⟨call.returned (.ok (.bool false)), false⟩ := by
  obtain ⟨a, found, awake, waits⟩ :
      ∃ a, (retiring.iterate 16 ⟨0, 0⟩ turnsOfRetiring).actors[0]? = some a ∧
        a.core.halted = false ∧ a.slots = [1] := ⟨_, rfl, rfl, rfl⟩
  have halts : retiring.Halts ⟨0, 0⟩ turnsOfRetiring 16 0 a := ⟨found, awake, rfl⟩
  have stilled := stilled_of_halts accepted_retiring halts (n := 36) (by decide) rfl
  have calls : (retiring.iterate 29 ⟨0, 0⟩ turnsOfRetiring).Calls
      ⟨.test, .sendAndExecute ⟨0, "", "Taker", "Taker(0)", 0⟩ (.ofType ⟨"Ping"⟩),
        fun _ => .finish {} .ok, []⟩ 0 (.ofType ⟨"Ping"⟩) := ⟨rfl, ⟨_, rfl, by decide +kernel⟩, rfl⟩
  exact ⟨accepted_retiring, a, halts, rfl, waits,
    stilled.replied (by decide) 1 (waits ▸ List.mem_singleton.2 rfl), _, calls, rfl,
    stilled.unheard 29 _ _ (by decide) (by decide) calls, rfl⟩

end Experiment

end SteeredActors
