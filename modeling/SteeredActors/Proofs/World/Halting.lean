import SteeredActors.Proofs.World.ActorSteps
import SteeredActors.Proofs.World.Decisions
import SteeredActors.Proofs.World.Rest
import SteeredActors.Proofs.World.Sendings
import SteeredActors.Proofs.World.Yields

/-!
# Halted actors

An actor that halts settles what it has just handled and retires. From then on it is as it is: nobody
else changes anything of it, what arrives is dropped, and it gets no turn any more. Whoever waited for
it when it halted is told that nothing was handled.
-/

set_option autoImplicit false
set_option relaxedAutoImplicit false

namespace SteeredActors

variable {σ : Type}

theorem World.eq_of_threadOf {op i : Nat} (own : World.threadOf op = .actor i) : op = i + 1 := by
  cases op <;> cases own
  rfl

/-- What is done for an actor is done in its own thread. -/
theorem Posture.owner {own : Option Nat} {x : Task} {rest : List Task} {outside : Bool} {i : Nat}
    (posture : Posture own ⟨x :: rest, outside⟩) (works : x.subject? = some (.actor i)) :
    own = some i := by
  cases posture with
  | working working =>
    cases working with
    | cycle | test | testWaits | collect | waits => cases works
    | settle mine | handle mine =>
      cases works
      exact mine
    | cons fits =>
      cases x
      case perform speaker _ =>
        cases speaker with
        | test | sleeper => cases works
        | action =>
          cases works
          exact fits.1
      case start | invoke | switch | enter | pop | dropTop =>
        cases works
        exact fits.1
      case handle r =>
        cases works
        cases r <;> exact fits.elim
      all_goals cases works <;> exact fits.elim
  | fresh | called | idles | rests | retires => cases works

/-! ## What others do -/

section Others

variable {w w' : World σ} {t : ThreadId} {i : Nat} {a : Actor}

/-- What arrives at one actor changes no other one, and nothing at all if the actor has halted. -/
theorem World.actors_enqueue_of_halted (found : w.actors[i]? = some a)
    (closed : a.mailbox.status = .halted) (k : Nat) (envelope : Envelope) :
    (w.enqueue k envelope).actors[i]? = some a := by
  by_cases own : k = i
  · subst own
    rw [World.enqueue_of_halted found envelope closed, (Relieves.discard w _).actors, found]
  · unfold World.enqueue
    cases w.actors[k]? with
    | none => exact found
    | some b =>
      have kept : ∀ mailbox : Mailbox,
          (w.modifyActor k fun b => { b with mailbox }).actors[i]? = some a := by
        intro mailbox
        simp [World.modifyActor, own, found]
      simp only
      split
      · rw [(Relieves.discard _ _).actors]
        exact kept _
      · exact kept _
      · exact kept _

/-- Nobody else changes an actor that has halted. -/
theorem Transition.actors_of_halted [Strategy σ] (step : Transition t w w')
    (found : w.actors[i]? = some a) (closed : a.mailbox.status = .halted)
    (other : t ≠ .actor i) : w'.actors[i]? = some a := by
  have set : ∀ {w₁ : World σ} (thread : Thread), w₁.actors[i]? = some a →
      (w₁.setThread t thread).actors[i]? = some a := by
    intro w₁ thread there
    rw [(Spares.setThread w₁ t thread).others i other, there]
  have still : ∀ {w₁ : World σ}, Still t w w₁ → w₁.actors[i]? = some a :=
    fun same => (same.others i other).trans found
  have adds : ∀ {w₁ : World σ} (id : ActorId) (descriptor : Descriptor) (event : Option Event)
      (rendezvous : Option Nat), w₁.actors[i]? = some a →
      (w₁.addActor id descriptor event rendezvous).actors[i]? = some a := by
    intro w₁ id descriptor event rendezvous there
    unfold World.addActor
    rw [actors_observe]
    simp only
    rw [List.getElem?_append_left (List.getElem?_eq_some_iff.1 there).1, there]
  have modify : ∀ {w₁ : World σ} {k : Nat} (f : Actor → Actor), t = .actor k →
      w₁.actors[i]? = some a → (w₁.modifyActor k f).actors[i]? = some a := by
    intro w₁ k f mine there
    have apart : k ≠ i := fun same => other (by rw [mine, same])
    simp [World.modifyActor, apart, there]
  have relieve : ∀ {w₁ w₂ : World σ}, Relieves w₁ w₂ → w₁.actors[i]? = some a →
      w₂.actors[i]? = some a := by
    intro w₁ w₂ relieves there
    rw [relieves.actors, there]
  have abandon : ∀ {w₁ : World σ} {k : Nat}, t = .actor k → w₁.actors[i]? = some a →
      (w₁.abandon k).actors[i]? = some a := by
    intro w₁ k mine there
    exact ((Spares.abandon w₁ k).others i (mine ▸ other)).trans there
  have rest : ∀ {w₁ : World σ} {k : Nat} (b : Actor), t = .actor k → w₁.actors[i]? = some a →
      (w₁.rested k b).actors[i]? = some a :=
    fun b mine there => modify _ mine (relieve (.replyEach _ b.pending) there)
  cases step
  case works same _ _ _ => exact set _ (still same)
  case ends same => exact set _ (still same)
  case posts => exact set _ (World.actors_enqueue_of_halted found closed _ _)
  case engages =>
    refine set _ (World.actors_enqueue_of_halted ?_ closed _ _)
    rw [actors_blockCaller]
    exact found
  case creates same _ _ _ => exact set _ (adds _ _ _ _ (still same))
  case createsAndWaits same _ _ =>
    refine set _ ?_
    rw [actors_blockCaller]
    have there := still same
    exact adds _ _ _ _ there
  case passes | retires => exact set _ found
  case shifts mine _ _ _ _ _ _ _ _ _ | ignores mine _ _ _ | consumes mine _ _ _ =>
    exact set _ (modify _ mine found)
  case unwinds mine _ _ _ _ same => exact set _ (abandon mine (still same))
  case settles b mine _ _ =>
    refine set _ ?_
    split
    · exact relieve (.reply _ _ _) found
    · exact modify _ mine found
  case halts k _ _ _ mine _ _ _ =>
    exact set _ (((Spares.halt _ k).others i (mine ▸ other)).trans (modify _ mine found))
  case leaves | rises => exact set _ found
  case obeys mine _ _ _ _ => exact set _ (modify _ mine found)
  case selects mine _ _ _ _ _ _ | defaults mine _ _ _ _ _ _ =>
    exact set _ (relieve (.discard _ _) (modify _ mine found))
  case idles mine _ _ _ _ _ _ =>
    exact set _ (rest _ mine (relieve (.discard _ _) (modify _ mine found)))
  case starves mine _ _ _ _ _ => exact set _ (rest _ mine found)
  case starts mine _ _ _ _ | resumes mine _ _ _ _ => exact set _ (modify _ mine found)

end Others

/-! ## How an actor halts -/

section Halts

/-- Whether the actor at a position has halted. -/
def World.halted? (w : World σ) (i : Nat) : Option Bool := w.actors[i]?.map (·.core.halted)

variable {w w₁ w' : World σ} {t : ThreadId} {i : Nat}

private theorem halted?_of_actors (same : w₁.actors = w.actors) : w₁.halted? i = w.halted? i := by
  rw [World.halted?, same, World.halted?]

private theorem halted?_modifyActor (w : World σ) (k : Nat) {f : Actor → Actor}
    (kept : ∀ a, (f a).core.halted = a.core.halted) :
    (w.modifyActor k f).halted? i = w.halted? i := by
  simp only [World.halted?, World.modifyActor, List.getElem?_modify]
  cases w.actors[i]? with
  | none => simp
  | some a =>
    simp only [Option.map_some]
    split
    · exact congrArg some (kept a)
    · rfl

private theorem halted?_setThread (w : World σ) (t : ThreadId) (thread : Thread) :
    (w.setThread t thread).halted? i = w.halted? i := by
  cases t with
  | driver | sleeper => rfl
  | actor k => exact halted?_modifyActor w k fun _ => rfl

private theorem halted?_setStack (w : World σ) (k : Nat) (stack : List ActiveState) :
    (w.setStack (.actor k) stack).halted? i = w.halted? i := halted?_modifyActor w k fun _ => rfl

private theorem halted?_of_frame (frame : Frame t w w₁) : w₁.halted? i = w.halted? i := by
  have same := congrArg (fun as => as[i]?.map (·.core.halted)) frame.outer
  simpa [World.halted?, Actor.outer, Core.outer, Function.comp_def] using same

private theorem halted?_enqueue (w : World σ) (k : Nat) (envelope : Envelope) :
    (w.enqueue k envelope).halted? i = w.halted? i := by
  unfold World.enqueue
  cases w.actors[k]? with
  | none => rfl
  | some b =>
    simp only
    split
    · rw [halted?_of_actors (Relieves.discard _ _).actors]
      exact halted?_modifyActor w k fun _ => rfl
    · exact halted?_modifyActor w k fun _ => rfl
    · exact halted?_modifyActor w k fun _ => rfl

private theorem halted?_abandon (w : World σ) (k : Nat) :
    (w.abandon k).halted? i = w.halted? i := by
  cases found : w.actors[k]? with
  | none => rw [World.abandon_of_none found]
  | some a =>
    rw [World.abandon_eq found, halted?_of_actors (Relieves.replyAll _ _ _).actors]
    exact halted?_modifyActor w k fun _ => rfl

private theorem halted?_rested (w : World σ) (k : Nat) (a : Actor) :
    (w.rested k a).halted? i = w.halted? i := by
  have kept := halted?_of_actors (i := i) (Relieves.replyEach w a.pending).actors
  exact (halted?_modifyActor _ k (f := fun a => { a with pending := [] }) fun _ => rfl).trans kept

private theorem halted?_addActor (there : i < w.actors.length) (id : ActorId)
    (descriptor : Descriptor) (event : Option Event) (rendezvous : Option Nat) :
    (w.addActor id descriptor event rendezvous).halted? i = w.halted? i := by
  unfold World.addActor
  rw [World.halted?, actors_observe, World.halted?]
  simp only
  rw [List.getElem?_append_left there]

private theorem lt_of_halted? {b : Bool} (found : w.halted? i = some b) : i < w.actors.length := by
  obtain ⟨a, found, _⟩ := Option.map_eq_some_iff.1 found
  exact (List.getElem?_eq_some_iff.1 found).1

variable [Strategy σ]

/-- An actor halts because nothing on its stack handles the event that it was handed. -/
theorem Transition.of_halts (step : Transition t w w') (awake : w.halted? i = some false)
    (ceased : w'.halted? i = some true) :
    t = .actor i ∧ ∃ event r, w.thread? t = some ⟨[.handle (.actor i) event r, .cycle i], false⟩ ∧
      w' = ((w.setStack (.actor i) []).halt (.actor i)).setThread t
        ⟨World.settlement (.actor i) r false ++ [.cycle i], false⟩ := by
  have set : ∀ {w₁ : World σ} (thread : Thread), w₁.halted? i = w.halted? i →
      (w₁.setThread t thread).halted? i ≠ some true := by
    intro w₁ thread same
    rw [halted?_setThread, same, awake]
    simp
  have there := lt_of_halted? awake
  cases step
  case works same _ _ _ => exact absurd ceased (set _ (halted?_of_frame same.toFrame))
  case ends same => exact absurd ceased (set _ (halted?_of_frame same.toFrame))
  case posts => exact absurd ceased (set _ (halted?_enqueue _ _ _))
  case engages =>
    refine absurd ceased (set _ ((halted?_enqueue _ _ _).trans ?_))
    exact halted?_of_actors (actors_blockCaller _ _)
  case creates same _ _ _ =>
    have frame := halted?_of_frame (i := i) same.toFrame
    have there := lt_of_halted? (frame.trans awake)
    exact absurd ceased (set _ ((halted?_addActor there _ _ _ _).trans frame))
  case createsAndWaits same _ _ =>
    have frame := halted?_of_frame (i := i) same.toFrame
    have there := lt_of_halted? (frame.trans awake)
    refine absurd ceased (set _ ((halted?_of_actors (actors_blockCaller _ _)).trans ?_))
    refine (halted?_addActor ?_ _ _ _ _).trans ?_
    · exact there
    · exact frame
  case passes | retires | leaves | rises => exact absurd ceased (set _ rfl)
  case shifts | ignores | consumes => exact absurd ceased (set _ (halted?_setStack _ _ _))
  case unwinds same =>
    exact absurd ceased (set _ ((halted?_abandon _ _).trans (halted?_of_frame same.toFrame)))
  case settles =>
    refine absurd ceased (set _ ?_)
    split
    · exact halted?_of_actors (Relieves.reply _ _ _).actors
    · exact halted?_modifyActor _ _ fun _ => rfl
  case halts k event r core mine thread found resolved =>
    by_cases own : k = i
    · subst own
      exact ⟨mine, event, r, thread, rfl⟩
    · refine absurd ceased (set _ ?_)
      rw [World.halted?, (Spares.halt _ k).others i (by simpa using own)]
      exact halted?_setStack w k []
  case obeys | starts | resumes => exact absurd ceased (set _ (halted?_modifyActor _ _ fun _ => rfl))
  case selects | defaults =>
    refine absurd ceased (set _ ((halted?_of_actors (Relieves.discard _ _).actors).trans ?_))
    exact halted?_modifyActor _ _ fun _ => rfl
  case idles =>
    refine absurd ceased (set _ ((halted?_rested _ _ _).trans ?_))
    refine (halted?_of_actors (Relieves.discard _ _).actors).trans ?_
    exact halted?_modifyActor _ _ fun _ => rfl
  case starves => exact absurd ceased (set _ (halted?_rested _ _ _))

omit [Strategy σ] in
/-- What an actor is when it halts, and who is told. -/
private theorem World.halt_setStack {a : Actor} (found : w.actors[i]? = some a)
    (awake : a.core.halted = false) (thread : Thread) :
    (((w.setStack (.actor i) []).halt (.actor i)).setThread (.actor i) thread).actors[i]? =
        some { a.stopped with thread } ∧
      (((w.setStack (.actor i) []).halt (.actor i)).setThread (.actor i) thread).rendezvous =
        (w.replyEach (a.owed.map (·, false))).rendezvous := by
  have there : (w.setStack (.actor i) []).actors[i]? =
      some { a with core := { a.core with stack := [] } } :=
    World.getElem?_modifyActor (fun a => { a with core := { a.core with stack := [] } }) found
  rw [World.halt_eq there awake]
  constructor
  · refine World.getElem?_setThread (a := a.stopped) ?_ thread
    rw [actors_observe, (Relieves.replyAll _ _ _).actors]
    exact (World.getElem?_modifyActor Actor.stopped there).trans rfl
  · rw [(SameDues.setThread _ _ _).rendezvous, (SameDues.observe _ _).rendezvous,
      World.replyAll_eq]
    have same : SameDues w ((w.setStack (.actor i) []).modifyActor i Actor.stopped) :=
      (SameDues.modifyActor w i _).trans (SameDues.modifyActor _ i _)
    exact (same.replyEach _).rendezvous

end Halts

/-! ## The last steps of an actor -/

/-- What an actor that has halted still has to do, with the number of steps. -/
inductive Parting (i : Nat) : Nat → List Task → Prop where
  | settles (r : Nat) (handled : Bool) : Parting i 3 [.settle i r handled, .cycle i]
  | leaves : Parting i 2 [.cycle i]
  | retires : Parting i 1 [.retire .halt]
  | gone : Parting i 0 []

/-- An actor has halted, and so many steps are left to it. -/
def World.Parts (w : World σ) (i : Nat) (a : Actor) (left : Nat) : Prop :=
  ∃ tasks, Parting i left tasks ∧ w.actors[i]? = some { a with thread := ⟨tasks, false⟩ }

section Parting

variable {w w' : World σ} {i left : Nat} {a : Actor}

theorem Parting.of_settlement (i : Nat) (r : Option Nat) (handled : Bool) :
    ∃ left, left ≤ 3 ∧ Parting i left (World.settlement (.actor i) r handled ++ [.cycle i]) ∧
      (left = 3 ↔ r.isSome) := by
  cases r with
  | none => exact ⟨2, by decide, .leaves, by simp⟩
  | some r => exact ⟨3, by decide, .settles r handled, by simp⟩

namespace Sound

/-- An actor that has halted keeps the turn until it is done, and then its operation is completed. -/
theorem of_parts (h : Sound w) (parts : w.Parts i a left) (halted : a.core.halted = true) :
    (left ≠ 0 → w.controller.scheduled = i + 1) ∧
      (left = 0 → w.controller.status? (i + 1) = some .completed) := by
  obtain ⟨tasks, parting, found⟩ := parts
  obtain ⟨s, status, stage⟩ := (h.actors i _ found).stage
  cases stage with
  | fresh _ _ _ running | called _ _ _ _ running | working _ _ _ _ _ running
  | pausing _ _ _ running | resting _ _ running =>
    rw [halted] at running
    cases running
  | halting turn thread =>
    refine ⟨fun _ => turn, fun zero => ?_⟩
    subst zero
    cases parting
    rcases thread with thread | ⟨_, _, thread⟩ <;> cases thread
  | retiring turn _ thread =>
    refine ⟨fun _ => turn, fun zero => ?_⟩
    subst zero
    cases parting
    cases thread
  | gone thread _ completed =>
    refine ⟨fun some => ?_, fun _ => completed ▸ status⟩
    cases thread
    cases parting
    exact absurd rfl some

/-- Who is done gets no turn any more. -/
theorem not_scheduled_of_parts (h : Sound w) (poised : Poised w) (parts : w.Parts i a 0)
    (halted : a.core.halted = true) : w.controller.scheduled ≠ i + 1 := by
  intro turn
  have completed := (h.of_parts parts halted).2 rfl
  obtain ⟨tasks, parting, found⟩ := parts
  rcases poised.enabled with enabled | ⟨kind, rest, thread⟩
  · rw [turn, completed] at enabled
    cases enabled
  · cases parting
    rw [turn] at thread
    simp [World.threadOf, World.thread?, found] at thread

variable [Strategy σ]

/-- Each of the last steps of an actor is done, and a rendezvous that is settled is told that nothing was
handled. -/
theorem step_of_parts (h : Sound w) (running : w.isOver = false)
    (parts : w.Parts i a (left + 1)) (halted : a.core.halted = true) :
    ∃ w', w.step? = some w' ∧ w'.Parts i a left ∧ ∀ r handled,
      w.next? = some (.settle i r handled) → w'.rendezvous = (w.reply r false).rendezvous := by
  have turn := (h.of_parts parts halted).1 (Nat.succ_ne_zero left)
  obtain ⟨tasks, parting, found⟩ := parts
  have thread : w.thread? (.actor i) = some ⟨tasks, false⟩ := by simp [World.thread?, found]
  rw [World.step?_of_running h.explores running, turn]
  change ∃ w', w.stepThread? (.actor i) = some w' ∧ _
  have next : ∀ {x rest}, tasks = x :: rest → w.next? = some x := by
    rintro x rest rfl
    exact World.next?_of_own turn thread
  cases parting with
  | settles r handled =>
    have executed : w.exec (.actor i) (.settle i r handled) = .go [] (w.reply r false) := by
      simp [World.exec, World.withActor, found, halted]
    refine ⟨(w.reply r false).setThread (.actor i) ⟨[.cycle i], false⟩, ?_, ⟨_, .leaves, ?_⟩, ?_⟩
    · rw [World.stepThread?_cons thread, executed]
      simp [thread]
    · have there := (congrArg (·[i]?) (Relieves.reply w r false).actors).trans found
      exact World.getElem?_setThread there _
    · intro r' handled' same
      rw [next rfl] at same
      cases same
      exact (SameDues.setThread _ _ _).rendezvous
  | leaves =>
    have executed : w.exec (.actor i) (.cycle i) = .go [.retire .halt] w := by
      simp [World.exec, World.cycleActor, World.withActor, running, found, halted]
    refine ⟨w.setThread (.actor i) ⟨[.retire .halt], false⟩, ?_, ⟨_, .retires, ?_⟩, ?_⟩
    · rw [World.stepThread?_cons thread, executed]
      simp [thread]
    · exact World.getElem?_setThread found _
    · intro r handled same
      rw [next rfl] at same
      cases same
  | retires =>
    have operation : w.operation? (.actor i) = some (i + 1) := h.operation_actor found
    have executed : w.exec (.actor i) (.retire .halt) =
        .go [] { w with controller := w.controller.complete (i + 1) .halt } := by
      simp [World.exec, operation]
    refine ⟨World.setThread { w with controller := w.controller.complete (i + 1) .halt } (.actor i)
      ⟨[], false⟩, ?_, ⟨_, .gone, ?_⟩, ?_⟩
    · rw [World.stepThread?_cons thread, executed]
      simp [World.thread?_setController, thread]
    · exact World.getElem?_setThread found _
    · intro r handled same
      rw [next rfl] at same
      cases same

end Sound

end Parting

/-! ## Who waits for an actor that halts -/

/-- What is kept for a reply has none, also in a run in which replies get lost. -/
theorem SlotStep.exists_ledger {w w' : World σ} (step : SlotStep w w') {lost : List Nat}
    (ledger : Ledger (w.slots ++ lost) w) : ∃ lost', Ledger (w'.slots ++ lost') w' := by
  cases step with
  | keeps slots dues =>
    exact ⟨lost, (ledger.of_same dues).perm ((World.perm_slots_of_same slots).append_right lost)⟩
  | @opens i op waiter enabled target others own dues =>
    subst waiter
    have more : (w.rendezvous.length :: w.slots).Perm w'.slots :=
      (World.perm_slots [w.rendezvous.length] (fun j other => (others j other).symm) own).symm
    exact ⟨lost, (ledger.opens enabled dues).perm (more.append_right lost)⟩
  | @refused i op w₁ b waiter enabled target slots opened dues =>
    subst waiter
    have due : Ledger ([(w.rendezvous.length, false)].map (·.1) ++ (w.slots ++ lost)) w₁ :=
      ledger.opens enabled opened
    exact ⟨lost, (due.replyEach.of_same dues).perm
      ((World.perm_slots_of_same slots).append_right lost)⟩
  | @rests i b given gone mine others own dues =>
    have split : (w.slots ++ lost).Perm (given.map (·.1) ++ (w'.slots ++ (gone ++ lost))) := by
      refine ((World.perm_slots (given.map (·.1) ++ gone) others ?_).append_right lost).trans ?_
      · simpa using own
      · simpa [List.append_assoc] using
          (List.perm_append_comm_assoc gone w'.slots lost).append_left (given.map (·.1))
    exact ⟨gone ++ lost, (ledger.perm split).replyEach.of_same dues⟩
  | @drops i given mine others own dues =>
    have split := (World.perm_slots _ others own).append_right lost
    rw [List.append_assoc] at split
    exact ⟨lost, (ledger.perm split).replyEach.of_same dues⟩

/-- If all are told that nothing was handled, so is each that waits. -/
theorem World.replied?_replyEach_false {w : World σ} {rs : List Nat} {op r : Nat} (mem : r ∈ rs)
    (due : w.Awaits op r) : (w.replyEach (rs.map (·, false))).replied? r = some false := by
  induction rs generalizing w with
  | nil => cases mem
  | cons r' rs ih =>
    rw [List.map_cons, World.replyEach_cons]
    by_cases own : r = r'
    · subst own
      refine World.replied?_replyEach_of_some _ ?_ _
      rw [World.replied?, World.rendezvous_reply, if_pos rfl, due]
      rfl
    · refine ih ((List.mem_cons.1 mem).resolve_left own) ?_
      rw [World.Awaits, World.rendezvous_reply, if_neg own]
      exact due

namespace Experiment

variable [Strategy σ] {e : Experiment} {ids : Allocator} {s : σ} {m n i r : Nat} {a : Actor}

theorem exists_ledger (running : (e.iterate n ids s).isOver = false) :
    ∃ lost, Ledger ((e.iterate n ids s).slots ++ lost) (e.iterate n ids s) := by
  induction n with
  | zero => exact ⟨[], by simpa using ledger_initial e ids s⟩
  | succ n ih =>
    obtain ⟨lost, ledger⟩ := ih (e.running_of_succ ids s running)
    rcases e.slotStep_or_stuck running with step | same
    · exact step.exists_ledger ledger
    · exact ⟨lost, by rwa [same]⟩

/-- A reply that was given stays. -/
theorem replied?_of_le {b : Bool} (le : m ≤ n) (running : (e.iterate n ids s).isOver = false)
    (replied : (e.iterate m ids s).replied? r = some b) :
    (e.iterate n ids s).replied? r = some b := by
  induction le with
  | refl => exact replied
  | step _ ih =>
    have before := ih (e.running_of_succ ids s running)
    rcases e.slotStep_or_stuck running with step | same
    · exact step.replied?_of_some before
    · rwa [same]

/-- In a step of a run an actor halts. -/
structure Halts (e : Experiment) (ids : Allocator) (s : σ) (m i : Nat) (a : Actor) : Prop where
  found : (e.iterate m ids s).actors[i]? = some a
  awake : a.core.halted = false
  ceased : (e.iterate (m + 1) ids s).halted? i = some true

namespace Halts

/-- The event with which an actor halts, and what it is then. -/
private theorem halts (halts : e.Halts ids s m i a)
    (running : (e.iterate (m + 1) ids s).isOver = false) :
    ∃ event r, a.thread = ⟨[.handle (.actor i) event r, .cycle i], false⟩ ∧
      (e.iterate (m + 1) ids s).actors[i]? = some { a.stopped with
        thread := ⟨World.settlement (.actor i) r false ++ [.cycle i], false⟩ } ∧
      (e.iterate (m + 1) ids s).rendezvous =
        ((e.iterate m ids s).replyEach (a.owed.map (·, false))).rendezvous := by
  have awake : (e.iterate m ids s).halted? i = some false := by
    simp [World.halted?, halts.found, halts.awake]
  rcases e.transition_or_stuck running with step | same
  · obtain ⟨mine, event, r, thread, world⟩ := step.of_halts awake halts.ceased
    have own : a.thread = ⟨[.handle (.actor i) event r, .cycle i], false⟩ := by
      rw [mine] at thread
      simpa [World.thread?, halts.found] using thread
    rw [mine] at world
    rw [world]
    exact ⟨event, r, own, World.halt_setStack halts.found halts.awake _⟩
  · have ceased := halts.ceased
    rw [same, awake] at ceased
    cases ceased

/-- An actor that has halted has at most three steps left, and it takes them at once. -/
theorem parts (halts : e.Halts ids s m i a) (later : m < n)
    (running : (e.iterate n ids s).isOver = false) :
    ∃ left, (e.iterate n ids s).Parts i a.stopped left ∧ (left = 0 ∨ n + left ≤ m + 4) := by
  induction later with
  | refl =>
    obtain ⟨_, r, _, there, _⟩ := halts.halts running
    obtain ⟨left, le, parting, _⟩ := Parting.of_settlement i r false
    exact ⟨left, ⟨_, parting, there⟩, .inr (by omega)⟩
  | @step n later ih =>
    have before := e.running_of_succ ids s running
    have sound := e.sound before
    obtain ⟨left, parts, soon⟩ := ih before
    cases left with
    | zero =>
      have turn := sound.not_scheduled_of_parts (e.poised before) parts rfl
      rcases e.transition_or_stuck running with step | same
      · obtain ⟨tasks, parting, found⟩ := parts
        refine ⟨0, ⟨tasks, parting, step.actors_of_halted found rfl fun own => turn ?_⟩, .inl rfl⟩
        exact World.eq_of_threadOf own
      · exact ⟨0, by rwa [same], .inl rfl⟩
    | succ left =>
      obtain ⟨w, moved, parts, _⟩ := sound.step_of_parts before parts rfl
      rw [e.iterate_succ, moved]
      exact ⟨left, parts, .inr (by omega)⟩

/-- Whoever waited for an actor when it halted is told that nothing was handled. -/
theorem replied (halts : e.Halts ids s m i a) (later : m + 1 < n)
    (running : (e.iterate n ids s).isOver = false) (waits : r ∈ a.slots) :
    (e.iterate n ids s).replied? r = some false := by
  have soon := e.running_of_le ids s later running
  have before := e.running_of_succ ids s soon
  obtain ⟨event, rendezvous, thread, there, given⟩ := halts.halts before
  obtain ⟨_, ledger⟩ := e.exists_ledger (e.running_of_succ ids s before)
  obtain ⟨op, due⟩ := ledger.awaited r (List.mem_append_left _
    (List.mem_flatMap.2 ⟨a, List.mem_of_getElem? halts.found, waits⟩))
  by_cases owed : r ∈ a.owed
  · refine e.replied?_of_le (m := m + 1) (Nat.le_of_succ_le later) running ?_
    rw [World.replied?, given]
    exact World.replied?_replyEach_false owed due
  · -- Only the event that it was handed is settled in the step after that.
    obtain rfl : rendezvous = some r := by
      have carries := (List.mem_append.1 waits).resolve_left owed
      rw [thread, carried_handle] at carries
      exact Option.mem_toList.1 carries
    refine e.replied?_of_le (m := m + 1 + 1) later running ?_
    have parts : (e.iterate (m + 1) ids s).Parts i a.stopped 3 := ⟨_, .settles r false, there⟩
    obtain ⟨w, moved, _, settles⟩ := (e.sound before).step_of_parts before parts rfl
    have turn := ((e.sound before).of_parts parts rfl).1 (by decide)
    have own : (e.iterate (m + 1) ids s).thread? (.actor i) =
        some ⟨[.settle i r false, .cycle i], false⟩ := by
      simp [World.thread?, there, World.settlement]
    have next := World.next?_of_own turn own
    rw [e.iterate_succ, moved, Option.getD_some, World.replied?, settles r false next]
    have still : (e.iterate (m + 1) ids s).rendezvous[r]? = some ⟨some op, none⟩ := by
      rw [given, World.rendezvous_replyEach_of_not_mem _ (by simpa using owed)]
      exact due
    rw [World.rendezvous_reply, if_pos rfl, still]
    rfl

/-- Of an actor that has halted nothing is done but that it settles what it has handled. -/
theorem silent (halts : e.Halts ids s m i a) (later : m < n)
    (running : (e.iterate n ids s).isOver = false) {x : Task}
    (next : (e.iterate n ids s).next? = some x) (works : x.subject? = some (.actor i)) :
    ∃ r handled, x = .settle i r handled := by
  obtain ⟨left, ⟨tasks, parting, there⟩, _⟩ := halts.parts later running
  obtain ⟨rest, outside, found⟩ := World.thread_of_next? next
  obtain ⟨thread, found', posture, _⟩ := (e.sound running).holder (e.poised running)
  obtain rfl := Option.some.inj (found.symm.trans found')
  have own : World.threadOf (e.iterate n ids s).controller.scheduled = .actor i := by
    have owner := posture.owner works
    cases holder : World.threadOf (e.iterate n ids s).controller.scheduled with
    | driver | sleeper =>
      rw [holder] at owner
      cases owner
    | actor k =>
      rw [holder] at owner
      cases owner
      rfl
  rw [own] at found
  have same : tasks = x :: rest := by simpa [World.thread?, there] using congrArg (·.map (·.tasks)) found
  subst same
  cases parting with
  | settles r handled => exact ⟨r, handled, rfl⟩
  | leaves | retires => cases works

end Halts

end Experiment

end SteeredActors
