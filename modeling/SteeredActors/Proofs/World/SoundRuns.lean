import SteeredActors.Proofs.Selection
import SteeredActors.Proofs.World.Sound

/-!
# Explored runs are sound

Every step of an explored run that does not end it leaves everybody standing as the own thread says,
and the turn with somebody who has work or passes it on.
-/

set_option autoImplicit false
set_option relaxedAutoImplicit false

namespace SteeredActors

variable {σ : Type}

/-- The holder of the turn has work unless it is about to pass the turn on. -/
theorem Poised.attentive {w : World σ} (poised : Poised w) {x : Task} {rest : List Task}
    {outside : Bool}
    (found : w.thread? (World.threadOf w.controller.scheduled) = some ⟨x :: rest, outside⟩)
    (stays : ∀ kind, x ≠ .pass kind) :
    w.controller.status? w.controller.scheduled = some .enabled := by
  rcases poised.enabled with enabled | ⟨kind, rest', passes⟩
  · exact enabled
  · rw [found] at passes
    cases passes
    exact absurd rfl (stays kind)

theorem World.threadOf_ne_sleeper (op j : Nat) : World.threadOf op ≠ .sleeper j := by
  cases op <;> simp [World.threadOf]

namespace Sound

variable {w w₁ w' : World σ} {i : Nat} {a b : Actor} {s : OperationStatus}

/-- One actor has changed, by itself. -/
theorem of_actor (h : Sound w) (spares : Spares (.actor i) w w') (found : w'.actors[i]? = some b)
    (operation : b.operation = i + 1) (status : w'.controller.status? (i + 1) = some s)
    (stage : ActorStage w'.policy i (w'.controller.scheduled = i + 1) s b) (tidy : b.Tidy) :
    Sound w' := by
  refine h.of_spares spares ?_
  intro b' hb
  obtain rfl : b = b' := Option.some.inj (found.symm.trans hb)
  exact ⟨operation, ⟨s, status, stage⟩, tidy⟩

/-- Who has a thread stands by it. -/
theorem standing (h : Sound w) {thread : Thread} (found : w.thread? (.actor i) = some thread) :
    ∃ a s, w.actors[i]? = some a ∧ a.thread = thread ∧ w.controller.status? (i + 1) = some s ∧
      a.operation = i + 1 ∧ a.Tidy ∧
      ActorStage w.policy i (w.controller.scheduled = i + 1) s a := by
  obtain ⟨a, ha, thread⟩ := Option.map_eq_some_iff.1 found
  have stands := h.actors i a ha
  obtain ⟨s, hs, stage⟩ := stands.stage
  exact ⟨a, s, ha, thread, hs, stands.operation, stands.tidy, stage⟩

/-- An actor in a cycle has halted or is at work. -/
theorem atWork_of_cycle (h : Sound w) (found : w.thread? (.actor i) = some ⟨[.cycle i], false⟩)
    (there : w.actors[i]? = some a) (running : a.core.halted = false) :
    AtWork w i a [.cycle i] := by
  obtain ⟨b, s, hb, thread, hs, operation, tidy, stage⟩ := h.standing found
  obtain rfl : a = b := Option.some.inj (there.symm.trans hb)
  cases stage with
  | working thread' works grounded status active running' =>
    rw [thread] at thread'
    cases thread'
    refine ⟨hb, operation, ?_, status, running, grounded, tidy⟩
    rcases active with rfl | rfl
    · exact .inl hs
    · exact .inr hs
  | halting _ _ _ _ halted =>
    rw [running] at halted
    cases halted
  | fresh thread' | called _ thread' | pausing _ thread' | resting thread'
  | retiring _ _ thread' | gone thread' =>
    rw [thread] at thread'
    cases thread'

/-- An interpreter's work leads to other tasks. -/
theorem reframe (h : Sound w) {t : ThreadId} {tasks tasks' : List Task} {outside : Bool}
    {old : Thread} (able : Able w tasks t) (frame : Frame t w w₁)
    (found : w₁.thread? t = some old)
    (grounded : ∀ i a b, t = .actor i → w.actors[i]? = some a → w₁.actors[i]? = some b →
      a.core.halted = false → Grounded tasks a.core.stack.length →
      Grounded tasks' b.core.stack.length)
    (works : Working t.own? outside tasks') : Sound (w₁.setThread t ⟨tasks', outside⟩) :=
  h.of_spares ((Spares.of_frame frame).trans (.setThread w₁ t _))
    (((able.frame frame grounded).setThread _).upright (w₁.thread?_setThread found _) works)

/-! ## Handling events -/

private theorem working_settlement (r : Option Nat) (handled : Bool) :
    Working (some i) false (World.settlement (.actor i) r handled ++ [.cycle i]) ∧
      awaited (World.settlement (.actor i) r handled ++ [.cycle i]) = false ∧
      ∀ n, Grounded (World.settlement (.actor i) r handled ++ [.cycle i]) n ↔ 0 < n := by
  cases r with
  | none => exact ⟨.cycle rfl, rfl, fun n => Iff.rfl⟩
  | some r => exact ⟨.settle rfl r handled, rfl, fun n => Iff.rfl⟩

private theorem stack_setStack (w : World σ) {stack : List ActiveState} (there : w.actors[i]? = some a)
    (found : (w.setStack (.actor i) stack).actors[i]? = some b) : b.core.stack = stack := by
  obtain rfl := Option.some.inj ((World.getElem?_modifyActor _ there).symm.trans found)
  rfl

private theorem grounded_consumption (core : Core) (event : Event) (binding : Binding)
    {rest : List Task} (high : ∀ n, 0 < n → Grounded rest n) {n : Nat} (positive : 0 < n) :
    Grounded (World.consumption (.actor i) core event binding ++ rest) n := by
  cases binding with
  | push target => exact high _ (by omega)
  | action action => exact high n positive
  | goto target transition =>
    have level : ∀ x ∈ World.leaving (.actor i) core (some event)
        ++ World.invocation (.actor i) (some event) .exit transition, x.shifts = false := by
      intro x hx
      have mine : (Subject.actor i).OwnedBy (ThreadId.actor i).own? false := ⟨rfl, rfl⟩
      rcases List.mem_append.1 hx with hx | hx
      · have fits : x.Fits _ false _ ∧ _ := World.fits_leaving mine core _ x hx
        exact fits.2
      · have fits : x.Fits _ false _ ∧ _ := World.fits_invocation mine _ _ _ x hx
        exact fits.2
    simp only [World.consumption, List.append_assoc]
    rw [← List.append_assoc, grounded_append level]
    exact high _ (by omega)

private theorem handled (h : Sound w) {event : Event} {r : Option Nat} {stack : List ActiveState}
    {xs : List Task}
    (found : w.thread? (.actor i) = some ⟨[.handle (.actor i) event r, .cycle i], false⟩)
    (works : Working (some i) false xs) (grounded : Grounded xs stack.length) :
    Sound ((w.setStack (.actor i) stack).setThread (.actor i) ⟨xs, false⟩) := by
  have able := h.able (by simp) found (.handle rfl event r) rfl
  refine h.reframe able (.setStack w i stack) ((w.thread?_setStack _ _ _).trans found) ?_ works
  intro j a b same ha hb _ _
  cases same
  rw [stack_setStack w ha hb]
  exact grounded

private theorem ignores (h : Sound w) {event : Event} {r : Option Nat} {core : Core}
    {stack : List ActiveState}
    (found : w.thread? (.actor i) = some ⟨[.handle (.actor i) event r, .cycle i], false⟩)
    (resolved : resolveEvent event.type core.stack = .ignored stack) :
    Sound ((w.setStack (.actor i) stack).setThread (.actor i)
      ⟨World.settlement (.actor i) r false ++ [.cycle i], false⟩) := by
  obtain ⟨works, _, grounded⟩ := working_settlement (i := i) r false
  refine h.handled found works ((grounded _).2 ?_)
  exact List.length_pos_of_ne_nil (ne_nil_of_ignored resolved)

private theorem consumes (h : Sound w) {event : Event} {r : Option Nat} {core : Core}
    {binding : Binding} {stack : List ActiveState}
    (found : w.thread? (.actor i) = some ⟨[.handle (.actor i) event r, .cycle i], false⟩)
    (resolved : resolveEvent event.type core.stack = .bound binding stack) :
    Sound ((w.setStack (.actor i) stack).setThread (.actor i)
      ⟨World.consumption (.actor i) { core with stack } event binding
        ++ World.settlement (.actor i) r true ++ [.cycle i], false⟩) := by
  obtain ⟨works, alone, grounded⟩ := working_settlement (i := i) r true
  have mine : (Subject.actor i).OwnedBy (ThreadId.actor i).own? false := ⟨rfl, rfl⟩
  rw [List.append_assoc]
  refine h.handled found (works.append ?_ fun e => by cases e) ?_
  · rw [alone]
    exact fun x hx => (World.fits_consumption (t := .actor i) mine _ event binding x hx).1
  · exact grounded_consumption _ event binding (fun n => (grounded n).2)
      (List.length_pos_of_ne_nil (ne_nil_of_bound resolved))

private theorem obeys (h : Sound w) {core : Core} {d : Demand}
    (found : w.thread? (.actor i) = some ⟨[.cycle i], false⟩)
    (there : w.core? (.actor i) = some core) (running : core.halted = false) :
    Sound ((w.modifyCore (.actor i) fun core => { core with raised := none }).setThread (.actor i)
      ⟨World.obedience (.actor i) core d ++ [.cycle i], false⟩) := by
  obtain ⟨a, ha, rfl⟩ := Option.map_eq_some_iff.1 there
  have able : Able w [.cycle i] (.actor i) := ⟨a, h.atWork_of_cycle found ha running⟩
  have mine : (Subject.actor i).OwnedBy (ThreadId.actor i).own? false := ⟨rfl, rfl⟩
  have level : ∀ x ∈ World.leaving (.actor i) a.core none,
      x.Fits (ThreadId.actor i).own? false false ∧ x.shifts = false :=
    World.fits_leaving mine a.core none
  have rest : Working (some i) false [.cycle i] := .cycle rfl
  have one : ∀ x : Task, x.Fits (some i) false false → Working (some i) false [x, .cycle i] :=
    fun x fits => .cons fits rest fun e => by cases e
  refine h.reframe able (.modifyActor w i fun _ => rfl)
    ((w.thread?_modifyCore _ _ _).trans found) ?_ ?_
  · intro j a' b same ha' hb _ positive
    cases same
    obtain rfl := Option.some.inj (ha.symm.trans ha')
    obtain rfl := Option.some.inj ((World.getElem?_modifyActor _ ha).symm.trans hb)
    cases d with
    | event e => exact fun m hm => hm
    | goto target =>
      simp only [World.obedience, List.append_assoc]
      rw [grounded_append fun x hx => (level x hx).2]
      exact Nat.succ_pos _
    | push target => exact Nat.succ_pos _
    | pop => exact fun m hm => hm
  · cases d with
    | event e => exact .handle rfl e none
    | goto target =>
      simp only [World.obedience, List.append_assoc]
      exact (one (.switch (.actor i) target none) mine).append
        (fun x hx => (level x hx).1) fun e => by cases e
    | push target => exact one _ mine
    | pop => exact one _ mine

private theorem settles (h : Sound w) {r : Nat} {handled : Bool}
    (found : w.thread? (.actor i) = some ⟨[.settle i r handled, .cycle i], false⟩)
    (there : w.actors[i]? = some a)
    (enabled : w.controller.status? (i + 1) = some .enabled) :
    Sound ((if a.core.halted then w.reply r false
      else w.modifyActor i fun a => { a with pending := a.pending ++ [(r, handled)] }).setThread
        (.actor i) ⟨[.cycle i], false⟩) := by
  obtain ⟨a', s, ha, thread, hs, operation, tidy, stage⟩ := h.standing found
  obtain rfl : a = a' := Option.some.inj (there.symm.trans ha)
  have active : s = .enabled := Option.some.inj (hs.symm.trans enabled)
  subst active
  cases stage with
  | fresh thread' | called _ thread' | pausing _ thread' | resting thread'
  | retiring _ _ thread' | gone thread' =>
    rw [thread] at thread'
    cases thread'
  | halting turn _ status _ halted =>
    rw [if_pos halted]
    have relieves := Relieves.reply w r false
    have there' : (w.reply r false).actors[i]? = some a := by rw [relieves.actors, ha]
    refine h.of_actor ((Spares.of_relieves relieves).trans (.setThread _ _ _))
      (World.getElem?_setThread there' _) operation (relieves.controller.enabled hs) ?_
      ⟨tidy.queue, tidy.pending, tidy.creation, tidy.halted⟩
    refine .halting ?_ (.inl rfl) status rfl halted
    exact relieves.controller.scheduled.trans turn
  | working thread' works grounded status _ running =>
    rw [if_neg (by simp [running])]
    rw [thread] at thread'
    cases thread'
    refine h.of_actor ((Spares.modifyActor w i (by exact fun _ => rfl)).trans (.setThread _ _ _))
      (World.getElem?_setThread (World.getElem?_modifyActor _ ha) _) operation hs
      (.working rfl (.cycle rfl) grounded status (.inl rfl) running) ?_
    refine ⟨tidy.queue, ?_, tidy.creation, tidy.halted⟩
    exact fun other => absurd status other

private theorem halts (h : Sound w) {event : Event} {r : Option Nat}
    (turn : w.controller.scheduled = i + 1)
    (found : w.thread? (.actor i) = some ⟨[.handle (.actor i) event r, .cycle i], false⟩)
    (enabled : w.controller.status? (i + 1) = some .enabled) :
    Sound (((w.setStack (.actor i) []).halt (.actor i)).setThread (.actor i)
      ⟨World.settlement (.actor i) r false ++ [.cycle i], false⟩) := by
  obtain ⟨a, work⟩ := h.atWork_of_busy found (.handle rfl event r) rfl
  have there : (w.setStack (.actor i) []).actors[i]? = some { a with core := { a.core with stack := [] } } :=
    World.getElem?_modifyActor _ work.found
  rw [World.halt_eq there work.running]
  have stopped := World.getElem?_modifyActor Actor.stopped there
  have relieves := Relieves.replyAll ((w.setStack (.actor i) []).modifyActor i Actor.stopped)
    (Actor.owed { a with core := { a.core with stack := [] } }) false
  rw [← relieves.actors] at stopped
  have observed := Still.observe (t := .actor i)
    (((w.setStack (.actor i) []).modifyActor i Actor.stopped).replyAll
      (Actor.owed { a with core := { a.core with stack := [] } }) false) (.destroyed a.core.id)
  have spares := (((Spares.of_frame (.setStack w i [])).trans
    (.modifyActor _ i (f := Actor.stopped) fun _ => rfl)).trans (.of_relieves relieves)).trans
      (.of_frame observed.toFrame)
  obtain ⟨b, hb, same⟩ := observed.actor stopped
  obtain ⟨mailbox, operation, pending, creation, halted, _⟩ := Actor.outer_inj same
  have still : ((((w.setStack (.actor i) []).modifyActor i Actor.stopped).replyAll
      (Actor.owed { a with core := { a.core with stack := [] } }) false).observe
        (.destroyed a.core.id)).controller.status? (i + 1) = some .enabled := by
    rw [observed.controller.status?]
    exact relieves.controller.enabled enabled
  refine h.of_actor (spares.trans (.setThread _ _ _)) (World.getElem?_setThread hb _)
    (operation.trans work.operation) still ?_ ?_
  · refine .halting ?_ ?_ (congrArg Mailbox.status mailbox) rfl halted
    · exact (spares.scheduled.trans turn :)
    · cases r with
      | none => exact .inl rfl
      | some r => exact .inr ⟨r, false, rfl⟩
  · exact ⟨fun _ => congrArg Mailbox.queue mailbox, fun _ => pending, fun _ => creation,
      fun _ => congrArg Mailbox.status mailbox⟩

/-! ## The turns of an actor -/

private theorem leaves (h : Sound w) {x : Task} (turn : w.controller.scheduled = i + 1)
    (found : w.thread? (.actor i) = some ⟨[x], false⟩) (own : x = .cycle i ∨ x = .wake i)
    (there : w.actors[i]? = some a) (halted : a.core.halted = true) :
    Sound (w.setThread (.actor i) ⟨[.retire .halt], false⟩) := by
  obtain ⟨a', s, ha, thread, hs, operation, tidy, stage⟩ := h.standing found
  obtain rfl : a = a' := Option.some.inj (there.symm.trans ha)
  have impossible : ∀ {P : Prop}, a.core.halted = false → P := by
    intro P running
    rw [running] at halted
    cases halted
  cases stage with
  | fresh _ _ _ running | called _ _ _ _ running | working _ _ _ _ _ running
  | pausing _ _ _ running | resting _ _ running => exact impossible running
  | retiring _ _ thread' | gone thread' =>
    rw [thread] at thread'
    rcases own with rfl | rfl <;> cases thread'
  | halting _ _ status enabled _ =>
    subst enabled
    exact h.of_actor (.setThread w _ _) (World.getElem?_setThread ha _) operation hs
      (.retiring turn .halt rfl status rfl) ⟨tidy.queue, tidy.pending, tidy.creation, tidy.halted⟩

/-- What an actor selects is taken from its queue, and what it discards is answered. -/
private theorem selected (h : Sound w) {discarded : List Envelope} {mailbox : Mailbox}
    {xs : List Task} (found : w.thread? (.actor i) = some ⟨[.cycle i], false⟩)
    (there : w.actors[i]? = some a) (running : a.core.halted = false)
    (status : mailbox.status = a.mailbox.status) (works : Working (some i) false xs)
    (grounded : ∀ n, 0 < n → Grounded xs n) :
    Sound (((w.modifyActor i fun a => { a with mailbox }).discard discarded).setThread (.actor i)
      ⟨xs, false⟩) := by
  have work := h.atWork_of_cycle found there running
  have there₁ := World.getElem?_modifyActor (fun a => { a with mailbox }) there
  have relieves := Relieves.discard (w.modifyActor i fun a => { a with mailbox }) discarded
  rw [← relieves.actors] at there₁
  have spares := ((Spares.modifyActor w i (f := fun a => { a with mailbox }) fun _ => rfl).trans
    (.of_relieves relieves)).trans (.setThread _ (.actor i) ⟨xs, false⟩)
  have busy : mailbox.status = .running := status.trans work.mailbox
  have tidy : Actor.Tidy { a with mailbox, thread := ⟨xs, false⟩ } := by
    refine ⟨?_, fun other => absurd busy other, fun _ => work.tidy.creation ?_, ?_⟩
    · intro halted
      rw [show mailbox.status = .halted from halted] at busy
      cases busy
    · simp [work.mailbox]
    · intro halted
      rw [show a.core.halted = true from halted] at running
      cases running
  have active : ∃ s, ((w.modifyActor i fun a => { a with mailbox }).discard
      discarded).controller.status? (i + 1) = some s ∧ (s = .enabled ∨ s = .blocked) := by
    rcases work.status with enabled | blocked
    · exact ⟨_, relieves.controller.enabled enabled, .inl rfl⟩
    · rcases relieves.controller.status (i + 1) with same | ⟨_, enabled⟩
      · exact ⟨_, same.trans blocked, .inr rfl⟩
      · exact ⟨_, enabled, .inl rfl⟩
  obtain ⟨s, hs, active⟩ := active
  exact h.of_actor spares (World.getElem?_setThread there₁ _) work.operation hs
    (.working rfl works (grounded _ work.grounded) busy active running) tidy

private theorem idles (h : Sound w) {top : ActiveState} {discarded : List Envelope}
    {mailbox : Mailbox} (turn : w.controller.scheduled = i + 1)
    (found : w.thread? (.actor i) = some ⟨[.cycle i], false⟩)
    (there : w.actors[i]? = some a) (running : a.core.halted = false) (quiet : a.core.raised = none)
    (current : a.core.stack.head? = some top)
    (selected : a.mailbox.dequeue (top.verdict w.policy) top.hasDefault =
      (.idle, discarded, mailbox))
    (enabled : w.controller.status? (i + 1) = some .enabled) :
    Sound ((((w.idled i a mailbox).discard discarded).rested i a).setThread (.actor i)
      ⟨[.pass .yield, .rest i], false⟩) := by
  have work := h.atWork_of_cycle found there running
  obtain ⟨idle, _, deaf, skips⟩ := Mailbox.dequeue_idle selected
  have there₁ : (w.idled i a mailbox).actors[i]? = some { a with mailbox } :=
    World.getElem?_modifyActor (fun a => { a with mailbox }) there
  have relieves := (Relieves.discard (w.idled i a mailbox) discarded).trans
    (.replyEach _ a.pending)
  rw [← relieves.actors] at there₁
  have there₂ := World.getElem?_modifyActor (fun a => { a with pending := [] }) there₁
  have spares₁ : Spares (.actor i) w (w.idled i a mailbox) := by
    refine (Spares.modifyActor w i (f := fun a => { a with mailbox }) fun _ => rfl).trans
      (.setStatus _ ?_ [.enabled] .disabled)
    simp [World.operation?, World.modifyActor, there]
  have spares := ((spares₁.trans (.of_relieves relieves)).trans
    (.modifyActor _ i (f := fun a => { a with pending := [] }) fun _ => rfl)).trans
      (.setThread _ (.actor i) ⟨[.pass .yield, .rest i], false⟩)
  have disabled : (w.idled i a mailbox).controller.status? (i + 1) = some .disabled := by
    show (w.controller.disable a.operation).status? (i + 1) = _
    rw [Controller.disable, Controller.status?_setStatus, enabled, work.operation]
    simp
  have still : (((w.idled i a mailbox).discard discarded).rested i a).controller.status? (i + 1) =
      some .disabled := by
    rcases relieves.controller.status (i + 1) with same | ⟨blocked, _⟩
    · exact same.trans disabled
    · rw [disabled] at blocked
      cases blocked
  have policy : (((w.idled i a mailbox).discard discarded).rested i a).policy = w.policy :=
    relieves.policy
  refine h.of_actor spares (World.getElem?_setThread there₂ _) work.operation still ?_ ?_
  · refine .pausing (spares.scheduled.trans turn) rfl (.inl ⟨idle, rfl, quiet, top, current, deaf, ?_⟩)
      running
    rw [show ((((w.idled i a mailbox).discard discarded).rested i a).setThread (.actor i)
      ⟨[.pass .yield, .rest i], false⟩).policy = w.policy from policy]
    exact skips
  · refine ⟨?_, fun _ => rfl, fun _ => work.tidy.creation (by simp [work.mailbox]), ?_⟩
    · intro halted
      rw [show mailbox.status = .halted from halted] at idle
      cases idle
    · intro halted
      rw [show a.core.halted = true from halted] at running
      cases running

private theorem rises (h : Sound w) {x : Task} (turn : w.controller.scheduled = i + 1)
    (found : w.thread? (.actor i) = some ⟨[x], false⟩) (own : x = .firstTurn i ∨ x = .rest i)
    (enabled : w.controller.status? (i + 1) = some .enabled) :
    Sound (w.setThread (.actor i) ⟨[.wake i], false⟩) := by
  obtain ⟨a, s, ha, thread, hs, operation, tidy, stage⟩ := h.standing found
  have active : s = .enabled := Option.some.inj (hs.symm.trans enabled)
  subst active
  have called : a.core.halted = false → a.mailbox.status = .uninitialized ∨
      a.mailbox.status = .running ∧ a.core.stack ≠ [] →
      Sound (w.setThread (.actor i) ⟨[.wake i], false⟩) := fun running status =>
    h.of_actor (.setThread w _ _) (World.getElem?_setThread ha _) operation hs
      (.called turn rfl status rfl running) ⟨tidy.queue, tidy.pending, tidy.creation, tidy.halted⟩
  have shape : ∀ ys, a.thread = ⟨ys, false⟩ → ys = [x] := by
    intro ys e
    rw [thread] at e
    cases e
    rfl
  cases stage with
  | fresh _ status _ running => exact called running (.inl status)
  | resting _ parked running =>
    rcases parked with ⟨_, disabled, _⟩ | ⟨status, _, standing⟩
    · cases disabled
    · exact called running (.inr ⟨status, standing⟩)
  | called _ thread' | retiring _ _ thread' =>
    rcases own with rfl | rfl <;> cases shape _ thread'
  | pausing _ thread' | gone thread' => cases shape _ thread'
  | halting _ thread' =>
    rcases thread' with thread' | ⟨r, handled, thread'⟩
    · rcases own with rfl | rfl <;> cases shape _ thread'
    · cases shape _ thread'
  | working thread' works =>
    rw [thread] at thread'
    cases thread'
    rcases own with rfl | rfl <;> cases works.not_between

private theorem called_inv (h : Sound w) (found : w.thread? (.actor i) = some ⟨[.wake i], false⟩)
    (there : w.actors[i]? = some a) :
    a.operation = i + 1 ∧ w.controller.status? (i + 1) = some .enabled ∧ a.Tidy ∧
      (a.mailbox.status = .uninitialized ∨ a.mailbox.status = .running ∧ a.core.stack ≠ []) := by
  obtain ⟨a', s, ha, thread, hs, operation, tidy, stage⟩ := h.standing found
  obtain rfl : a = a' := Option.some.inj (there.symm.trans ha)
  cases stage with
  | called _ _ status enabled => exact ⟨operation, enabled ▸ hs, tidy, status⟩
  | working thread' works =>
    rw [thread] at thread'
    cases thread'
    cases works.not_between
  | halting _ thread' =>
    rw [thread] at thread'
    rcases thread' with thread' | ⟨r, handled, thread'⟩ <;> cases thread'
  | fresh thread' | pausing _ thread' | resting thread' | retiring _ _ thread' | gone thread' =>
    rw [thread] at thread'
    cases thread'

private theorem starts (h : Sound w) (found : w.thread? (.actor i) = some ⟨[.wake i], false⟩)
    (there : w.actors[i]? = some a) (running : a.core.halted = false)
    (first : a.mailbox.status = .uninitialized) :
    Sound ((w.modifyActor i fun a =>
      { a with
        mailbox := a.mailbox.start.2
        pending := a.pending ++ a.creationRendezvous.toList.map (·, true)
        creationRendezvous := none
        creationEvent := none }).setThread (.actor i)
      ⟨[.start (.actor i) a.creationEvent, .cycle i], false⟩) := by
  obtain ⟨operation, enabled, tidy, _⟩ := h.called_inv found there
  have begun : a.mailbox.start.2.status = .running := by simp [Mailbox.start, first]
  refine h.of_actor ((Spares.modifyActor w i (by exact fun _ => rfl)).trans (.setThread _ _ _))
    (World.getElem?_setThread (World.getElem?_modifyActor _ there) _) operation enabled
    (.working rfl ?_ (Nat.succ_pos _) begun (.inl rfl) running) ?_
  · exact .cons (show (Subject.actor i).OwnedBy (some i) false from ⟨rfl, rfl⟩) (.cycle rfl)
      fun e => by cases e
  · refine ⟨?_, fun other => absurd begun other, fun _ => rfl, ?_⟩
    · intro halted
      rw [show a.mailbox.start.2.status = .halted from halted] at begun
      cases begun
    · intro halted
      rw [show a.core.halted = true from halted] at running
      cases running

private theorem resumes (h : Sound w) (found : w.thread? (.actor i) = some ⟨[.wake i], false⟩)
    (there : w.actors[i]? = some a) (running : a.core.halted = false)
    (again : a.mailbox.status ≠ .uninitialized) :
    Sound ((w.modifyActor i fun a => { a with mailbox := a.mailbox.start.2 }).setThread (.actor i)
      ⟨[.cycle i], false⟩) := by
  obtain ⟨operation, enabled, tidy, status⟩ := h.called_inv found there
  obtain ⟨busy, standing⟩ := status.resolve_left again
  have begun : a.mailbox.start.2 = a.mailbox := by simp [Mailbox.start, busy]
  refine h.of_actor ((Spares.modifyActor w i (by exact fun _ => rfl)).trans (.setThread _ _ _))
    (World.getElem?_setThread (World.getElem?_modifyActor _ there) _) operation enabled
    (.working rfl (.cycle rfl) (List.length_pos_of_ne_nil standing) ?_ (.inl rfl) running) ?_
  · exact (congrArg Mailbox.status begun).trans busy
  · refine ⟨?_, ?_, tidy.creation ∘ ?_, ?_⟩
    · rw [begun]
      exact tidy.queue
    · rw [begun]
      exact tidy.pending
    · rw [begun]
      exact id
    · rw [begun]
      exact tidy.halted

private theorem unwinds (h : Sound w) (turn : w.controller.scheduled = i + 1) {x : Task}
    {tasks : List Task} {outside : Bool}
    (found : w.thread? (.actor i) = some ⟨x :: tasks, outside⟩)
    (works : Working (some i) outside (x :: tasks)) (busy : x.busy = true)
    (still : Still (.actor i) w w₁)
    (enabled : w.controller.status? (i + 1) = some .enabled) :
    Sound ((w₁.abandon i).setThread (.actor i) ⟨[.retire .yield], false⟩) := by
  obtain ⟨a, work⟩ := h.atWork_of_busy found works busy
  obtain ⟨b, there, same⟩ := still.actor work.found
  obtain ⟨_, operation, _⟩ := Actor.outer_inj same
  rw [World.abandon_eq there]
  have there₁ := World.getElem?_modifyActor Actor.emptied there
  have relieves := Relieves.replyAll (w₁.modifyActor i Actor.emptied) b.owed false
  rw [← relieves.actors] at there₁
  have spares := (((Spares.of_frame still.toFrame).trans
    (.modifyActor w₁ i (f := Actor.emptied) fun _ => rfl)).trans (.of_relieves relieves)).trans
      (.setThread _ (.actor i) ⟨[.retire .yield], false⟩)
  have enabled₁ : w₁.controller.status? (i + 1) = some .enabled := by
    rw [still.controller.status?]
    exact enabled
  exact h.of_actor spares (World.getElem?_setThread there₁ _) (operation.trans work.operation)
    (relieves.controller.enabled enabled₁)
    (.retiring (spares.scheduled.trans turn) .yield rfl rfl rfl)
    ⟨fun _ => rfl, fun _ => rfl, fun _ => rfl, fun _ => rfl⟩

private theorem ends (h : Sound w) (turn : w.controller.scheduled = 0) (still : Still .driver w w₁)
    (enabled : w.controller.status? 0 = some .enabled) :
    Sound (w₁.setThread .driver ⟨[.retire .yield], false⟩) := by
  refine h.of_spares ((Spares.of_frame still.toFrame).trans (.setThread _ _ _)) ?_
  refine ⟨.enabled, ?_, .retiring (still.controller.scheduled.trans turn) rfl rfl⟩
  exact (still.controller.status? 0).trans enabled

/-- Threads are numbered, the test first. -/
theorem operation_of_thread (h : Sound w) {op : Nat} {thread : Thread}
    (found : w.thread? (World.threadOf op) = some thread) :
    w.operation? (World.threadOf op) = some op := by
  cases op with
  | zero => simp [World.threadOf, World.operation?, h.explores, Controller.driverOperation]
  | succ i =>
    obtain ⟨a, ha, _⟩ := Option.map_eq_some_iff.1 found
    exact h.operation_actor ha

/-- Who has a thread has an operation. -/
theorem status_of_thread (h : Sound w) {op : Nat} {thread : Thread}
    (found : w.thread? (World.threadOf op) = some thread) :
    ∃ s, w.controller.status? op = some s := by
  cases op with
  | zero =>
    obtain ⟨s, hs, _⟩ := h.driver
    exact ⟨s, hs⟩
  | succ i =>
    obtain ⟨_, s, _, _, hs, _⟩ := h.standing found
    exact ⟨s, hs⟩

/-! ## Handing over the turn -/

variable [Strategy σ]

private theorem passes (h : Sound w) {kind : PointKind} {op : Nat} {tasks : List Task}
    (turn : w.controller.scheduled = op)
    (found : w.thread? (World.threadOf op) = some ⟨.pass kind :: tasks, false⟩)
    (works : Working (World.threadOf op).own? false tasks ∨
      ∃ i, World.threadOf op = .actor i ∧ tasks = [.rest i]) :
    Sound (World.setThread { w with controller := (w.controller.schedule op kind).2 }
      (World.threadOf op) ⟨tasks, false⟩) := by
  have same := w.controller.sameOperations_schedule op kind
  have asks := h.operation_of_thread found
  refine h.of_turn asks turn same.mode (by rw [same.operations]) same.nextId
    (fun o _ => same.status? o) _ ?_
  cases op with
  | zero =>
    obtain ⟨s, hs, stage⟩ := h.driver
    have thread : w.test.thread = ⟨.pass kind :: tasks, false⟩ := Option.some.inj found
    have works : Working none false tasks := by
      rcases works with works | ⟨i, e, _⟩
      · exact works
      · cases e
    refine ⟨s, (same.status? 0).trans hs, ?_⟩
    cases stage with
    | working _ active => exact .working works active
    | retiring _ thread' | gone thread' =>
      rw [thread] at thread'
      cases thread'
  | succ i =>
    obtain ⟨a, s, ha, thread, hs, operation, tidy, stage⟩ := h.standing found
    intro b hb
    obtain rfl := Option.some.inj ((World.getElem?_setThread (by exact ha) _).symm.trans hb)
    refine ⟨operation, ⟨s, (same.status? _).trans hs, ?_⟩,
      tidy.queue, tidy.pending, tidy.creation, tidy.halted⟩
    have shape : ∀ ys out, a.thread = ⟨ys, out⟩ → .pass kind :: tasks = ys := by
      intro ys out e
      rw [thread] at e
      exact congrArg Thread.tasks e
    cases stage with
    | working thread' works' grounded status active running =>
      obtain rfl := shape _ _ thread'
      have works : Working (some i) false tasks := by
        rcases works with works | ⟨j, _, rfl⟩
        · exact works
        · exact absurd works' Working.not_pausing
      exact .working rfl works grounded status active running
    | pausing _ thread' parked running =>
      cases shape _ _ thread'
      refine .resting rfl ?_ running
      rcases parked with ⟨idle, disabled, resting⟩ | woken
      · exact .inl ⟨idle, disabled, resting.raised, resting.current⟩
      · exact .inr woken
    | fresh thread' | called _ thread' | resting thread' | retiring _ _ thread' | gone thread' =>
      cases shape _ _ thread'
    | halting _ thread' =>
      rcases thread' with thread' | ⟨r, handled, thread'⟩ <;> cases shape _ _ thread'

private theorem retires (h : Sound w) {kind : PointKind} {op : Nat}
    (turn : w.controller.scheduled = op)
    (found : w.thread? (World.threadOf op) = some ⟨[.retire kind], false⟩) :
    Sound (World.setThread { w with controller := w.controller.complete op kind }
      (World.threadOf op) ⟨[], false⟩) := by
  have asks := h.operation_of_thread found
  have completed := w.controller.completed_complete op kind
  refine h.of_turn asks turn completed.mode completed.ids completed.nextId completed.others _ ?_
  cases op with
  | zero =>
    obtain ⟨s, hs, stage⟩ := h.driver
    exact ⟨.completed, completed.own hs, .gone rfl rfl⟩
  | succ i =>
    obtain ⟨a, s, ha, thread, hs, operation, tidy, stage⟩ := h.standing found
    intro b hb
    obtain rfl := Option.some.inj ((World.getElem?_setThread (by exact ha) _).symm.trans hb)
    refine ⟨operation, ⟨.completed, completed.own hs, .gone rfl ?_ rfl⟩,
      tidy.queue, tidy.pending, tidy.creation, tidy.halted⟩
    have shape : ∀ ys out, a.thread = ⟨ys, out⟩ → [.retire kind] = ys := by
      intro ys out e
      rw [thread] at e
      exact congrArg Thread.tasks e
    cases stage with
    | retiring _ _ _ status => exact status
    | gone thread' | fresh thread' | called _ thread' | resting thread' | pausing _ thread' =>
      cases shape _ _ thread'
    | halting _ thread' =>
      rcases thread' with thread' | ⟨r, handled, thread'⟩ <;> cases shape _ _ thread'
    | working thread' works =>
      obtain rfl := shape _ _ thread'
      cases works.not_between

/-! ## Sending and creating -/

omit [Strategy σ]

private theorem able_blockCaller {t : ThreadId} {tasks : List Task} (h : Sound w)
    (able : Able w tasks t) {op : Nat} (asks : w.operation? t = some op) :
    Able (w.blockCaller (some op)) tasks t := by
  have blocked : ∀ o, o = op → w.controller.status? o = some .enabled ∨
      w.controller.status? o = some .blocked →
      (w.blockCaller (some op)).controller.status? o = some .blocked := by
    rintro o rfl status
    simp only [World.blockCaller, h.explores, if_true, Controller.block, Controller.status?_setStatus]
    rcases status with status | status <;> simp [status]
  cases t with
  | sleeper j => exact able
  | driver =>
    refine .inr (blocked 0 ?_ able)
    simpa [World.operation?, h.explores, Controller.driverOperation] using asks
  | actor i =>
    obtain ⟨a, work⟩ := able
    have own : i + 1 = op := by
      rw [h.operation_actor work.found] at asks
      exact Option.some.inj asks
    have actors : (w.blockCaller (some op)).actors = w.actors := by
      simp [World.blockCaller, h.explores]
    exact ⟨a, by rw [actors, work.found], work.operation, .inr (blocked _ own work.status),
      work.mailbox, work.running, work.grounded, work.tidy⟩

private theorem spares_blockCaller {t : ThreadId} (h : Sound w) {op : Nat}
    (asks : w.operation? t = some op) : Spares t w (w.blockCaller (some op)) := by
  simp only [World.blockCaller, h.explores, if_true]
  exact .setStatus w asks [.enabled] .blocked

/-- Whoever works may begin to wait. -/
private theorem blocks {t : ThreadId} {x : Task} {tasks : List Task} {outside : Bool} (h : Sound w)
    (known : ∀ j, t ≠ .sleeper j) (found : w.thread? t = some ⟨x :: tasks, outside⟩)
    (works : Working t.own? outside (x :: tasks)) (busy : x.busy = true) {op : Nat}
    (asks : w.operation? t = some op) : Sound (w.blockCaller (some op)) :=
  h.of_spares (h.spares_blockCaller asks)
    ((h.able_blockCaller (h.able known found works busy) asks).upright
      ((w.thread?_blockCaller t _).trans found) works)

private theorem posts {t : ThreadId} {event : Event} {tasks : List Task} {outside : Bool}
    (h : Sound w) (known : ∀ j, t ≠ .sleeper j)
    (found : w.thread? t = some ⟨.post i event :: tasks, outside⟩)
    (works : Working t.own? outside (.post i event :: tasks))
    (works' : Working t.own? outside tasks) :
    Sound ((w.enqueue i ⟨event, none⟩).setThread t ⟨tasks, outside⟩) := by
  have h₁ := h.enqueue i ⟨event, none⟩
  have found₁ := (w.thread?_enqueue t i ⟨event, none⟩).trans found
  exact h₁.rethread ((h₁.able known found₁ works rfl).mono fun _ => id) found₁ works'

private theorem engages {t : ThreadId} {op : Nat} {event : Event} {tasks : List Task} (h : Sound w)
    (known : ∀ j, t ≠ .sleeper j) (found : w.thread? t = some ⟨.engage i event :: tasks, false⟩)
    (works : Working t.own? false (.engage i event :: tasks))
    (works' : Working t.own? false tasks) (waiting : awaited tasks = true)
    (asks : w.operation? t = some op) :
    Sound ((((w.openRendezvous (some op)).2.blockCaller (some op)).enqueue i
      ⟨event, some w.rendezvous.length⟩).setThread t
      ⟨.pass .rendezvous :: .turn :: .collect w.rendezvous.length :: tasks, false⟩) := by
  have h₁ : Sound (w.openRendezvous (some op)).2 :=
    h.of_spares (t := .sleeper 0) (.openRendezvous w _) trivial
  have found₁ := (w.thread?_openRendezvous t (some op)).trans found
  have asks₁ : (w.openRendezvous (some op)).2.operation? t = some op := by
    rw [← asks]
    cases t <;> rfl
  have h₂ := h₁.blocks known found₁ works rfl asks₁
  have found₂ := ((w.openRendezvous (some op)).2.thread?_blockCaller t (some op)).trans found₁
  have h₃ := h₂.enqueue i ⟨event, some w.rendezvous.length⟩
  have found₃ := (World.thread?_enqueue _ t i ⟨event, some w.rendezvous.length⟩).trans found₂
  refine h₃.rethread ((h₃.able known found₃ works rfl).mono fun _ => id) found₃ ?_
  have below : ∀ ys : List Task, t.own? = none → awaited (ys ++ tasks) = true := by
    intro ys _
    simp [waiting]
  exact .cons rfl (.cons rfl (.collect _ waiting works') (below [.collect _]))
    (below [.turn, .collect _])

private theorem createsAndWaits {t : ThreadId} {number op : Nat} {x : Task} {tasks tasks' : List Task}
    (h : Sound w) (known : ∀ j, t ≠ .sleeper j) (name : World.threadOf number = t) (id : ActorId)
    (descriptor : Descriptor) (event : Option Event) (found : w.thread? t = some ⟨x :: tasks, false⟩)
    (works : Working t.own? false (x :: tasks)) (busy : x.busy = true)
    (asks : w.operation? t = some op) (still : Still t w w₁)
    (works' : Working t.own? false (.pass .create :: tasks'))
    (continues : Continues (x :: tasks) (.pass .create :: tasks')) :
    Sound ((((w₁.openRendezvous (some op)).2.addActor id descriptor event
      (some w₁.rendezvous.length)).blockCaller (some op)).setThread t
      ⟨.pass .create :: tasks', false⟩) := by
  have h₁ := h.of_still known found works busy still
  have found₁ := (still.thread? known).trans found
  have h₂ : Sound (w₁.openRendezvous (some op)).2 :=
    h₁.of_spares (t := .sleeper 0) (.openRendezvous w₁ _) trivial
  have found₂ := (w₁.thread?_openRendezvous t (some op)).trans found₁
  have h₃ := h₂.addActor id descriptor event (some w₁.rendezvous.length)
  have found₃ := World.thread?_addActor _ found₂ id descriptor event (some w₁.rendezvous.length)
  have asks₃ : ((w₁.openRendezvous (some op)).2.addActor id descriptor event
      (some w₁.rendezvous.length)).operation? t = some op := by
    subst name
    obtain rfl := Option.some.inj ((h.operation_of_thread found).symm.trans asks)
    exact h₃.operation_of_thread found₃
  have h₄ := h₃.blocks known found₃ works busy asks₃
  have found₄ := (World.thread?_blockCaller _ t (some op)).trans found₃
  exact h₄.rethread ((h₄.able known found₄ works busy).mono continues.grounded) found₄ works'

/-! ## Every step -/

variable [Strategy σ]

/-- Whatever the holder of the turn does leaves everybody standing. -/
theorem transition (h : Sound w) (poised : Poised w)
    (step : Transition (World.threadOf w.controller.scheduled) w w') : Sound w' := by
  have known := World.threadOf_ne_sleeper w.controller.scheduled
  have turn_of : ∀ i, World.threadOf w.controller.scheduled = .actor i →
      w.controller.scheduled = i + 1 := by
    intro i e
    cases hs : w.controller.scheduled with
    | zero => simp [hs, World.threadOf] at e
    | succ j => simpa [hs, World.threadOf] using e
  have enabled_of : ∀ {i x rest outside}, World.threadOf w.controller.scheduled = .actor i →
      w.thread? (World.threadOf w.controller.scheduled) = some ⟨x :: rest, outside⟩ →
      (∀ kind, x ≠ .pass kind) → w.controller.status? (i + 1) = some .enabled := by
    intro i x rest outside mine found stays
    rw [← turn_of i mine]
    exact poised.attentive found stays
  generalize ht : World.threadOf w.controller.scheduled = t at step known turn_of enabled_of
  cases step with
  | works found works busy still works' continues =>
    exact (h.of_still known found works busy still).rethread
      ((h.able known found works busy).still still continues.grounded)
      ((still.thread? known).trans found) works'
  | shifts mine there found works busy works' grounded _ _ =>
    subst mine
    obtain ⟨a, ha, rfl⟩ := Option.map_eq_some_iff.1 there
    refine h.reframe (h.able known found works busy) (.setStack w _ _)
      ((w.thread?_setStack _ _ _).trans found) ?_ works'
    intro j c b same hc hb running high
    cases same
    obtain rfl := Option.some.inj (ha.symm.trans hc)
    rw [stack_setStack w ha hb]
    exact grounded running high
  | ends mine found still =>
    subst mine
    have turn : w.controller.scheduled = 0 := by
      cases hs : w.controller.scheduled with
      | zero => rfl
      | succ j => simp [hs, World.threadOf] at ht
    refine h.ends turn still ?_
    rw [← turn]
    exact poised.attentive (ht ▸ found) (by simp)
  | unwinds mine found works feigns _ still =>
    subst mine
    refine h.unwinds (turn_of _ rfl) found works feigns.busy still (enabled_of rfl found ?_)
    rintro kind rfl
    exact feigns.elim
  | posts found works works' =>
    exact h.posts known found works works'
  | engages found works works' waiting asks =>
    exact h.engages known found works works' waiting asks
  | creates id descriptor event _ found works busy still works' continues =>
    have h₁ := (h.of_still known found works busy still).addActor id descriptor event none
    have found₁ := World.thread?_addActor _ ((still.thread? known).trans found) id descriptor event none
    exact h₁.rethread ((h₁.able known found₁ works busy).mono continues.grounded) found₁ works'
  | createsAndWaits id descriptor event found works busy _ asks still works' continues =>
    exact h.createsAndWaits known ht id descriptor event found works busy asks still works' continues
  | passes found works asks =>
    subst ht
    obtain rfl := Option.some.inj ((h.operation_of_thread found).symm.trans asks)
    exact h.passes rfl found works
  | settles mine found there =>
    subst mine
    exact h.settles found there (enabled_of rfl found (by simp))
  | ignores mine found there resolved =>
    subst mine
    exact h.ignores found resolved
  | consumes mine found there resolved =>
    subst mine
    exact h.consumes found resolved
  | halts mine found there resolved =>
    subst mine
    exact h.halts (turn_of _ rfl) found (enabled_of rfl found (by simp))
  | leaves mine found own there halted =>
    subst mine
    obtain ⟨a, ha, rfl⟩ := Option.map_eq_some_iff.1 there
    exact h.leaves (turn_of _ rfl) found own ha halted
  | obeys mine found there running raised =>
    subst mine
    exact h.obeys found there running
  | selects mine found there running _ _ selected =>
    subst mine
    obtain ⟨status, _⟩ := Mailbox.dequeue_event selected
    exact h.selected found there running status (.handle rfl _ _) fun n _ m hm => hm
  | defaults mine found there running _ _ selected =>
    subst mine
    obtain ⟨status, _⟩ := Mailbox.dequeue_default selected
    refine h.selected found there running status ?_ fun n _ m hm => hm
    exact .cons (.inl rfl) (.handle rfl _ none) fun e => by cases e
  | idles mine found there running quiet current selected =>
    subst mine
    exact h.idles (turn_of _ rfl) found there running quiet current selected
      (enabled_of rfl found (by simp))
  | starves mine found there running _ empty =>
    subst mine
    have high := (h.atWork_of_cycle found there running).grounded
    rw [empty] at high
    exact absurd high (Nat.lt_irrefl 0)
  | rises mine found own =>
    subst mine
    refine h.rises (turn_of _ rfl) found own (enabled_of rfl found ?_)
    rcases own with rfl | rfl <;> simp
  | starts mine found there running first =>
    subst mine
    exact h.starts found there running first
  | resumes mine found there running again =>
    subst mine
    exact h.resumes found there running again
  | retires found asks =>
    subst ht
    obtain rfl := Option.some.inj ((h.operation_of_thread found).symm.trans asks)
    exact h.retires rfl found

end Sound

/-! ## The turn -/

/-- The holder of the turn is the same, and whoever has work keeps it. -/
structure Attends (w w' : World σ) : Prop where
  scheduled : w'.controller.scheduled = w.controller.scheduled
  enabled : ∀ op, w.controller.status? op = some .enabled →
    w'.controller.status? op = some .enabled

namespace Attends

variable {w w₁ w₂ : World σ}

theorem trans (h : Attends w w₁) (k : Attends w₁ w₂) : Attends w w₂ :=
  ⟨k.scheduled.trans h.scheduled, fun op e => k.enabled op (h.enabled op e)⟩

theorem of_controller (same : w₁.controller = w.controller) : Attends w w₁ := by
  refine ⟨by rw [same], fun op => ?_⟩
  rw [same]
  exact id

theorem of_frame {t : ThreadId} (frame : Frame t w w₁) : Attends w w₁ :=
  ⟨frame.controller.scheduled, fun op e => (frame.controller.status? op).trans e⟩

theorem of_relieves (relieves : Relieves w w₁) : Attends w w₁ :=
  ⟨relieves.controller.scheduled, fun _ e => relieves.controller.enabled e⟩

theorem setThread (w : World σ) (t : ThreadId) (thread : Thread) :
    Attends w (w.setThread t thread) := of_controller (by simp)

theorem abandon (w : World σ) (i : Nat) : Attends w (w.abandon i) := by
  cases found : w.actors[i]? with
  | none =>
    rw [World.abandon_of_none found]
    exact of_controller rfl
  | some a =>
    rw [World.abandon_eq found]
    have emptied : Attends w (w.modifyActor i Actor.emptied) := of_controller rfl
    exact emptied.trans (of_relieves (.replyAll _ _ _))

theorem halt (w : World σ) (i : Nat) : Attends w (w.halt (.actor i)) := by
  unfold World.halt
  split
  · exact of_controller rfl
  · split
    · exact of_controller rfl
    · have stopped : Attends w (w.modifyCore (.actor i) fun core =>
          { core with halted := true, stack := [], raised := none }) := of_controller (by simp)
      refine (stopped.trans (abandon _ i)).trans (of_controller ?_)
      simp

theorem enqueue (w : World σ) (i : Nat) (envelope : Envelope) :
    Attends w (w.enqueue i envelope) := by
  cases found : w.actors[i]? with
  | none =>
    refine of_controller ?_
    unfold World.enqueue
    rw [found]
  | some a =>
    cases status : a.mailbox.status with
    | halted =>
      rw [World.enqueue_of_halted found envelope status]
      exact of_relieves (.discard w _)
    | uninitialized =>
      rw [World.enqueue_of_busy found envelope (.inl status)]
      exact of_controller rfl
    | running =>
      rw [World.enqueue_of_busy found envelope (.inr status)]
      exact of_controller rfl
    | idle =>
      rw [World.enqueue_of_idle found envelope status]
      refine ⟨rfl, fun op enabled => ?_⟩
      show (w.controller.enable a.operation).status? op = _
      rw [Controller.enable, Controller.status?_setStatus, enabled]
      simp

theorem addActor (h : Sound w) (id : ActorId) (descriptor : Descriptor) (event : Option Event)
    (rendezvous : Option Nat) : Attends w (w.addActor id descriptor event rendezvous) := by
  have same : (w.addActor id descriptor event rendezvous).controller =
      (w.controller.register id.name).2 := by
    simp [World.addActor]
  refine ⟨by rw [same]; rfl, fun op enabled => ?_⟩
  rw [same, Controller.status?_register]
  · split
    · rfl
    · exact enabled
  · rw [h.ids, h.nextId]
    simp

end Attends

theorem World.scheduled_blockCaller (w : World σ) (caller : Option Nat) :
    (w.blockCaller caller).controller.scheduled = w.controller.scheduled := by
  unfold World.blockCaller
  cases caller with
  | none => rfl
  | some op =>
    simp only
    split <;> rfl

theorem World.scheduled_rested (w : World σ) (i : Nat) (a : Actor) :
    (w.rested i a).controller.scheduled = w.controller.scheduled :=
  (Relieves.replyEach w a.pending).controller.scheduled

namespace Poised

variable {w w' : World σ}

/-- Whoever has work and keeps it may keep the turn. -/
private theorem of_attends {op : Nat} (enabled : w.controller.status? op = some .enabled)
    (turn : w.controller.scheduled = op) (attends : Attends w w') : Poised w' := by
  subst turn
  refine ⟨.inl ?_⟩
  rw [attends.scheduled]
  exact attends.enabled _ enabled

/-- Whoever is about to pass the turn on need not have work. -/
private theorem of_pass {t : ThreadId} {old : Thread} {kind : PointKind} {tasks : List Task}
    (found : w.thread? t = some old) (turn : World.threadOf w.controller.scheduled = t) :
    Poised (w.setThread t ⟨.pass kind :: tasks, false⟩) := by
  refine ⟨.inr ⟨kind, tasks, ?_⟩⟩
  rw [World.controller_setThread, turn]
  exact w.thread?_setThread found _

variable [Strategy σ]

/-- After every step the holder of the turn has work or passes it on. -/
theorem transition (h : Sound w) (poised : Poised w)
    (step : Transition (World.threadOf w.controller.scheduled) w w')
    (goesOn : w'.isOver = false) : Poised w' := by
  have attentive : ∀ {x rest outside},
      w.thread? (World.threadOf w.controller.scheduled) = some ⟨x :: rest, outside⟩ →
      (∀ kind, x ≠ .pass kind) → w.controller.status? w.controller.scheduled = some .enabled :=
    poised.attentive
  have sound : Sound w' := h.transition poised step
  generalize ht : World.threadOf w.controller.scheduled = t at step attentive
  have keeps : ∀ {x rest outside}, w.thread? t = some ⟨x :: rest, outside⟩ →
      (∀ kind, x ≠ .pass kind) → Attends w w' → Poised w' := by
    intro x rest outside found stays attends
    exact of_attends (attentive found stays) rfl attends
  have busy : ∀ {x : Task}, x.busy = true → ∀ kind, x ≠ .pass kind := by
    rintro x busy kind rfl
    cases busy
  cases step with
  | works found works isBusy still works' continues =>
    exact keeps found (busy isBusy) ((Attends.of_frame still.toFrame).trans (.setThread _ _ _))
  | shifts mine there found works isBusy =>
    subst mine
    exact keeps found (busy isBusy) ((Attends.of_frame (.setStack w _ _)).trans (.setThread _ _ _))
  | ends mine found still =>
    exact keeps found (by simp) ((Attends.of_frame still.toFrame).trans (.setThread _ _ _))
  | unwinds mine found works feigns _ still =>
    refine keeps found ?_
      (((Attends.of_frame still.toFrame).trans (.abandon _ _)).trans (.setThread _ _ _))
    rintro kind rfl
    exact feigns.elim
  | posts found => exact keeps found (by simp) ((Attends.enqueue w _ _).trans (.setThread _ _ _))
  | @engages i op event tasks found =>
    refine of_pass ((World.thread?_enqueue _ t _ _).trans
      ((World.thread?_blockCaller _ t _).trans ((World.thread?_openRendezvous w t _).trans found))) ?_
    rw [(Attends.enqueue _ _ _).scheduled, World.scheduled_blockCaller]
    exact ht
  | creates id descriptor event _ found works isBusy still works' continues =>
    refine keeps found (busy isBusy) (Attends.trans ?_ (.setThread _ _ _))
    subst ht
    exact (Attends.of_frame still.toFrame).trans
      (.addActor (h.of_still (World.threadOf_ne_sleeper _) found works isBusy still) _ _ _ _)
  | @createsAndWaits w₁ op x tasks tasks' id descriptor event found works isBusy _ asks still =>
    subst ht
    have known := World.threadOf_ne_sleeper w.controller.scheduled
    have found₁ := (still.thread? known).trans found
    refine of_pass ((World.thread?_blockCaller _ _ _).trans (World.thread?_addActor _
      ((World.thread?_openRendezvous _ _ _).trans found₁) id descriptor event _)) ?_
    rw [World.scheduled_blockCaller]
    have opened : Sound (World.openRendezvous w₁ (some op)).2 :=
      (h.of_still known found works isBusy still).of_spares (t := .sleeper 0)
        (.openRendezvous _ (some op)) trivial
    have same := (Attends.addActor opened id descriptor event
      (some w₁.rendezvous.length)).scheduled
    exact congrArg World.threadOf (same.trans still.controller.scheduled)
  | passes found works asks =>
    subst ht
    obtain rfl := Option.some.inj ((h.operation_of_thread found).symm.trans asks)
    refine ⟨.inl ?_⟩
    rw [World.controller_setThread]
    rw [World.isOver, World.controller_setThread] at goesOn
    obtain ⟨s, status⟩ := h.status_of_thread found
    exact Controller.enabled_schedule h.numbered (World.mode_of_explores h.explores) status goesOn
  | settles mine found there =>
    refine keeps found (by simp) (Attends.trans ?_ (.setThread _ _ _))
    split
    · exact .of_relieves (.reply w _ _)
    · exact .of_controller rfl
  | ignores mine found | consumes mine found =>
    subst mine
    exact keeps found (by simp) ((Attends.of_frame (.setStack w _ _)).trans (.setThread _ _ _))
  | halts mine found =>
    subst mine
    exact keeps found (by simp)
      (((Attends.of_frame (.setStack w _ _)).trans (.halt _ _)).trans (.setThread _ _ _))
  | leaves mine found own =>
    refine keeps found ?_ (.setThread _ _ _)
    rcases own with rfl | rfl <;> simp
  | obeys mine found =>
    refine keeps found (by simp) (Attends.trans (.of_controller ?_) (.setThread _ _ _))
    rfl
  | selects mine found | defaults mine found =>
    refine keeps found (by simp) (Attends.trans ?_ (.setThread _ _ _))
    refine Attends.trans ?_ (.of_relieves (.discard _ _))
    exact .of_controller rfl
  | @idles i a top discarded mailbox mine found =>
    have kept : ((w.idled i a mailbox).discard discarded).thread? t = w.thread? t :=
      (World.thread?_discard _ t _).trans ((World.thread?_setController _ t _).trans
        (w.thread?_modifyActor t i fun _ => rfl))
    refine of_pass ((World.thread?_rested _ t i a).trans (kept.trans found)) ?_
    rw [World.scheduled_rested, (Relieves.discard (w.idled i a mailbox) discarded).controller.scheduled]
    exact ht
  | @starves i a mine found =>
    refine of_pass ((w.thread?_rested t i a).trans found) ?_
    rw [World.scheduled_rested]
    exact ht
  | rises mine found own =>
    refine keeps found ?_ (.setThread _ _ _)
    rcases own with rfl | rfl <;> simp
  | starts mine found | resumes mine found =>
    refine keeps found (by simp) (Attends.trans (.of_controller ?_) (.setThread _ _ _))
    rfl
  | retires found asks =>
    subst ht
    obtain rfl := Option.some.inj ((h.operation_of_thread found).symm.trans asks)
    refine ⟨.inl ?_⟩
    rw [World.controller_setThread]
    rw [World.isOver, World.controller_setThread] at goesOn
    exact Controller.enabled_complete h.numbered (World.mode_of_explores h.explores) rfl goesOn

end Poised

end SteeredActors
