import SteeredActors.Proofs.World.Registrations

/-!
# Calls that send

A call that sends is let through unless a monitor makes it, or a thread that the controller does not
know, or its target is unknown, or an actor would wait for itself. Then the event is forwarded to
monitors and enqueued. Otherwise the call is refused at once.
-/

set_option autoImplicit false
set_option relaxedAutoImplicit false

namespace SteeredActors

variable {σ : Type}

/-- A call that waits until its event has been handled. -/
def Request.isRendezvous : Request → Bool
  | .sendAndExecute _ _ => true
  | _ => false

/-- What is done for a call that sends once monitors have seen the event. -/
def Request.legs (request : Request) (i : Nat) (event : Event) : List Task :=
  if request.isRendezvous then [.engage i event] else [.post i event, .point .send, .answer .null]

/-- First the event is posted. -/
theorem Request.exists_legs (request : Request) (i : Nat) (event : Event) :
    ∃ x xs, request.legs i event = x :: xs ∧ x.posting? = some (i, event) ∧
      ∀ y ∈ xs, y.isErrand = false := by
  unfold legs
  split
  · exact ⟨_, [], rfl, rfl, by simp⟩
  · exact ⟨_, _, rfl, rfl, by simp [Task.isErrand]⟩

def Speaker.isMonitor : Speaker → Bool
  | .action (.monitor _) _ => true
  | _ => false

/-- A call that sends an event to an actor, with the monitors that observe the event. -/
structure Sending where
  target : Nat
  event : Event
  audience : List Nat

namespace World

/-- A call of the holder of the turn is refused though its target is known. -/
def bars (w : World σ) (speaker : Speaker) (voice : Voice) (outside : Bool) (request : Request)
    (i : Nat) : Bool :=
  speaker.isMonitor || (outside || voice == .outsider) ||
    (request.isRendezvous && w.controller.scheduled == i + 1)

/-- The call that the holder of the turn makes next, if it sends and is let through. Whether its
target has halted does not matter. -/
def call? (w : World σ) : Option Sending :=
  (w.thread? (threadOf w.controller.scheduled)).bind fun thread =>
    match thread.tasks with
    | .perform speaker (.ask voice request _) :: _ =>
      request.sent?.bind fun sent =>
        (w.actor? sent.1).bind fun i =>
          if w.bars speaker voice thread.outside request i then none
          else some ⟨i, sent.2, w.observers sent.2.type⟩
    | _ => none

variable {w w' : World σ} {t : ThreadId}

theorem call?_of_thread {speaker : Speaker} {voice : Voice} {request : Request}
    {next : Answer → Program} {rest : List Task} {outside : Bool}
    (found : w.thread? (threadOf w.controller.scheduled) =
      some ⟨.perform speaker (.ask voice request next) :: rest, outside⟩) :
    w.call? = request.sent?.bind fun sent => (w.actor? sent.1).bind fun i =>
      if w.bars speaker voice outside request i then none
      else some ⟨i, sent.2, w.observers sent.2.type⟩ := by
  rw [call?, found]
  rfl

theorem call?_of_silent {x : Task} {rest : List Task} {outside : Bool}
    (found : w.thread? (threadOf w.controller.scheduled) = some ⟨x :: rest, outside⟩)
    (silent : ∀ request, x.request? = some request → request.sent? = none) : w.call? = none := by
  rw [call?, found, Option.bind_some]
  split
  · next same =>
    cases same
    rw [silent _ rfl]
    rfl
  · rfl

theorem audience_of_call? {s : Sending} (called : w.call? = some s) :
    s.audience = w.observers s.event.type := by
  obtain ⟨thread, _, asks⟩ := Option.bind_eq_some_iff.1 called
  split at asks
  · obtain ⟨sent, _, asks⟩ := Option.bind_eq_some_iff.1 asks
    obtain ⟨i, _, passes⟩ := Option.bind_eq_some_iff.1 asks
    split at passes <;> cases passes
    rfl
  · cases asks

variable [Strategy σ]

/-! ## How calls are served -/

/-- Monitors may not send. All others do what the call asks for. -/
private theorem serve_sent {request : Request} {target : ActorId} {event : Event}
    (asks : request.sent? = some (target, event)) (caller : Option Nat) (speaker : Speaker)
    (voice : Voice) :
    ∃ what, w.serve caller speaker voice request =
      match ensureMachine ((w.context? speaker voice).map (·.2.2)) what with
      | .error r => w.refuse r
      | .ok _ =>
        if request.isRendezvous then w.sendAndExecute caller target event
        else w.serveTasks (w.send caller target event) := by
  cases request <;> cases asks <;> exact ⟨_, rfl⟩

omit [Strategy σ] in
/-- Nobody sends from a thread that the controller does not know. -/
private theorem refuses_nobody (explores : w.explores = true) {caller : Option Nat}
    (nobody : caller = none) (target : ActorId) (event : Event) (waits : Bool) :
    ∃ a v, (if waits then w.sendAndExecute caller target event
      else w.serveTasks (w.send caller target event)) = .now a v := by
  subst nobody
  unfold send sendAndExecute
  cases w.ensureRunning with
  | error r => cases waits <;> exact ⟨_, _, rfl⟩
  | ok _ =>
    simp only [ensureKnown, explores, Option.isNone_none, Bool.and_self, if_true]
    cases waits <;> exact ⟨_, _, rfl⟩

/-- Who calls from the thread of the holder of the turn. -/
private def caller (w : World σ) (outside : Bool) (voice : Voice) : Option Nat :=
  if outside || voice == .outsider then none else some w.controller.scheduled

omit [Strategy σ] in
/-- A monitor is no machine. -/
theorem ensureMachine_of_monitor (fit : w.Fit) {m : Nat} {core : Core}
    (found : w.core? (.monitor m) = some core) (what : String) :
    ensureMachine (some core) what = .error (.invalidOperation s!"{core.label} can not {what}") := by
  have kind : core.descriptor.kind = .monitor := (fit.cores _ _ found).kind
  simp only [ensureMachine, kind]

/-- Monitors are refused, and so are those who speak for them from elsewhere. -/
theorem serve_of_monitor (explores : w.explores = true) (fit : w.Fit) {m : Nat} {core : Core}
    (found : w.core? (.monitor m) = some core) (phase : Phase) {voice : Voice}
    {caller : Option Nat} (unknown : voice = .outsider → caller = none) {request : Request}
    {sent : ActorId × Event} (asks : request.sent? = some sent) :
    ∃ a v, w.serve caller (.action (.monitor m) phase) voice request = .now a v := by
  obtain ⟨what, served⟩ := w.serve_sent asks caller (.action (.monitor m) phase) voice
  rw [served]
  cases voice with
  | own =>
    simp only [context?_of_action found, Option.map_some, ensureMachine_of_monitor fit found]
    exact ⟨_, _, rfl⟩
  | outsider =>
    rw [show w.context? (.action (.monitor m) phase) .outsider = none from rfl]
    exact refuses_nobody explores (unknown rfl) sent.1 sent.2 _

omit [Strategy σ] in
private theorem operation_of_actor? (h : Sound w) {target : ActorId} {i : Nat}
    (found : w.actor? target = some i) : w.actors[i]?.map (·.operation) = some (i + 1) := by
  obtain ⟨there, _⟩ := List.findIdx?_eq_some_iff_getElem.1 found
  have at_i := List.getElem?_eq_getElem there
  rw [at_i, Option.map_some, (h.actors i _ at_i).operation]

section

variable (h : Sound w) (running : w.isOver = false) {target : ActorId} {i : Nat}
  (found : w.actor? target = some i) (op : Nat) (event : Event)

include running found

omit [Strategy σ] in
private theorem send_known : w.serveTasks (w.send (some op) target event) =
    .later [.forward event, .post i event, .point .send, .answer .null] w := by
  simp [send, ensureRunning, running, ensureKnown, findActor, found, serveTasks, bind, Except.bind,
    pure, Except.pure]

include h

omit [Strategy σ] in
/-- Whoever waits for an event may not be its target. -/
private theorem sendAndExecute_known :
    (op = i + 1 → ∃ a v, w.sendAndExecute (some op) target event = .now a v) ∧
      (op ≠ i + 1 → w.sendAndExecute (some op) target event =
        .later [.forward event, .engage i event] w) := by
  have operation := operation_of_actor? h found
  have checked : (do
      w.ensureRunning
      w.ensureKnown (some op)
      w.findActor target) = .ok i := by
    simp [ensureRunning, running, ensureKnown, findActor, found, bind, Except.bind]
  unfold sendAndExecute
  rw [checked]
  simp only [operation]
  constructor
  · rintro rfl
    rw [if_pos (by simp)]
    exact ⟨_, _, rfl⟩
  · intro other
    rw [if_neg (by simpa using other)]

end

section

variable (h : Sound w) (fit : w.Fit) (running : w.isOver = false) {speaker : Speaker}
  (founded : speaker.Founded w) {voice : Voice} {outside : Bool} {request : Request}
  {target : ActorId} {event : Event} (asks : request.sent? = some (target, event)) {i : Nat}
  (found : w.actor? target = some i)

include h fit running founded asks found

private theorem serve_barred (barred : w.bars speaker voice outside request i = true) :
    ∃ a v, w.serve (w.caller outside voice) speaker voice request = .now a v := by
  have checked : (∃ a v, (if request.isRendezvous then
        w.sendAndExecute (w.caller outside voice) target event
      else w.serveTasks (w.send (w.caller outside voice) target event)) = .now a v) →
      ∃ a v, w.serve (w.caller outside voice) speaker voice request = .now a v := by
    intro refused
    obtain ⟨what, served⟩ := w.serve_sent asks (w.caller outside voice) speaker voice
    rw [served]
    split
    · exact ⟨_, _, rfl⟩
    · exact refused
  simp only [bars, Bool.or_assoc, Bool.or_eq_true, Bool.and_eq_true, beq_iff_eq] at barred
  rcases barred with monitor | unknown | unknown | ⟨waits, self⟩
  · obtain ⟨m, phase, rfl⟩ : ∃ m phase, speaker = .action (.monitor m) phase := by
      cases speaker with
      | test | sleeper j => cases monitor
      | action c phase =>
        cases c with
        | actor j => cases monitor
        | monitor m => exact ⟨m, phase, rfl⟩
    obtain ⟨core, there⟩ := Option.isSome_iff_exists.1 founded
    refine serve_of_monitor h.explores fit there phase (fun outsider => ?_) asks
    simp [caller, outsider]
  · exact checked (refuses_nobody h.explores (by simp [caller, unknown]) target event _)
  · exact checked (refuses_nobody h.explores (by simp [caller, unknown]) target event _)
  · refine checked ?_
    rw [if_pos waits]
    cases known : w.caller outside voice with
    | none => simpa using refuses_nobody h.explores rfl target event true
    | some op =>
      have own : op = w.controller.scheduled := by
        unfold caller at known
        split at known <;> cases known
        rfl
      exact (sendAndExecute_known h running found op event).1 (own.trans self)

private theorem serve_let (passes : w.bars speaker voice outside request i = false) :
    w.serve (w.caller outside voice) speaker voice request =
      .later (.forward event :: request.legs i event) w := by
  simp only [bars, Bool.or_eq_false_iff, Bool.and_eq_false_iff, beq_eq_false_iff_ne] at passes
  obtain ⟨⟨machine, known⟩, other⟩ := passes
  have who : w.caller outside voice = some w.controller.scheduled := if_neg (by simpa using known)
  have may : ∀ what, ensureMachine ((w.context? speaker voice).map (·.2.2)) what = .ok () := by
    intro what
    unfold context?
    split
    · next c phase =>
      cases c with
      | monitor m => cases machine
      | actor j =>
        obtain ⟨core, there⟩ := Option.isSome_iff_exists.1 founded
        have kind : core.descriptor.kind = .machine := (fit.cores _ _ there).kind
        simp [there, ensureMachine, kind]
    · rfl
  obtain ⟨what, served⟩ := w.serve_sent asks (w.caller outside voice) speaker voice
  rw [served, may, who]
  simp only
  split
  · next waits =>
    have other : w.controller.scheduled ≠ i + 1 := other.resolve_left (by simp [waits])
    rw [(sendAndExecute_known h running found _ event).2 other, Request.legs, if_pos waits]
  · next returns => rw [send_known running found, Request.legs, if_neg returns]

end

/-! ## What becomes of calls -/

/-- What a thread has to do after a call that sends. -/
inductive Served (w : World σ) (speaker : Speaker) (next : Answer → Program) (rest : List Task) :
    List Task → Prop where
  | refused (r : Refusal) (none : w.call? = none) :
      Served w speaker next rest (.perform speaker (next (.error (.runtime r))) :: rest)
  | sends {s : Sending} {x : Task} {xs : List Task} (called : w.call? = some s)
      (posts : x.posting? = some (s.target, s.event)) (plain : ∀ y ∈ xs, y.isErrand = false)
      (audience : s.audience = w.observers s.event.type) :
      Served w speaker next rest (.forward s.event :: x :: xs ++ rest)

/-- A call that is let through forwards its event, posts it and waits. -/
theorem step_of_call (h : Sound w) (poised : Poised w) (orderly : w.Orderly)
    (running : w.isOver = false) {speaker : Speaker} {voice : Voice} {request : Request}
    {next : Answer → Program} {rest : List Task} {outside : Bool}
    (found : w.thread? (threadOf w.controller.scheduled) =
      some ⟨.perform speaker (.ask voice request next) :: rest, outside⟩) {s : Sending}
    (called : w.call? = some s) :
    ∃ w', w.step? = some w' ∧ w'.standing = w.standing ∧
      w'.thread? (threadOf w.controller.scheduled) = some ⟨.forward s.event ::
        (request.legs s.target s.event ++ .resume speaker false false next :: rest), false⟩ := by
  have operation : w.operation? (threadOf w.controller.scheduled) = some w.controller.scheduled := by
    obtain ⟨_, _, _, operation⟩ := h.holder poised
    exact operation
  have founded : speaker.Founded w := orderly.founded _ _ found _ List.mem_cons_self
  rw [call?_of_thread found] at called
  obtain ⟨⟨target, event⟩, asks, called⟩ := Option.bind_eq_some_iff.1 called
  obtain ⟨i, there, called⟩ := Option.bind_eq_some_iff.1 called
  cases passes : w.bars speaker voice outside request i with
  | true => simp [passes] at called
  | false =>
    rw [passes] at called
    obtain rfl := Option.some.inj called
    have served := serve_let h orderly.fit running founded asks there passes
    have known : (outside || voice == .outsider) = false := by
      simp only [bars, Bool.or_eq_false_iff] at passes
      simpa using passes.1.2
    obtain rfl : outside = false := (Bool.or_eq_false_iff.1 known).1
    have single : request.isAccess = false := by cases request <;> first | rfl | cases asks
    have executed : w.exec (threadOf w.controller.scheduled)
        (.perform speaker (.ask voice request next)) =
          .go (.forward event :: request.legs i event ++ [.resume speaker false false next])
            (w.setThread (threadOf w.controller.scheduled)
              ⟨.perform speaker (.ask voice request next) :: rest, false⟩) := by
      rw [caller, known, ← operation] at served
      simp only [exec, perform, found, known, Bool.false_eq_true, if_false] at served ⊢
      rw [served, ← single]
      cases request <;> rfl
    have kept := w.thread?_setThread found
      ⟨.perform speaker (.ask voice request next) :: rest, false⟩
    refine ⟨World.setThread _ (threadOf w.controller.scheduled) ⟨.forward event ::
        request.legs i event ++ [.resume speaker false false next] ++ rest, false⟩, ?_,
      (standing_setThread ..).trans (standing_setThread ..),
      (World.thread?_setThread _ kept _).trans ?_⟩
    · rw [step?_of_running h.explores running, stepThread?_cons found, executed]
      simp only [kept]
    · simp

/-- A call that sends is refused at once, or the event is forwarded next. Nothing else changes for
monitors. -/
theorem served_of_call (h : Sound w) (poised : Poised w) (orderly : w.Orderly)
    (running : w.isOver = false) {speaker : Speaker} {voice : Voice} {request : Request}
    {next : Answer → Program} {rest : List Task} {outside : Bool}
    (found : w.thread? (threadOf w.controller.scheduled) =
      some ⟨.perform speaker (.ask voice request next) :: rest, outside⟩)
    {target : ActorId} {event : Event} (asks : request.sent? = some (target, event)) :
    ∃ w' thread, w.step? = some w' ∧ w'.standing = w.standing ∧
      w'.thread? (threadOf w.controller.scheduled) = some thread ∧
      w.Served speaker next rest thread.tasks := by
  cases called : w.call? with
  | some s =>
    obtain ⟨w', moved, same, now⟩ := step_of_call h poised orderly running found called
    obtain ⟨x, xs, legs, posts, plain⟩ := request.exists_legs s.target s.event
    have each : ∀ y ∈ xs ++ [.resume speaker false false next], y.isErrand = false :=
      List.forall_mem_append.2 ⟨plain, List.forall_mem_singleton.2 rfl⟩
    refine ⟨w', _, moved, same, now, ?_⟩
    have tasks : .forward s.event ::
        (request.legs s.target s.event ++ .resume speaker false false next :: rest) =
        .forward s.event :: x :: (xs ++ [.resume speaker false false next]) ++ rest := by
      simp [legs]
    rw [tasks]
    exact .sends called posts each (audience_of_call? called)
  | none =>
    have founded : speaker.Founded w := orderly.founded _ _ found _ List.mem_cons_self
    obtain ⟨_, _, _, operation⟩ := h.holder poised
    have service : w.service (threadOf w.controller.scheduled)
        ⟨.perform speaker (.ask voice request next) :: rest, outside⟩ speaker voice request =
          w.serve (w.caller outside voice) speaker voice request := by
      rw [World.service, operation]
      rfl
    have uncalled := call?_of_thread found
    rw [called, asks, Option.bind_some] at uncalled
    rcases w.serve_sends asks (threadOf w.controller.scheduled) (w.caller outside voice) speaker voice
      with ⟨r, v, retains, served⟩ | ⟨i, _, _, there, _, _, served⟩
    · rcases exec_ask found speaker voice request next with
        ⟨a, v', serves, executed⟩ | ⟨_, _, _, serves, _⟩ <;> rw [service, served] at serves
      · cases serves
        have leads := orderly.exec (threadOf w.controller.scheduled)
          (x := .perform speaker (.ask voice request next)) founded
        rw [executed] at leads
        obtain ⟨old, kept, _⟩ := leads.1.kept _ _ found
        refine ⟨_, _, ?_, (standing_setThread ..).trans retains.standing,
          v.thread?_setThread kept ⟨_, old.outside⟩, .refused r called⟩
        rw [step?_of_running h.explores running, stepThread?_cons found, executed]
        simp only [kept]
        rfl
      · cases serves
    · rw [there, Option.bind_some] at uncalled
      cases barred : w.bars speaker voice outside request i with
      | false => simp [barred] at uncalled
      | true =>
        obtain ⟨a, v, now⟩ := serve_barred h orderly.fit running founded asks there barred
        cases served.symm.trans now

/-- Whoever calls is not stuck. -/
theorem call?_of_stuck (h : Sound w) (poised : Poised w) (orderly : w.Orderly)
    (running : w.isOver = false) (stuck : w.step? = none) : w.call? = none := by
  cases called : w.call? with
  | none => rfl
  | some s =>
    obtain ⟨⟨tasks, outside⟩, found, asks⟩ := Option.bind_eq_some_iff.1 called
    simp only at asks
    split at asks
    · obtain ⟨sent, sends, _⟩ := Option.bind_eq_some_iff.1 asks
      obtain ⟨_, _, moved, _⟩ := served_of_call h poised orderly running found sends
      rw [stuck] at moved
      cases moved
    · cases asks

end World

end SteeredActors
