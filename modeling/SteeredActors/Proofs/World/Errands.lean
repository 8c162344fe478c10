import SteeredActors.Proofs.World.Reached

/-!
# Errands

A few tasks reach beyond interpreters and mailboxes: they access a shared object, send an event or
list a monitor. Only requests bring the first two, and only a registration brings the last one. All
other tasks leave shared objects and the registration of monitors alone, and no thread but the one that
acts has other things to do afterwards. What an interpreter does leads to more of its own work only, unless
its actions ask for something.
-/

set_option autoImplicit false
set_option relaxedAutoImplicit false

namespace SteeredActors

variable {σ : Type}

/-- A task that accesses a shared object, sends an event or lists a monitor. -/
def Task.isErrand : Task → Bool
  | .touch _ _ | .forward _ | .post _ _ | .engage _ _ | .enlist _ => true
  | _ => false

/-- The interpreter whose work a task is. -/
def Task.subject? : Task → Option Subject
  | .start c _ | .handle c _ _ | .invoke c _ _ _ | .switch c _ _ | .enter c _ _ | .pop c
  | .dropTop c | .perform (.action c _) _ => some c
  | .settle i _ _ => some (.actor i)
  | .drain m | .defaults m | .release m => some (.monitor m)
  | _ => none

/-- A task with which a delivery to a monitor begins or ends. -/
def Task.hands : Task → Bool
  | .deliver _ _ | .release _ => true
  | _ => false

/-- A task with which the registration of a monitor begins or ends. -/
def Task.registers : Task → Bool
  | .install _ _ | .enlist _ => true
  | _ => false

/-- The request that a task makes. -/
def Task.request? : Task → Option Request
  | .perform _ (.ask _ request _) => some request
  | _ => none

theorem Task.of_request? {x : Task} {request : Request} (asks : x.request? = some request) :
    ∃ speaker voice next, x = .perform speaker (.ask voice request next) := by
  cases x
  case perform speaker program =>
    cases program with
    | finish memory ending => cases asks
    | ask voice request' next =>
      obtain rfl := Option.some.inj asks
      exact ⟨speaker, voice, next, rfl⟩
  all_goals cases asks

/-- An access to a shared object. -/
def Request.isAccess : Request → Bool
  | .access _ _ _ => true
  | _ => false

/-- The event that a request sends, and to whom. -/
def Request.sent? : Request → Option (ActorId × Event)
  | .send target event | .sendAndExecute target event => some (target, event)
  | .stopTimer timer => some (timer, .ofType Timer.stop)
  | _ => none

/-- The event that a task enqueues, and for which actor. -/
def Task.posting? : Task → Option (Nat × Event)
  | .post i event | .engage i event => some (i, event)
  | _ => none

/-- The shared object that a task makes. -/
def Task.makes? : Task → Option SharedObject
  | .perform _ (.ask _ (.newObject object) _) => some object
  | _ => none

/-- What a task may lead to: no errand, and only more of the work of the same interpreter. -/
def Task.Tame (x y : Task) : Prop :=
  y.isErrand = false ∧ ∀ c, x.subject? = some c → y.subject? = some c

theorem Task.Tame.of_subject {x y : Task} {c : Subject} (own : x.subject? = some c)
    (plain : y.isErrand = false) (same : y.subject? = some c) : x.Tame y :=
  ⟨plain, fun _ other => same.trans (own.symm.trans other)⟩

/-! ## What is left alone -/

/-- Shared objects and all threads but one are as they were. -/
structure World.Bypasses (t : ThreadId) (w w' : World σ) : Prop where
  objects : w'.objects = w.objects
  others : ∀ u thread, u ≠ t → w.thread? u = some thread → w'.thread? u = some thread

/-- How far the registration of a monitor is, and what it observes. -/
def Monitor.standing (a : Monitor) : Stage × List EventType := (a.stage, a.subscriptions)

/-- How monitors stand. -/
def World.standing (w : World σ) : List (Stage × List EventType) := w.monitors.map (·.standing)

/-- Which monitors have an event in hand. -/
def World.busied (w : World σ) : List Bool := w.monitors.map (·.busy)

/-- Besides, monitors stand as they did. -/
structure World.Upholds (t : ThreadId) (w w' : World σ) : Prop extends World.Bypasses t w w' where
  standing : w'.standing = w.standing

/-- Besides, the same monitors have an event in hand. -/
structure World.Retains (t : ThreadId) (w w' : World σ) : Prop extends World.Upholds t w w' where
  busied : w'.busied = w.busied

/-- What a change of one monitor leaves alone in every monitor is as it was. -/
theorem World.map_monitors_modifyMonitor {α : Type} (w : World σ) (m : Nat) {f : Monitor → Monitor}
    {p : Monitor → α} (same : ∀ a, p (f a) = p a) :
    (w.modifyMonitor m f).monitors.map p = w.monitors.map p := by
  refine List.ext_getElem? fun k => ?_
  simp only [World.modifyMonitor, List.getElem?_map, List.getElem?_modify]
  split
  · cases w.monitors[k]? <;> simp [same]
  · cases w.monitors[k]? <;> rfl

theorem World.objects_setThread (w : World σ) (t : ThreadId) (thread : Thread) :
    (w.setThread t thread).objects = w.objects := by
  cases t <;> rfl

namespace World.Bypasses

variable {t : ThreadId} {w w₁ w₂ : World σ}

theorem refl (w : World σ) : w.Bypasses t w := ⟨rfl, fun _ _ _ => id⟩

theorem trans (h : w.Bypasses t w₁) (k : w₁.Bypasses t w₂) : w.Bypasses t w₂ :=
  ⟨k.objects.trans h.objects, fun u thread other found =>
    k.others u thread other (h.others u thread other found)⟩

/-- The thread that acts gets other things to do. -/
theorem setThread (h : w.Bypasses t w₁) (thread : Thread) :
    w.Bypasses t (w₁.setThread t thread) := by
  refine ⟨by rw [objects_setThread, h.objects], fun u old other found => ?_⟩
  rw [w₁.thread?_setThread_ne other]
  exact h.others u old other found

end World.Bypasses

theorem World.Upholds.modifyMonitor {t : ThreadId} (w : World σ) (m : Nat) {f : Monitor → Monitor}
    (standing : ∀ a, (f a).standing = a.standing) : w.Upholds t (w.modifyMonitor m f) where
  objects := rfl
  others u _ _ found := by rw [← found]; cases u <;> rfl
  standing := w.map_monitors_modifyMonitor m standing

/-- A monitor gets an event in hand or is done with it. -/
theorem World.Upholds.hand {t : ThreadId} (w : World σ) (m : Nat) (busy : Bool) :
    w.Upholds t (w.modifyMonitor m fun monitor => { monitor with busy }) :=
  modifyMonitor w m fun _ => rfl

namespace World.Retains

variable {t : ThreadId} {w w₁ w₂ : World σ}

theorem of_same (objects : w₁.objects = w.objects) (monitors : w₁.monitors = w.monitors)
    (threads : ∀ u, w₁.thread? u = w.thread? u) : w.Retains t w₁ where
  objects := objects
  others u _ _ found := by rw [threads, found]
  standing := congrArg (List.map Monitor.standing) monitors
  busied := congrArg (List.map Monitor.busy) monitors

theorem of_controller (w : World σ) (c : Controller σ) :
    w.Retains t { w with controller := c } := of_same rfl rfl fun u => by cases u <;> rfl

theorem refl (w : World σ) : w.Retains t w := of_same rfl rfl fun _ => rfl

theorem trans (h : w.Retains t w₁) (k : w₁.Retains t w₂) : w.Retains t w₂ where
  toBypasses := h.toBypasses.trans k.toBypasses
  standing := k.standing.trans h.standing
  busied := k.busied.trans h.busied

theorem setThread (h : w.Retains t w₁) (thread : Thread) :
    w.Retains t (w₁.setThread t thread) where
  toBypasses := h.toBypasses.setThread thread
  standing := by
    rw [← h.standing]
    cases t <;> rfl
  busied := by
    rw [← h.busied]
    cases t <;> rfl

theorem modifyActor (w : World σ) (i : Nat) {f : Actor → Actor}
    (thread : ∀ a, (f a).thread = a.thread) : w.Retains t (w.modifyActor i f) :=
  of_same rfl rfl fun u => w.thread?_modifyActor u i thread

theorem modifyMonitor (w : World σ) (m : Nat) {f : Monitor → Monitor}
    (standing : ∀ a, (f a).standing = a.standing) (busy : ∀ a, (f a).busy = a.busy) :
    w.Retains t (w.modifyMonitor m f) where
  toUpholds := .modifyMonitor w m standing
  busied := w.map_monitors_modifyMonitor m busy

theorem modifyCore (w : World σ) (c : Subject) (f : Core → Core) :
    w.Retains t (w.modifyCore c f) := by
  cases c with
  | actor i => exact modifyActor w i fun _ => rfl
  | monitor m => exact modifyMonitor w m (fun _ => rfl) fun _ => rfl

theorem setStack (w : World σ) (c : Subject) (stack : List ActiveState) :
    w.Retains t (w.setStack c stack) := modifyCore w c _

theorem modifySleeper (w : World σ) (j : Nat) {f : Sleeper → Sleeper}
    (thread : ∀ s, (f s).thread = s.thread) : w.Retains t (w.modifySleeper j f) := by
  refine of_same rfl rfl fun u => ?_
  cases u with
  | driver | actor i => rfl
  | sleeper k =>
    simp only [thread?, World.modifySleeper, List.getElem?_modify]
    cases w.sleepers[k]? with
    | none => rfl
    | some s =>
      simp only [Option.map_some, Option.map_eq_map]
      split <;> simp [thread s]

theorem note (w : World σ) (who text : String) : w.Retains t (w.note who text) := by
  unfold World.note
  split
  · exact refl w
  · exact of_same rfl rfl fun u => by cases u <;> rfl

theorem observe (w : World σ) (event : LifecycleEvent) : w.Retains t (w.observe event) := by
  refine of_same ?_ ?_ fun u => w.thread?_observe u event
  all_goals
    unfold World.observe
    split <;> rfl

theorem report (w : World σ) (report : BugReport) : w.Retains t (w.report report) :=
  of_controller w _

theorem reply (w : World σ) (r : Nat) (handled : Bool) : w.Retains t (w.reply r handled) := by
  refine of_same ?_ ?_ fun u => w.thread?_reply u r handled
  all_goals
    unfold World.reply
    split
    · next waiter _ => cases waiter <;> rfl
    · rfl

theorem replyAll (w : World σ) (rs : List Nat) (handled : Bool) :
    w.Retains t (w.replyAll rs handled) := by
  unfold World.replyAll
  induction rs generalizing w with
  | nil => exact refl w
  | cons r rs ih => exact (reply w r handled).trans (ih _)

theorem replyEach (w : World σ) (pending : List (Nat × Bool)) :
    w.Retains t (pending.foldl (fun w (r, handled) => w.reply r handled) w) := by
  induction pending generalizing w with
  | nil => exact refl w
  | cons p pending ih => exact (reply w p.1 p.2).trans (ih _)

theorem discard (w : World σ) (envelopes : List Envelope) : w.Retains t (w.discard envelopes) :=
  replyAll w _ false

theorem openRendezvous (w : World σ) (caller : Option Nat) :
    w.Retains t (w.openRendezvous caller).2 := of_same rfl rfl fun u => by cases u <;> rfl

theorem blockCaller (w : World σ) (caller : Option Nat) : w.Retains t (w.blockCaller caller) := by
  unfold World.blockCaller
  cases caller with
  | none => exact refl w
  | some op =>
    simp only
    split
    · exact of_controller w _
    · exact refl w

theorem enqueue (w : World σ) (i : Nat) (envelope : Envelope) :
    w.Retains t (w.enqueue i envelope) := by
  unfold World.enqueue
  split
  · exact refl w
  · next a _ =>
    cases a.mailbox.enqueue envelope with
    | mk arrival mailbox =>
      have arrived : w.Retains t (w.modifyActor i fun a => { a with mailbox }) :=
        modifyActor w i fun _ => rfl
      cases arrival with
      | dropped => exact arrived.trans (discard _ _)
      | queued => exact arrived
      | woke => exact arrived.trans (of_controller _ _)

theorem abandon (w : World σ) (i : Nat) : w.Retains t (w.abandon i) := by
  unfold World.abandon
  split
  · exact refl w
  · refine Retains.trans ?_ (((discard _ _).trans (replyAll _ _ _)).trans (replyAll _ _ _))
    exact modifyActor w i fun _ => rfl

theorem halt (w : World σ) (c : Subject) : w.Retains t (w.halt c) := by
  unfold World.halt
  split
  · exact refl w
  · split
    · exact refl w
    · cases c with
      | actor i => exact ((modifyCore w _ _).trans (abandon _ i)).trans (observe _ _)
      | monitor m => exact (modifyCore w _ _).trans (observe _ _)

theorem addActor (w : World σ) (id : ActorId) (descriptor : Descriptor) (event : Option Event)
    (rendezvous : Option Nat) : w.Retains t (w.addActor id descriptor event rendezvous) := by
  unfold World.addActor
  refine Retains.trans ?_ (observe _ _)
  refine ⟨⟨⟨rfl, fun u thread _ found => ?_⟩, rfl⟩, rfl⟩
  cases u with
  | driver | sleeper j => exact found
  | actor j =>
    obtain ⟨a, there, rfl⟩ := Option.map_eq_some_iff.1 found
    simp [thread?, List.getElem?_append_left (List.getElem?_eq_some_iff.1 there).1, there]

theorem stopSleeper (w : World σ) (core : Option Core) : w.Retains t (w.stopSleeper core) := by
  cases core with
  | none => exact refl w
  | some c =>
    refine of_same rfl rfl fun u => ?_
    cases u with
    | driver | actor i => rfl
    | sleeper j =>
      simp only [thread?, World.stopSleeper, List.getElem?_map, Option.map_map]
      congr 1
      funext s
      simp only [Function.comp_apply]
      split <;> rfl

theorem startSleeper (w : World σ) (info : TimerInfo) : w.Retains t (w.startSleeper info) := by
  refine ⟨⟨⟨rfl, fun u thread _ found => ?_⟩, rfl⟩, rfl⟩
  cases u with
  | driver | actor i => exact found
  | sleeper j =>
    obtain ⟨s, there, rfl⟩ := Option.map_eq_some_iff.1 found
    simp [thread?, World.startSleeper,
      List.getElem?_append_left (List.getElem?_eq_some_iff.1 there).1, there]

end World.Retains

/-! ## What requests bring -/

/-- What a request leads to. -/
inductive Service.Brings (t : ThreadId) (w : World σ) (request : Request) : Service σ → Prop where
  | now {a : Answer} {w' : World σ} (retains : w.Retains t w') : Brings t w request (.now a w')
  | later {tasks : List Task} {w' : World σ} (retains : w.Retains t w')
      (plain : ∀ y ∈ tasks, y.isErrand = false ∧ y.subject? = none) :
      Brings t w request (.later tasks w')
  | makes {object : SharedObject} (asks : request = .newObject object) :
      Brings t w request
        (.now (.ok (.shared w.objects.length)) { w with objects := w.objects ++ [object] })
  | accesses {object : Nat} {operation : SharedOperation}
      (asks : ∃ method arguments, request = .access object method arguments) :
      Brings t w request (.later [.point .sharedAccess, .touch object operation] w)
  | sends {target : ActorId} {i : Nat} {event : Event} {x : Task} {tasks : List Task}
      (asks : request.sent? = some (target, event)) (found : w.actor? target = some i)
      (posts : x.posting? = some (i, event)) (plain : ∀ y ∈ tasks, y.isErrand = false) :
      Brings t w request (.later (.forward event :: x :: tasks) w)

namespace World

variable {t : ThreadId} {w : World σ} {request : Request}

private theorem brings_refuse {w' : World σ} (retains : w.Retains t w') (r : Refusal) :
    (w'.refuse r).Brings t w request := .now retains

theorem serves_send (caller : Option Nat) (target : ActorId) (event : Event) :
    (∃ r, w.serveTasks (w.send caller target event) = w.refuse r) ∨
      ∃ i, w.actor? target = some i ∧ w.serveTasks (w.send caller target event) =
        .later [.forward event, .post i event, .point .send, .answer .null] w := by
  cases sent : w.send caller target event with
  | error r => exact .inl ⟨r, rfl⟩
  | ok tasks =>
    obtain ⟨i, _, _, found, rfl⟩ := send_eq_ok sent
    exact .inr ⟨i, found, rfl⟩

private theorem serves_sendAndExecute (caller : Option Nat) (target : ActorId) (event : Event) :
    (∃ r w', w.Retains t w' ∧ w.sendAndExecute caller target event = w'.refuse r) ∨
      ∃ i, w.actor? target = some i ∧
        w.sendAndExecute caller target event = .later [.forward event, .engage i event] w := by
  have sent := w.ofRendezvous caller target event
  generalize w.sendAndExecute caller target event = service at sent
  cases sent with
  | refused => exact .inl ⟨_, w, .refl w, rfl⟩
  | fails => exact .inl ⟨_, _, .report w _, rfl⟩
  | brings _ _ found => exact .inr ⟨_, found, rfl⟩

/-- A call that sends is refused, or the event is forwarded to monitors and then enqueued. -/
theorem serve_sends [Strategy σ] {target : ActorId} {event : Event}
    (asks : request.sent? = some (target, event)) (t : ThreadId) (caller : Option Nat)
    (speaker : Speaker) (voice : Voice) :
    (∃ r w', w.Retains t w' ∧ w.serve caller speaker voice request = w'.refuse r) ∨
      ∃ i x tasks, w.actor? target = some i ∧ x.posting? = some (i, event) ∧
        (∀ y ∈ tasks, y.isErrand = false) ∧
        w.serve caller speaker voice request = .later (.forward event :: x :: tasks) w := by
  have sends : ∀ target event,
      (∃ r w', w.Retains t w' ∧ w.serveTasks (w.send caller target event) = w'.refuse r) ∨
        ∃ i x tasks, w.actor? target = some i ∧ x.posting? = some (i, event) ∧
          (∀ y ∈ tasks, y.isErrand = false) ∧
          w.serveTasks (w.send caller target event) = .later (.forward event :: x :: tasks) w := by
    intro target event
    rcases w.serves_send caller target event with ⟨r, served⟩ | ⟨i, found, served⟩
    · exact .inl ⟨r, w, .refl w, served⟩
    · exact .inr ⟨i, .post i event, [.point .send, .answer .null], found, rfl,
        by simp [Task.isErrand], served⟩
  cases request <;> cases asks <;> simp only [serve]
  case send =>
    split
    · next r _ => exact .inl ⟨r, w, .refl w, rfl⟩
    · exact sends _ _
  case stopTimer =>
    split
    · next r _ => exact .inl ⟨r, w, .refl w, rfl⟩
    · exact sends _ _
  case sendAndExecute =>
    split
    · next r _ => exact .inl ⟨r, w, .refl w, rfl⟩
    · rcases w.serves_sendAndExecute (t := t) caller target event with
        ⟨r, w', retains, served⟩ | ⟨i, found, served⟩
      · exact .inl ⟨r, w', retains, served⟩
      · exact .inr ⟨i, .engage i event, [], found, rfl, by simp, served⟩

private theorem brings_create (caller : Option Nat) (typeTag : String) (name : Option String)
    (event : Option Event) (execute : Bool) :
    (w.create caller typeTag name event execute).Brings t w request := by
  have numbers : ∀ ids, w.Retains t { w with ids } :=
    fun _ => .of_same rfl rfl fun u => by cases u <;> rfl
  have created := w.ofCreation caller typeTag name event execute
  generalize w.create caller typeTag name event execute = service at created
  cases created with
  | refused => exact .now (.refl w)
  | overflows => exact .now (.report w _)
  | taken => exact .now (numbers _)
  | @populates d id ids =>
    unfold populate
    split
    · refine .later ((((numbers ids).trans (.openRendezvous _ caller)).trans
        (.addActor _ _ _ _ _)).trans (.blockCaller _ _)) ?_
      generalize World.explores _ = explores
      cases explores <;> simp [Task.isErrand, Task.subject?]
    · exact .later ((numbers ids).trans (.addActor _ _ _ _ _)) (by simp [Task.isErrand, Task.subject?])

private theorem brings_serveDemand (context : Option (Subject × Phase × Core)) (d : Demand) :
    (w.serveDemand context d).Brings t w request := by
  have demanded := w.ofDemand context d
  generalize w.serveDemand context d = service at demanded
  cases demanded with
  | nobody => exact .now (.refl w)
  | fails => exact .now (.report w _)
  | @kept c => exact .now (.modifyCore w c _)

/-- Errands come of requests to send and to access a shared object. -/
theorem brings_serve [Strategy σ] (t : ThreadId) (caller : Option Nat) (speaker : Speaker)
    (voice : Voice) (request : Request) :
    (w.serve caller speaker voice request).Brings t w request := by
  cases sends : request.sent? with
  | some send =>
    rcases w.serve_sends sends t caller speaker voice with
      ⟨r, w', retains, served⟩ | ⟨i, x, tasks, found, posts, plain, served⟩ <;> rw [served]
    · exact brings_refuse retains r
    · exact .sends sends found posts plain
  | none =>
  cases request <;> simp only [serve]
  case send | sendAndExecute | stopTimer => cases sends
  case journal => exact .now (.note w _ _)
  case create =>
    split
    · exact .now (.refl w)
    · exact brings_create _ _ _ _ _
  case raise | goto | push | pop => exact brings_serveDemand _ _
  case startTimer =>
    split
    · exact .now (.refl w)
    · exact .now (.refl w)
    · exact brings_create _ _ _ _ _
  case assert =>
    unfold assert
    split
    · exact .now (.refl w)
    · split
      · exact .now (.refl w)
      · exact brings_refuse (.report w _) _
  case randomBool =>
    unfold randomBool
    simp only
    split <;> exact .now (.of_controller w _)
  case randomInt =>
    unfold randomInt
    simp only
    split <;> exact .now (.of_controller w _)
  case monitor =>
    split
    · exact .now (.refl w)
    · exact .now (.refl w)
    · exact .later (.refl w) (by simp [Task.isErrand, Task.subject?])
  case registerMonitor typeTag =>
    cases begun : w.registerMonitor typeTag with
    | error r => exact .now (.refl w)
    | ok tasks =>
      obtain ⟨descriptor, id, _, _, rfl⟩ := registerMonitor_eq_ok begun
      exact .later (.refl w) (by simp [Task.isErrand, Task.subject?])
  case waitForQuiescence =>
    split
    · exact .now (.refl w)
    · exact .later (.refl w) (by simp [Task.isErrand, Task.subject?])
  case newObject object => exact .makes rfl
  case access object method arguments =>
    split
    · exact .accesses ⟨method, arguments, rfl⟩
    · exact .now (.refl w)
  case stopSleeper => exact .now (.stopSleeper w _)
  case startSleeper => exact .now (.startSleeper w _)
  case shutdown | terminate | reportBug => exact .now (.of_controller w _)
  case point | awaitHalted | monitors | monitorState =>
    exact .later (.refl w) (by simp [Task.isErrand, Task.subject?])
  all_goals exact .now (.refl w)

/-! ## What tasks lead to -/

section

variable {x : Task}

private theorem errands_nil {w' : World σ} (retains : w.Retains t w') :
    (Move.go [] w').Leads (w.Retains t) x.Tame := ⟨retains, by simp⟩

private theorem errands_withCore {c : Subject} {f : Core → Move σ}
    (h : ∀ core, (f core).Leads (w.Retains t) x.Tame) :
    (w.withCore c f).Leads (w.Retains t) x.Tame := by
  unfold withCore
  split
  · exact h _
  · exact errands_nil (.refl w)

private theorem errands_withActor {i : Nat} {f : Actor → Move σ}
    (h : ∀ a, (f a).Leads (w.Retains t) x.Tame) :
    (w.withActor i f).Leads (w.Retains t) x.Tame := by
  unfold withActor
  split
  · exact h _
  · exact errands_nil (.refl w)

private theorem errands_withMonitor {m : Nat} {f : Monitor → Move σ}
    (h : ∀ a, (f a).Leads (w.Retains t) x.Tame) :
    (w.withMonitor m f).Leads (w.Retains t) x.Tame := by
  unfold withMonitor
  split
  · exact h _
  · exact errands_nil (.refl w)

private theorem errands_follow (p : Passage) : (w.follow p []).Leads (w.Retains t) x.Tame := by
  cases p with
  | passed => exact errands_nil (.refl w)
  | waits => trivial
  | canceled => exact .refl w

private theorem errands_obey {c : Subject} {core : Core} {again : Task} {otherwise : Move σ}
    (obeys : ∀ d, ∀ y ∈ obedience c core d, x.Tame y) (repeats : x.Tame again)
    (leads : otherwise.Leads (w.Retains t) x.Tame) :
    (w.obey c core again otherwise).Leads (w.Retains t) x.Tame := by
  unfold obey
  split
  · exact leads
  · next d _ =>
    exact ⟨.modifyCore w c _,
      List.forall_mem_append.2 ⟨obeys d, List.forall_mem_singleton.2 repeats⟩⟩

private theorem errands_unwindAssertion (core : Core) (message : String) :
    (w.unwindAssertion core message).Leads (w.Retains t) x.Tame := Retains.report w _

private theorem errands_finishAction (c : Subject) (memory : Memory) (ending : Ending) :
    (w.finishAction c memory ending).Leads (w.Retains t) x.Tame := by
  have remembers : w.Retains t (w.modifyCore c fun core => { core with memory }) :=
    .modifyCore w c _
  have reported : ∀ (w₁ : World σ) text, w.Retains t w₁ → Move.Leads (w.Retains t) x.Tame
      (if w₁.isOver then w₁.unwind .canceled
        else w₁.withCore c fun core => (w₁.report (faultReport core text)).unwind .canceled) := by
    intro w₁ text retains
    split
    · exact retains
    · unfold withCore
      split
      · exact retains.trans (.report w₁ _)
      · exact errands_nil retains
  unfold finishAction
  cases ending with
  | ok => exact errands_nil remembers
  | failed failure =>
    simp only
    split
    · exact remembers
    · exact reported _ _ remembers
  | panicked message => exact reported _ _ remembers

private theorem errands_finishTest (memory : Memory) (ending : Ending) :
    (w.finishTest memory ending).Leads (w.Retains t)
      (Task.Tame (.perform .test (.finish memory ending))) := by
  have ended : w.Retains t { w with test := { w.test with memory, ending := some ending } } :=
    .of_same rfl rfl fun u => by cases u <;> rfl
  have reported : ∀ (w₁ : World σ) text, w.Retains t w₁ →
      w.Retains t (if w₁.isOver || !w₁.explores then w₁ else w₁.report (testFaultReport text)) := by
    intro w₁ text retains
    split
    · exact retains
    · exact retains.trans (.report _ _)
  refine ⟨?_, by simp [Task.Tame, Task.isErrand, Task.subject?]⟩
  cases ending with
  | ok => exact ended
  | failed failure =>
    simp only
    split
    · exact ended
    · exact reported _ _ ended
  | panicked message => exact reported _ _ ended

variable {c : Subject} (own : x.subject? = some c)

include own

theorem tame_invocation (event : Option Event) (phase : Phase) (action : Option Action) :
    ∀ y ∈ invocation c event phase action, x.Tame y := by
  cases action with
  | none => simp [invocation]
  | some a => exact List.forall_mem_singleton.2 (.of_subject own rfl rfl)

theorem tame_leaving (core : Core) (event : Option Event) :
    ∀ y ∈ leaving c core event, x.Tame y := by
  unfold leaving
  split
  · exact tame_invocation own _ _ _
  · simp

theorem tame_settlement (rendezvous : Option Nat) (handled : Bool) :
    ∀ y ∈ settlement c rendezvous handled, x.Tame y := by
  unfold settlement
  split
  · exact List.forall_mem_singleton.2 (.of_subject own rfl rfl)
  · simp

theorem tame_consumption (core : Core) (event : Event) (binding : Binding) :
    ∀ y ∈ consumption c core event binding, x.Tame y := by
  cases binding with
  | goto target transition =>
    exact List.forall_mem_append.2
      ⟨List.forall_mem_append.2 ⟨tame_leaving own _ _, tame_invocation own _ _ _⟩,
        List.forall_mem_singleton.2 (.of_subject own rfl rfl)⟩
  | push target | action a => exact List.forall_mem_singleton.2 (.of_subject own rfl rfl)

theorem tame_obedience (core : Core) (d : Demand) :
    ∀ y ∈ obedience c core d, x.Tame y := by
  cases d with
  | goto target =>
    exact List.forall_mem_append.2
      ⟨tame_leaving own _ _, List.forall_mem_singleton.2 (.of_subject own rfl rfl)⟩
  | event event | push target | pop =>
    exact List.forall_mem_singleton.2 (.of_subject own rfl rfl)

private theorem errands_pushState (core : Core) (s : StateDescriptor) (event : Option Event) :
    (w.pushState c core s event).Leads (w.Retains t) x.Tame :=
  ⟨.setStack w c _, tame_invocation own _ _ _⟩

private theorem errands_handle (event : Event) (rendezvous : Option Nat) :
    (w.handle c event rendezvous).Leads (w.Retains t) x.Tame := by
  refine errands_withCore fun core => ?_
  split
  · exact ⟨.setStack w c _, tame_settlement own _ _⟩
  · exact ⟨.setStack w c _,
      List.forall_mem_append.2 ⟨tame_consumption own _ _ _, tame_settlement own _ _⟩⟩
  · simp only
    split
    · exact ⟨(Retains.setStack w c _).trans (.halt _ c), tame_settlement own _ _⟩
    · exact (Retains.setStack w c _).trans (.report _ _)

end

/-! ### The worker of an actor -/

private theorem errands_wakeActor (w : World σ) (t : ThreadId) (i : Nat) :
    (w.wakeActor i).Leads (w.Retains t) (Task.Tame (.wake i)) := by
  refine errands_withActor fun a => ?_
  split
  · exact ⟨.refl w, by simp [Task.Tame, Task.isErrand, Task.subject?]⟩
  · simp only
    have started : ∀ mailbox, w.Retains t (w.modifyActor i fun a => { a with mailbox }) :=
      fun _ => .modifyActor w i fun _ => rfl
    split
    · exact ⟨(started _).trans (.modifyActor _ i fun _ => rfl),
        by simp [Task.Tame, Task.isErrand, Task.subject?]⟩
    · exact ⟨started _, by simp [Task.Tame, Task.isErrand, Task.subject?]⟩

private theorem errands_comeToRest {w w₁ : World σ} {t : ThreadId} (retains : w.Retains t w₁)
    (i : Nat) (a : Actor) :
    (w₁.comeToRest i a).Leads (w.Retains t) (Task.Tame (.cycle i)) :=
  ⟨(retains.trans (.replyEach w₁ _)).trans (.modifyActor _ i fun _ => rfl),
    by simp [Task.Tame, Task.isErrand, Task.subject?]⟩

private theorem errands_selectEvent (w : World σ) (t : ThreadId) (i : Nat) (a : Actor) :
    (w.selectEvent i a).Leads (w.Retains t) (Task.Tame (.cycle i)) := by
  unfold selectEvent
  split
  · exact errands_comeToRest (.refl w) i a
  · next top _ _ =>
    cases a.mailbox.dequeue (top.verdict w.policy) top.hasDefault with
    | mk selected rest =>
      obtain ⟨discarded, mailbox⟩ := rest
      have emptied : w.Retains t (w.modifyActor i fun a => { a with mailbox }) :=
        .modifyActor w i fun _ => rfl
      cases selected with
      | event envelope | default =>
        exact ⟨emptied.trans (.discard _ _), by simp [Task.Tame, Task.isErrand, Task.subject?]⟩
      | idle =>
        exact errands_comeToRest ((emptied.trans (.of_controller _ _)).trans (.discard _ _)) i a

private theorem errands_cycleActor (w : World σ) (t : ThreadId) (i : Nat) :
    (w.cycleActor i).Leads (w.Retains t) (Task.Tame (.cycle i)) := by
  unfold cycleActor
  split
  · exact .refl w
  · refine errands_withActor fun a => ?_
    split
    · exact ⟨.refl w, by simp [Task.Tame, Task.isErrand, Task.subject?]⟩
    · refine errands_obey (fun d y mem => ?_) (by simp [Task.Tame, Task.isErrand, Task.subject?])
        (errands_selectEvent w t i a)
      -- whatever is obeyed is the work of this actor
      exact ⟨(tame_obedience (x := .dropTop (.actor i)) rfl a.core d y mem).1,
        by simp [Task.subject?]⟩

/-! ### Monitors -/

private theorem errands_drainMonitor (w : World σ) (t : ThreadId) (m : Nat) :
    (w.drainMonitor m).Leads (w.Retains t) (Task.Tame (.drain m)) := by
  refine errands_withMonitor fun monitor => ?_
  split
  · exact errands_nil (.refl w)
  · exact errands_obey (tame_obedience rfl monitor.core) (.of_subject rfl rfl rfl)
      (errands_nil (.refl w))

private theorem errands_defaultsOfMonitor (w : World σ) (t : ThreadId) (m : Nat) :
    (w.defaultsOfMonitor m).Leads (w.Retains t) (Task.Tame (.defaults m)) := by
  refine errands_withMonitor fun monitor => ?_
  split
  · split
    · exact ⟨.refl w, by simp [Task.Tame, Task.isErrand, Task.subject?]⟩
    · exact errands_nil (.refl w)
  · exact errands_nil (.refl w)

private theorem errands_readMonitor (w : World σ) (t : ThreadId) (typeTag : String) :
    (w.readMonitor typeTag).Leads (w.Retains t) (Task.Tame (.readMonitor typeTag)) := by
  unfold readMonitor
  split
  · trivial
  · split
    · exact .refl w
    · refine errands_withMonitor fun monitor => ?_
      split
      · trivial
      · exact .refl w

/-! ### Sending, waiting and programs -/

private theorem errands_engage (w : World σ) (t : ThreadId) (caller : Option Nat) (i : Nat)
    (event : Event) :
    (w.engage caller i event).Leads (w.Retains t) (Task.Tame (.engage i event)) := by
  unfold engage
  refine ⟨((Retains.openRendezvous w _).trans (.blockCaller _ _)).trans (.enqueue _ _ _), ?_⟩
  generalize World.explores _ = explores
  cases explores <;> simp [Task.Tame, Task.isErrand, Task.subject?]

private theorem errands_awaitReply (w : World σ) (t : ThreadId) (r : Nat) :
    (w.awaitReply r).Leads (w.Retains t) (Task.Tame (.await r)) := by
  unfold awaitReply
  split
  · exact errands_nil (.refl w)
  · split
    · exact .refl w
    · trivial

private theorem errands_sleep (w : World σ) (t : ThreadId) (j : Nat) :
    (w.sleep j).Leads (w.Retains t) (Task.Tame (.sleep j)) := by
  unfold sleep
  split
  · exact errands_nil (.refl w)
  · split
    · exact errands_nil (.refl w)
    · split
      · trivial
      · exact ⟨.refl w, by simp [Task.Tame, Task.isErrand, Task.subject?]⟩

private theorem errands_finishFiring (w : World σ) (t : ThreadId) (j : Nat) (memory : Memory)
    (ending : Ending) :
    (w.finishFiring j ending).Leads (w.Retains t)
      (Task.Tame (.perform (.sleeper j) (.finish memory ending))) := by
  unfold finishFiring
  split
  · split
    · exact ⟨.modifySleeper w j fun _ => rfl, by simp [Task.Tame, Task.isErrand, Task.subject?]⟩
    · exact errands_nil (.refl w)
  · exact errands_nil (.refl w)

/-- Tasks that neither ask for something nor register a monitor lead to no errands, and what an
interpreter does leads to more of its own work only. But for access to a shared object and for
deliveries to monitors, nothing of it concerns objects, monitors but for their interpreters, or threads,
unless a program goes on in its own. -/
theorem retains_exec_of [Strategy σ] (w : World σ) (t u : ThreadId) {x : Task}
    (unasked : x.request? = none) (untouched : ∀ object operation, x ≠ .touch object operation)
    (settled : x.registers = false) (keeps : x.hands = false) (own : x.waits = true → u = t) :
    (w.exec t x).Leads (w.Retains u) x.Tame := by
  cases x <;> simp only [exec]
  case firstTurn | rest =>
    refine errands_withActor fun a => ?_
    split
    · exact ⟨.refl w, by simp [Task.Tame, Task.isErrand, Task.subject?]⟩
    · trivial
    · exact errands_nil (.abandon w _)
  case wake i => exact errands_wakeActor w u i
  case cycle i => exact errands_cycleActor w u i
  case retire =>
    split
    · exact errands_nil (.of_controller w _)
    · exact errands_nil (.refl w)
  case start c event => exact errands_withCore fun core => errands_pushState rfl _ _ _
  case handle c event r => exact errands_handle rfl event r
  case settle i r handled =>
    refine errands_withActor fun a => errands_nil ?_
    split
    · exact .reply w _ _
    · exact .modifyActor w i fun _ => rfl
  case invoke c action event phase =>
    exact errands_withCore fun core =>
      ⟨.refl w, List.forall_mem_singleton.2 (.of_subject rfl rfl rfl)⟩
  case switch c target event =>
    refine errands_withCore fun core => ?_
    split
    · exact errands_nil (.refl w)
    · exact ⟨.setStack w c _, List.forall_mem_singleton.2 (.of_subject rfl rfl rfl)⟩
  case enter c target event =>
    refine errands_withCore fun core => ?_
    split
    · exact errands_pushState rfl _ _ _
    · exact errands_unwindAssertion _ _
  case pop c =>
    refine errands_withCore fun core => ?_
    split
    · exact errands_unwindAssertion _ _
    · exact ⟨.refl w, List.forall_mem_append.2
        ⟨tame_leaving rfl _ _, List.forall_mem_singleton.2 (.of_subject rfl rfl rfl)⟩⟩
  case dropTop c => exact errands_withCore fun core => errands_nil (.setStack w c _)
  case forward event =>
    split
    · trivial
    · exact ⟨.refl w, by simp [Task.Tame, Task.isErrand, Task.subject?]⟩
  case notify typeTag event =>
    split
    · trivial
    · split
      · exact ⟨.refl w, by simp [Task.Tame, Task.isErrand, Task.subject?]⟩
      · exact .refl w
  case drain m => exact errands_drainMonitor w u m
  case defaults m => exact errands_defaultsOfMonitor w u m
  case deliver | release => cases keeps
  case enlist | install => cases settled
  case listMonitors =>
    split
    · trivial
    · exact .refl w
  case readMonitor typeTag => exact errands_readMonitor w u typeTag
  case post i event => exact errands_nil (.enqueue w _ _)
  case engage i event => exact errands_engage w u _ i event
  case collect | answer => exact .refl w
  case await r => exact errands_awaitReply w u r
  case point kind =>
    split
    · exact .refl w
    · split
      · exact errands_nil (.refl w)
      · split
        · exact .refl w
        · exact ⟨.refl w, by simp [Task.Tame, Task.isErrand, Task.subject?]⟩
  case pass kind =>
    split
    · exact errands_nil (.of_controller w _)
    · exact errands_nil (.refl w)
  case turn =>
    split
    · exact errands_follow _
    · exact errands_nil (.refl w)
  case touch object operation => exact absurd rfl (untouched object operation)
  case awaitHalted id =>
    split
    · exact .refl w
    · split
      · exact errands_nil (.refl w)
      · trivial
  case awaitQuiescence => exact errands_follow _
  case sleep j => exact errands_sleep w u j
  case perform speaker program =>
    cases program with
    | ask voice request next => cases unasked
    | finish memory ending =>
      cases speaker with
      | action c phase => exact errands_finishAction c memory ending
      | test => exact errands_finishTest memory ending
      | sleeper j => exact errands_finishFiring w u j memory ending
  case resume speaker outside shared next =>
    obtain rfl := own rfl
    split
    · exact ⟨.setThread (.refl w) _, by simp [Task.Tame, Task.isErrand, Task.subject?]⟩
    · exact errands_nil (.refl w)

theorem retains_exec [Strategy σ] (w : World σ) (t : ThreadId) {x : Task}
    (unasked : x.request? = none) (untouched : ∀ object operation, x ≠ .touch object operation)
    (settled : x.registers = false) (keeps : x.hands = false) :
    (w.exec t x).Leads (w.Retains t) x.Tame :=
  w.retains_exec_of t t unasked untouched settled keeps fun _ => rfl

/-- A delivery waits for the one before it. If the monitor takes the event, it has it in hand. -/
theorem exec_deliver [Strategy σ] (w : World σ) (t : ThreadId) (m : Nat) (event : Event) :
    (w.exec t (.deliver m event) = .wait ∧ w.busied[m]? = some true) ∨
      w.exec t (.deliver m event) = .go [] w ∨
      w.busied[m]? = some false ∧
        w.exec t (.deliver m event) =
          .go [.handle (.monitor m) event none, .drain m, .defaults m, .release m]
            (w.modifyMonitor m fun monitor => { monitor with busy := true }) := by
  simp only [exec, deliver, withMonitor, busied, List.getElem?_map]
  cases found : w.monitors[m]? with
  | none => exact .inr (.inl rfl)
  | some monitor =>
    cases busy : monitor.busy with
    | true => exact .inl (by simp [busy])
    | false =>
      simp only [Bool.false_eq_true, if_false, Option.map_some, busy, true_and]
      split
      · exact .inr (.inl rfl)
      · cases monitor.core.stack with
        | nil => simp
        | cons top below =>
          cases skipped : top.ignores event.type || top.defers event.type <;> simp [skipped]

/-- So it is with all tasks that neither ask for something nor register a monitor, but for which monitors
have an event in hand. -/
theorem errands_exec_of [Strategy σ] (w : World σ) (t u : ThreadId) {x : Task}
    (unasked : x.request? = none) (untouched : ∀ object operation, x ≠ .touch object operation)
    (settled : x.registers = false) (own : x.waits = true → u = t) :
    (w.exec t x).Leads (w.Upholds u) x.Tame := by
  cases hands : x.hands with
  | false =>
    exact (w.retains_exec_of t u unasked untouched settled hands own).imp fun _ => Retains.toUpholds
  | true =>
    cases x
    case release m => exact ⟨.hand w m false, by simp⟩
    case deliver m event =>
      rcases w.exec_deliver t m event with ⟨waits, _⟩ | goes | ⟨_, goes⟩
      · rw [waits]
        trivial
      · rw [goes]
        exact ⟨(Retains.refl w).toUpholds, by simp⟩
      · rw [goes]
        exact ⟨.hand w m true, by simp [Task.Tame, Task.isErrand, Task.subject?]⟩
    all_goals cases hands

theorem errands_exec [Strategy σ] (w : World σ) (t : ThreadId) {x : Task}
    (unasked : x.request? = none) (untouched : ∀ object operation, x ≠ .touch object operation)
    (settled : x.registers = false) :
    (w.exec t x).Leads (w.Upholds t) x.Tame :=
  w.errands_exec_of t t unasked untouched settled fun _ => rfl

/-- A monitor is added to the list unless that has to wait or there is one of its type. -/
theorem exec_install [Strategy σ] (w : World σ) (t : ThreadId) (d : Descriptor) (id : ActorId) :
    (w.exec t (.install d id) = .wait ∧ w.monitorsLocked = true) ∨
      (∃ r : Refusal, w.exec t (.install d id) = .answer (.error (.runtime r)) w) ∨
      (w.monitorsLocked = false ∧ w.monitor? d.typeTag = none) ∧
        w.exec t (.install d id) =
          .go [.start (.monitor w.monitors.length) none, .drain w.monitors.length,
              .defaults w.monitors.length, .enlist w.monitors.length]
            { w with monitors := w.monitors ++ [⟨.new id d, d.subscriptions, .starting, false⟩] } := by
  simp only [exec, install]
  split
  · next locked => exact .inl ⟨rfl, locked⟩
  · next unlocked =>
    split
    · exact .inr (.inl ⟨_, rfl⟩)
    · next fresh => exact .inr (.inr ⟨⟨by simpa using unlocked, fresh⟩, rfl⟩)

/-! ## Requests and answers -/

/-- What a request made in a thread leads to. -/
def service [Strategy σ] (w : World σ) (t : ThreadId) (thread : Thread) (speaker : Speaker)
    (voice : Voice) (request : Request) : Service σ :=
  w.serve (if thread.outside || voice == .outsider then none else w.operation? t) speaker voice
    request

theorem brings_service [Strategy σ] (w : World σ) (t : ThreadId) (thread : Thread)
    (speaker : Speaker) (voice : Voice) (request : Request) :
    (w.service t thread speaker voice request).Brings t w request := brings_serve t _ _ _ _

/-- A program that asks goes on with the answer, at once or when what it asked for is done. -/
theorem exec_ask [Strategy σ] {w : World σ} {t : ThreadId} {thread : Thread}
    (found : w.thread? t = some thread) (speaker : Speaker) (voice : Voice) (request : Request)
    (next : Answer → Program) :
    (∃ a w', w.service t thread speaker voice request = .now a w' ∧
      w.exec t (.perform speaker (.ask voice request next)) = .go [.perform speaker (next a)] w') ∨
    ∃ tasks w' outside, w.service t thread speaker voice request = .later tasks w' ∧
      w.exec t (.perform speaker (.ask voice request next)) =
        .go (tasks ++ [.resume speaker thread.outside request.isAccess next])
          (w'.setThread t { thread with outside }) := by
  unfold service
  simp only [exec, perform, found]
  cases served : w.serve (if thread.outside || voice == .outsider then none else w.operation? t)
      speaker voice request with
  | now a w' => exact .inl ⟨a, w', rfl, rfl⟩
  | later tasks w' =>
    refine .inr ⟨tasks, w', thread.outside || voice == .outsider, rfl, ?_⟩
    cases request <;> rfl

/-- An answer concerns neither shared objects nor other threads. -/
theorem bypasses_deliverAnswer (w : World σ) (t : ThreadId) (a : Answer) (tasks : List Task) :
    w.Bypasses t (w.deliverAnswer t a tasks) := by
  induction tasks generalizing w with
  | nil =>
    cases t with
    | driver | sleeper j => exact (Bypasses.refl w).setThread _
    | actor i => exact (Retains.abandon w i).toBypasses.setThread _
  | cons x rest ih =>
    cases x
    case resume => exact (Bypasses.refl w).setThread _
    case release m | enlist m =>
      refine Bypasses.trans ?_ (ih _)
      refine ⟨rfl, fun u _ _ found => ?_⟩
      rw [← found]
      cases u <;> rfl
    all_goals exact ih w

end World

/-! ## What a thread has to do next -/

/-- What a thread has to do after a task, and in front of it what was below. -/
inductive Task.Leaves (w : World σ) (x : Task) (rest : List Task) : List Task → Prop where
  | goes {xs : List Task} (plain : ∀ y ∈ xs, y.isErrand = false) : Leaves w x rest (xs ++ rest)
  /-- A monitor starts. -/
  | installs {m : Nat} (registers : x.registers = true) (unlocked : w.monitorsLocked = false)
      (last : m = w.monitors.length) :
      Leaves w x rest ([.start (.monitor m) none, .drain m, .defaults m, .enlist m] ++ rest)
  /-- A program gets its answer. -/
  | resumes {speaker : Speaker} {outside shared : Bool} {next : Answer → Program}
      {below : List Task} (program : Program)
      (suffix : .resume speaker outside shared next :: below <:+ rest) :
      Leaves w x rest (.perform speaker program :: below)
  | retires : Leaves w x rest [.retire .yield]
  | ends : Leaves w x rest []
  | accesses {object : Nat} {operation : SharedOperation} {speaker : Speaker} {voice : Voice}
      {request : Request} {next : Answer → Program} {outside : Bool}
      (asks : x = .perform speaker (.ask voice request next)) (access : request.isAccess = true) :
      Leaves w x rest ([.point .sharedAccess, .touch object operation,
        .resume speaker outside true next] ++ rest)
  | sends {i : Nat} {target : ActorId} {event : Event} {y : Task} {xs : List Task}
      {speaker : Speaker} {voice : Voice} {request : Request} {next : Answer → Program}
      (asks : x = .perform speaker (.ask voice request next))
      (sent : request.sent? = some (target, event)) (found : w.actor? target = some i)
      (posts : y.posting? = some (i, event)) (plain : ∀ z ∈ xs, z.isErrand = false) :
      Leaves w x rest (.forward event :: y :: xs ++ rest)

namespace World

variable [Strategy σ] {w w' : World σ} {t : ThreadId}

private theorem leaves_deliverAnswer {a : Answer} {x : Task} {rest : List Task} {v : World σ}
    {thread : Thread} (now : (v.deliverAnswer t a rest).thread? t = some thread) : x.Leaves w rest thread.tasks := by
  have unwinds := v.unwinds_deliverAnswer (S := fun _ => True) t a rest
  generalize v.deliverAnswer t a rest = w' at unwinds now
  cases unwinds with
  | resumes _ suffix =>
    rw [eq_of_thread?_setThread _ now]
    exact .resumes _ suffix
  | ends =>
    rw [eq_of_thread?_setThread _ now]
    exact .ends
  | abandons =>
    rw [eq_of_thread?_setThread _ now]
    exact .retires

/-- A task that asks for nothing. -/
private theorem leaves_of_unasked {x : Task} {rest xs : List Task} {v : World σ}
    (asks : x.request? = none) (executed : w.exec t x = .go xs v) :
    x.Leaves w rest (xs ++ rest) := by
  cases registers : x.registers with
  | true =>
    cases x
    case enlist m =>
      cases executed
      exact .goes (by simp)
    case install d id =>
      rcases w.exec_install t d id with ⟨waits, _⟩ | ⟨r, answers⟩ | ⟨⟨unlocked, _⟩, goes⟩
      · cases waits.symm.trans executed
      · cases answers.symm.trans executed
      · cases goes.symm.trans executed
        exact .installs rfl unlocked rfl
    all_goals cases registers
  | false =>
    have untouched : ∀ object operation, x ≠ .touch object operation := by
      rintro object operation rfl
      simp only [exec] at executed
      split at executed <;> cases executed
    have leads := w.errands_exec t asks untouched registers
    rw [executed] at leads
    exact .goes fun y mem => (leads.2 y mem).1

/-- A task that asks for something. -/
private theorem leaves_of_asked {speaker : Speaker} {voice : Voice} {request : Request}
    {next : Answer → Program} {rest xs : List Task} {v : World σ} {outside : Bool}
    (found : w.thread? t = some ⟨.perform speaker (.ask voice request next) :: rest, outside⟩)
    (executed : w.exec t (.perform speaker (.ask voice request next)) = .go xs v) :
    Task.Leaves w (.perform speaker (.ask voice request next)) rest (xs ++ rest) := by
  have brings := w.brings_service t
    ⟨.perform speaker (.ask voice request next) :: rest, outside⟩ speaker voice request
  rcases exec_ask found speaker voice request next with
    ⟨a, w₁, served, executed'⟩ | ⟨tasks, w₁, outside', served, executed'⟩ <;>
    rw [served] at brings <;> cases executed'.symm.trans executed
  · exact .goes (List.forall_mem_singleton.2 rfl)
  · have waits : ∀ {xs : List Task}, (∀ y ∈ xs, y.isErrand = false) →
        ∀ y ∈ xs ++ [.resume speaker outside request.isAccess next], y.isErrand = false :=
      fun plain => List.forall_mem_append.2 ⟨plain, List.forall_mem_singleton.2 rfl⟩
    cases brings with
    | later _ plain => exact .goes (waits fun y mem => (plain y mem).1)
    | @accesses object operation asks =>
      obtain ⟨method, arguments, rfl⟩ := asks
      exact .accesses rfl rfl
    | sends asks found posts plain => exact .sends rfl asks found posts (waits plain)

/-- What the thread that moves has to do next. -/
theorem leaves_of_stepThread? {x : Task} {rest : List Task} {outside : Bool}
    (found : w.thread? t = some ⟨x :: rest, outside⟩) (moved : w.stepThread? t = some w')
    {thread : Thread} (now : w'.thread? t = some thread) : x.Leaves w rest thread.tasks := by
  obtain ⟨x', rest', outside', found', steps⟩ := of_stepThread? moved
  cases found.symm.trans found'
  rcases steps with ⟨xs, w₁, old, executed, _, rfl⟩ | ⟨a, w₁, _, rfl⟩
  · rw [w₁.eq_of_thread?_setThread now]
    cases asks : x.request? with
    | none => exact leaves_of_unasked asks executed
    | some request =>
      obtain ⟨speaker, voice, next, rfl⟩ := Task.of_request? asks
      exact leaves_of_asked found executed
  · exact leaves_deliverAnswer now

end World

end SteeredActors
