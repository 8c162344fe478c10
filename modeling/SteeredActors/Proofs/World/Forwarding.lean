import Mathlib.Data.List.TakeWhile
import SteeredActors.Proofs.World.Decisions
import SteeredActors.Proofs.World.Sendings
import SteeredActors.Proofs.World.Watching

/-!
# Forwarding

A call that sends first lets monitors see the event and then enqueues it. As long as no monitor
interrupts, nobody else gets the turn in between. So all that happens is that one call after the other
hands its event to the monitors that observe it and enqueues it.
-/

set_option autoImplicit false
set_option relaxedAutoImplicit false

namespace SteeredActors

variable {σ : Type}

/-- What happens to an event that is sent. -/
inductive Occurrence where
  | handed (m : Nat) (event : Event)
  | enqueued (target : Nat) (event : Event)

/-- All that happens in the course of a call. -/
def Sending.course (s : Sending) : List Occurrence :=
  s.audience.map (.handed · s.event) ++ [.enqueued s.target s.event]

/-- A task with which something is sent. -/
def Task.isSend : Task → Bool
  | .forward _ | .post _ _ | .engage _ _ => true
  | _ => false

/-- A task that hands an event to a monitor. -/
def Task.isDelivery : Task → Bool
  | .deliver _ _ => true
  | _ => false

namespace World

/-- What the holder of the turn is about to enqueue, and for which actor. -/
def sending? (w : World σ) : Option (Nat × Event) :=
  (w.thread? (threadOf w.controller.scheduled)).bind (·.tasks.findSome? (·.posting?))

/-- What happens in the next step to an event that is sent. -/
def occurs? [Strategy σ] (w : World σ) : Option Occurrence :=
  w.step?.bind fun _ => (w.thread? (threadOf w.controller.scheduled)).bind fun thread =>
    match thread.tasks with
    | .deliver m event :: rest =>
      ((rest.dropWhile (·.isDelivery)).head?.bind (·.posting?)).map fun _ => .handed m event
    | x :: _ => x.posting?.map fun post => .enqueued post.1 post.2
    | [] => none

/-- A monitor that is handed an event interrupts. -/
def interrupted (w : World σ) : Bool := w.sending?.isSome && w.next?.any (·.interrupts)

end World

/-! ## How far a call is -/

/-- How far the holder of the turn is with a call that sends. -/
inductive Stance where
  | idle
  /-- Monitors are about to see the event. -/
  | begins (s : Sending)
  /-- These monitors are still to see the event. -/
  | hands (s : Sending) (left : List Nat)

/-- The tasks of a thread that is so far. -/
inductive Stance.Shows (w : World σ) : Stance → List Task → Prop where
  | idle {tasks : List Task} (plain : ∀ x ∈ tasks, x.isSend = false) : Shows w .idle tasks
  | begins {s : Sending} {x : Task} {rest : List Task}
      (audience : s.audience = w.observers s.event.type)
      (posts : x.posting? = some (s.target, s.event)) (plain : ∀ y ∈ rest, y.isSend = false) :
      Shows w (.begins s) (.forward s.event :: x :: rest)
  | hands {s : Sending} {left : List Nat} {xs : List Task} {x : Task} {rest : List Task}
      (watching : Watching xs) (posts : x.posting? = some (s.target, s.event))
      (plain : ∀ y ∈ rest, y.isSend = false) :
      Shows w (.hands s left) (xs ++ (left.map (.deliver · s.event) ++ x :: rest))

/-- What is about to be enqueued. -/
def Stance.sending? : Stance → Option (Nat × Event)
  | .idle => none
  | .begins s | .hands s _ => some (s.target, s.event)

private theorem posting?_of_plain {x : Task} (plain : x.isSend = false) : x.posting? = none := by
  cases x <;> first | rfl | cases plain

private theorem isSend_of_plain {x : Task} (plain : x.isErrand = false) : x.isSend = false := by
  cases x <;> first | rfl | cases plain

theorem Stance.Shows.findSome? {w : World σ} {s : Stance} {tasks : List Task}
    (shows : s.Shows w tasks) : tasks.findSome? (·.posting?) = s.sending? := by
  cases shows with
  | idle plain => exact List.findSome?_eq_none_iff.2 fun x mem => posting?_of_plain (plain x mem)
  | begins _ posts =>
    simp only [List.findSome?_cons, posts]
    rfl
  | @hands s left xs x rest watching posts =>
    have before : xs.findSome? (·.posting?) = none :=
      List.findSome?_eq_none_iff.2 watching.posting?
    have deliveries : (left.map (Task.deliver · s.event)).findSome? (·.posting?) = none := by
      simp [List.findSome?_eq_none_iff, Task.posting?]
    rw [List.findSome?_append, before, List.findSome?_append, deliveries]
    simp [posts, sending?]

/-- Whoever holds the turn is so far with a call, and nobody else sends. -/
structure World.Stands (w : World σ) (s : Stance) : Prop where
  others : ∀ t thread, t ≠ threadOf w.controller.scheduled → w.thread? t = some thread →
    ∀ x ∈ thread.tasks, x.isSend = false
  holder : ∃ thread, w.thread? (threadOf w.controller.scheduled) = some thread ∧
    s.Shows w thread.tasks

theorem World.Stands.sending? {w : World σ} {s : Stance} (stands : w.Stands s) :
    w.sending? = s.sending? := by
  obtain ⟨thread, found, shows⟩ := stands.holder
  rw [World.sending?, found, Option.bind_some, shows.findSome?]

/-- How a call gets on. -/
inductive World.Advances [Strategy σ] (w : World σ) : Stance → Stance → Prop where
  | rests (still : w.occurs? = none) (uncalled : w.call? = none) : Advances w .idle .idle
  | begins {s : Sending} (still : w.occurs? = none) (called : w.call? = some s) :
      Advances w .idle (.begins s)
  | forwards {s : Sending} (still : w.occurs? = none) (uncalled : w.call? = none) :
      Advances w (.begins s) (.hands s s.audience)
  | works {s : Sending} {left : List Nat} (still : w.occurs? = none) (uncalled : w.call? = none) :
      Advances w (.hands s left) (.hands s left)
  | hands {s : Sending} {m : Nat} {left : List Nat}
      (occurs : w.occurs? = some (.handed m s.event)) (uncalled : w.call? = none) :
      Advances w (.hands s (m :: left)) (.hands s left)
  | enqueues {s : Sending} (occurs : w.occurs? = some (.enqueued s.target s.event))
      (uncalled : w.call? = none) : Advances w (.hands s []) .idle

/-- What is about to be enqueued stays so until it is. -/
theorem World.Advances.sending? [Strategy σ] {w : World σ} {s s' : Stance}
    (advances : w.Advances s s') {target : Nat} {event : Event}
    (sends : s.sending? = some (target, event))
    (waits : w.occurs? ≠ some (.enqueued target event)) : s'.sending? = some (target, event) := by
  cases advances with
  | rests | begins => cases sends
  | forwards | works | hands => exact sends
  | enqueues occurs =>
    cases sends
    exact absurd occurs waits

theorem World.Advances.of_call? [Strategy σ] {w : World σ} {s s' : Stance} {sending : Sending}
    (advances : w.Advances s s') (called : w.call? = some sending) : s' = .begins sending := by
  cases advances with
  | begins _ calls =>
    rw [called] at calls
    cases calls
    rfl
  | rests _ uncalled | forwards _ uncalled | works _ uncalled | hands _ uncalled
    | enqueues _ uncalled =>
    rw [called] at uncalled
    cases uncalled

namespace World

variable [Strategy σ] {w w' : World σ} {t : ThreadId}

private theorem occurs?_eq (moved : w.step? = some w') {thread : Thread}
    (found : w.thread? (threadOf w.controller.scheduled) = some thread) :
    w.occurs? = match thread.tasks with
      | .deliver m event :: rest =>
        ((rest.dropWhile (·.isDelivery)).head?.bind (·.posting?)).map fun _ => .handed m event
      | x :: _ => x.posting?.map fun post => .enqueued post.1 post.2
      | [] => none := by
  simp only [occurs?, moved, found, Option.bind_some]

omit [Strategy σ] in
/-- A thread that does not send does not send next unless it asks for that. -/
theorem plain_of_leaves {x : Task} {rest tasks : List Task} (leaves : x.Leaves w rest tasks)
    (silent : ∀ request, x.request? = some request → request.sent? = none)
    (below : ∀ y ∈ rest, y.isSend = false) : ∀ y ∈ tasks, y.isSend = false := by
  cases leaves with
  | goes plain =>
    exact List.forall_mem_append.2 ⟨fun y mem => isSend_of_plain (plain y mem), below⟩
  | installs => exact List.forall_mem_append.2 ⟨by simp [Task.isSend], below⟩
  | resumes program suffix =>
    exact List.forall_mem_cons.2
      ⟨rfl, fun y mem => below y (suffix.subset (List.mem_cons_of_mem _ mem))⟩
  | retires | ends => simp [Task.isSend]
  | accesses => exact List.forall_mem_append.2 ⟨by simp [Task.isSend], below⟩
  | sends asks sent =>
    subst asks
    rw [silent _ rfl] at sent
    cases sent

/-! ## Steps -/

/-- Nothing is sent by a thread that does not send. -/
private theorem occurs?_of_plain (moved : w.step? = some w') {x : Task} {rest : List Task}
    {outside : Bool}
    (found : w.thread? (threadOf w.controller.scheduled) = some ⟨x :: rest, outside⟩)
    (plain : ∀ y ∈ x :: rest, y.isSend = false) : w.occurs? = none := by
  rw [occurs?_eq moved found]
  split
  · next same =>
    cases same
    have none : ((rest.dropWhile (·.isDelivery)).head?.bind (·.posting?)) = none := by
      refine Option.bind_eq_none_iff.2 fun y first => posting?_of_plain (plain y ?_)
      exact List.mem_cons_of_mem _ ((List.dropWhile_suffix _).subset (List.mem_of_head? first))
    rw [none]
    rfl
  · next same =>
    cases same
    rw [posting?_of_plain (plain _ List.mem_cons_self)]
    rfl
  · rfl

/-- Nothing of what monitors do themselves is sent. -/
private theorem occurs?_of_watching (moved : w.step? = some w') {x : Task} {xs after : List Task}
    (watching : Watching (x :: xs)) {outside : Bool}
    (found : w.thread? (threadOf w.controller.scheduled) = some ⟨x :: (xs ++ after), outside⟩) :
    w.occurs? = none := by
  have silent := watching.posting?
  rw [occurs?_eq moved found]
  cases watching with
  | cons watches heeded =>
    split
    · next same =>
      cases same
      -- an action waits for this delivery
      obtain ⟨y, mem, resumes⟩ := heeded rfl
      have stops : xs.dropWhile (·.isDelivery) ≠ [] := by
        intro gone
        have delivers := List.dropWhile_eq_nil_iff.1 gone y mem
        cases y <;> simp [Task.isResume, Task.isDelivery] at resumes delivers
      obtain ⟨z, zs, rest⟩ := List.exists_cons_of_ne_nil stops
      have kept : z ∈ xs := (List.dropWhile_suffix _).subset (rest ▸ List.mem_cons_self)
      rw [List.dropWhile_append, rest]
      simp [silent z (List.mem_cons_of_mem _ kept)]
    · next same =>
      cases same
      rw [silent _ List.mem_cons_self]
      rfl
    · rfl

omit [Strategy σ] in
/-- Monitors do not send. -/
private theorem call?_of_watching {x : Task} {xs rest : List Task} (watching : Watching (x :: xs))
    {outside : Bool}
    (found : w.thread? (threadOf w.controller.scheduled) = some ⟨x :: rest, outside⟩) :
    w.call? = none := by
  cases asks : x.request? with
  | none =>
    refine call?_of_silent found fun request some => ?_
    rw [asks] at some
    cases some
  | some request =>
    obtain ⟨speaker, voice, next, rfl⟩ := Task.of_request? asks
    have monitor : speaker.isMonitor = true := by
      cases watching with
      | cons watches =>
        cases watches with
        | works own =>
          cases speaker <;> cases own
          rfl
        | awaited h => cases h
    rw [call?_of_thread found]
    simp [bars, monitor]

namespace Stands

variable {s : Stance}

omit [Strategy σ] in
/-- Nobody sends at first. -/
theorem initial (strategy : σ) (maxSteps : Nat) (registry : Registry) (policy : DequeuePolicy)
    (ids : Allocator) (test : Program) :
    (World.new (.exploration strategy maxSteps) registry policy ids test).Stands .idle := by
  refine ⟨fun t thread other found => ?_, _, rfl, .idle (List.forall_mem_singleton.2 rfl)⟩
  cases t with
  | driver => exact absurd rfl other
  | actor i | sleeper j => cases found

/-- Threads that do not hold the turn. -/
private theorem bystanders (stands : w.Stands s) (orderly : w.Orderly)
    (moved : w.stepThread? (threadOf w.controller.scheduled) = some w') {u : ThreadId}
    {thread : Thread} (other : u ≠ threadOf w.controller.scheduled)
    (now : w'.thread? u = some thread) : ∀ x ∈ thread.tasks, x.isSend = false := by
  rcases orderly.bystander moved other now with ⟨old, was, same⟩ | ⟨_, k, fresh | fresh⟩
  · rw [same]
    exact stands.others u old other was
  all_goals
    rw [fresh]
    exact List.forall_mem_singleton.2 rfl

/-- Whoever holds the turn after a step in which the thread that moves stops to send. -/
private theorem idle (stands : w.Stands s) (orderly : w.Orderly)
    (moved : w.stepThread? (threadOf w.controller.scheduled) = some w')
    (there : (w'.thread? (threadOf w'.controller.scheduled)).isSome = true)
    (plain : ∀ thread, w'.thread? (threadOf w.controller.scheduled) = some thread →
      ∀ x ∈ thread.tasks, x.isSend = false) : w'.Stands .idle := by
  have all : ∀ u thread, w'.thread? u = some thread → ∀ x ∈ thread.tasks, x.isSend = false := by
    intro u thread now
    by_cases mine : u = threadOf w.controller.scheduled
    · subst mine
      exact plain thread now
    · exact stands.bystanders orderly moved mine now
  obtain ⟨thread, found⟩ := Option.isSome_iff_exists.1 there
  exact ⟨fun u thread _ now => all u thread now, thread, found, .idle (all _ _ found)⟩

/-- The thread that moves keeps the turn. -/
private theorem keeps (stands : w.Stands s) (orderly : w.Orderly)
    (moved : w.stepThread? (threadOf w.controller.scheduled) = some w')
    (there : (w'.thread? (threadOf w'.controller.scheduled)).isSome = true)
    (turn : w'.controller.scheduled = w.controller.scheduled) {s' : Stance}
    (shows : ∀ thread, w'.thread? (threadOf w.controller.scheduled) = some thread →
      s'.Shows w' thread.tasks) : w'.Stands s' := by
  obtain ⟨thread, found⟩ := Option.isSome_iff_exists.1 there
  rw [turn] at found
  refine ⟨fun u thread other now => ?_, thread, by rw [turn, found], shows thread found⟩
  rw [turn] at other
  exact stands.bystanders orderly moved other now

section

variable (stands : w.Stands s) (orderly : w.Orderly) (moved : w.step? = some w')
  (does : w.stepThread? (threadOf w.controller.scheduled) = some w')
  (there : (w'.thread? (threadOf w'.controller.scheduled)).isSome = true)
  {x : Task} {rest : List Task} {outside : Bool}
  (found : w.thread? (threadOf w.controller.scheduled) = some ⟨x :: rest, outside⟩)

include stands orderly moved does there found

/-- The holder of the turn does not send. -/
private theorem step_rests (plain : ∀ y ∈ x :: rest, y.isSend = false)
    (silent : ∀ request, x.request? = some request → request.sent? = none) :
    ∃ s', w'.Stands s' ∧ w.Advances .idle s' := by
  refine ⟨.idle, stands.idle orderly does there fun thread now => ?_,
    .rests (occurs?_of_plain moved found plain) (call?_of_silent found silent)⟩
  exact plain_of_leaves (leaves_of_stepThread? found does now) silent
    (List.forall_mem_cons.1 plain).2

/-- The holder of the turn asks to send something. -/
private theorem step_calls (sound : Sound w) (poised : Poised w) (running : w.isOver = false)
    (same : w'.controller.scheduled = w.controller.scheduled)
    (plain : ∀ y ∈ x :: rest, y.isSend = false) {request : Request}
    (asks : x.request? = some request) {sent : ActorId × Event}
    (sends : request.sent? = some sent) :
    ∃ s', w'.Stands s' ∧ w.Advances .idle s' := by
  have below := (List.forall_mem_cons.1 plain).2
  obtain ⟨speaker, voice, next, rfl⟩ := Task.of_request? asks
  obtain ⟨v, thread, moved', standing, now, served⟩ :=
    served_of_call sound poised orderly running found sends
  obtain rfl := Option.some.inj (moved'.symm.trans moved)
  have shown : ∀ s', s'.Shows v thread.tasks → v.Stands s' := fun s' shows =>
    stands.keeps orderly does there same fun thread' now' =>
      Option.some.inj (now.symm.trans now') ▸ shows
  have still := occurs?_of_plain moved found plain
  generalize thread.tasks = tasks at served shown
  cases served with
  | refused r uncalled =>
    exact ⟨.idle, shown _ (.idle (List.forall_mem_cons.2 ⟨rfl, below⟩)), .rests still uncalled⟩
  | @sends s y ys called posts plain audience =>
    refine ⟨.begins s, shown _ (.begins ?_ posts ?_), .begins still called⟩
    · rw [audience, observers_congr standing]
    · exact List.forall_mem_append.2 ⟨fun y mem => isSend_of_plain (plain y mem), below⟩

private theorem step_begins (same : w'.controller.scheduled = w.controller.scheduled) {s' : Sending}
    (shows : (Stance.begins s').Shows w (x :: rest)) :
    ∃ s₁, w'.Stands s₁ ∧ w.Advances (.begins s') s₁ := by
  cases shows with
  | @begins _ y rest audience posts plain =>
    refine ⟨_, stands.keeps orderly does there same fun thread now => ?_, .forwards ?_ ?_⟩
    · obtain ⟨_, _, _, found', steps⟩ := of_stepThread? does
      cases found.symm.trans found'
      rcases steps with ⟨ys, w₁, old, executed, _, rfl⟩ | ⟨a, w₁, executed, _⟩ <;>
        simp only [exec] at executed <;> split at executed <;> cases executed
      rw [eq_of_thread?_setThread _ now, ← audience]
      exact .hands .nil posts plain
    · rw [occurs?_eq moved found]
      rfl
    · exact call?_of_silent found fun request asks => by cases asks

private theorem step_enqueues {s' : Sending} (posts : x.posting? = some (s'.target, s'.event))
    (plain : ∀ y ∈ rest, y.isSend = false) :
    ∃ s₁, w'.Stands s₁ ∧ w.Advances (.hands s' []) s₁ := by
  have silent : ∀ request, x.request? = some request → request.sent? = none := by
    intro request asks
    cases x <;> first | cases asks | cases posts
  refine ⟨.idle, stands.idle orderly does there fun thread now => ?_,
    .enqueues ?_ (call?_of_silent found silent)⟩
  · exact plain_of_leaves (leaves_of_stepThread? found does now) silent plain
  · rw [occurs?_eq moved found]
    cases x <;> cases posts <;> rfl

end

section

variable (stands : w.Stands s) (orderly : w.Orderly) (moved : w.step? = some w')
  (does : w.stepThread? (threadOf w.controller.scheduled) = some w')
  (there : (w'.thread? (threadOf w'.controller.scheduled)).isSome = true)
  {s' : Sending} {left : List Nat} {x : Task} {rest : List Task} {outside : Bool}
  (posts : x.posting? = some (s'.target, s'.event)) (plain : ∀ y ∈ rest, y.isSend = false)
  (same : w'.controller.scheduled = w.controller.scheduled)

include stands orderly moved does there posts plain same

private theorem step_hands {m : Nat}
    (found : w.thread? (threadOf w.controller.scheduled) =
      some ⟨.deliver m s'.event :: (left.map (.deliver · s'.event) ++ x :: rest), outside⟩) :
    ∃ s₁, w'.Stands s₁ ∧ w.Advances (.hands s' (m :: left)) s₁ := by
  refine ⟨_, stands.keeps orderly does there same fun thread now => ?_, .hands ?_
    (call?_of_silent found fun request asks => by cases asks)⟩
  · obtain ⟨_, _, _, found', steps⟩ := of_stepThread? does
    cases found.symm.trans found'
    rcases delivery_works w (threadOf w.controller.scheduled) m s'.event with
      waits | ⟨ys, v, goes, works⟩
    all_goals rcases steps with ⟨zs, w₁, old, executed, _, rfl⟩ | ⟨a, w₁, executed, _⟩
    · cases waits.symm.trans executed
    · cases waits.symm.trans executed
    · cases goes.symm.trans executed
      rw [eq_of_thread?_setThread _ now]
      have watching : Watching (ys ++ []) := Watching.nil.work works
      rw [List.append_nil] at watching
      exact .hands watching posts plain
    · cases goes.symm.trans executed
  · have delivers : x.isDelivery = false := by cases x <;> first | rfl | cases posts
    have after : (left.map (Task.deliver · s'.event) ++ x :: rest).dropWhile (·.isDelivery) =
        x :: rest := by
      rw [List.dropWhile_append_of_pos (by simp [Task.isDelivery]),
        List.dropWhile_cons_of_neg (by simp [delivers])]
    rw [occurs?_eq moved found]
    simp only [after, List.head?_cons, Option.bind_some, posts, Option.map_some]

private theorem step_works {xs : List Task} {y : Task} (watching : Watching (y :: xs))
    (explores : w.explores = true) (running' : w'.isOver = false) (discreet : y.interrupts = false)
    (found : w.thread? (threadOf w.controller.scheduled) =
      some ⟨y :: (xs ++ (left.map (.deliver · s'.event) ++ x :: rest)), outside⟩) :
    ∃ s₁, w'.Stands s₁ ∧ w.Advances (.hands s' left) s₁ := by
  refine ⟨_, stands.keeps orderly does there same fun thread now => ?_,
    .works (occurs?_of_watching moved watching found) (call?_of_watching watching found)⟩
  obtain ⟨ys, tasks, watching'⟩ :=
    watching_step orderly explores watching discreet found does running' now
  rw [tasks]
  exact .hands watching' posts plain

end

/-- How the holder of the turn gets on with a call, as long as the run goes on and no monitor
interrupts. From the call on until the event is enqueued the turn stays where it is. -/
theorem step (stands : w.Stands s) (orderly : w.Orderly) (sound : Sound w) (poised : Poised w)
    (running : w.isOver = false) (running' : w'.isOver = false) (steady : w.interrupted = false)
    (moved : w.step? = some w')
    (transition : Transition (threadOf w.controller.scheduled) w w')
    (there : (w'.thread? (threadOf w'.controller.scheduled)).isSome = true) :
    (∃ s', w'.Stands s' ∧ w.Advances s s') ∧
      (s ≠ .idle ∨ w.call?.isSome = true →
        w'.controller.scheduled = w.controller.scheduled) := by
  have does := moved
  rw [step?_of_running sound.explores running] at does
  -- the turn goes only where the controller is asked
  have turn : ∀ {x rest outside},
      w.thread? (threadOf w.controller.scheduled) = some ⟨x :: rest, outside⟩ →
      (∀ kind, x ≠ .pass kind ∧ x ≠ .retire kind) →
      w'.controller.scheduled = w.controller.scheduled := by
    intro x rest outside found other
    rcases transition.scheduled with same | ⟨y, below, found', kind, asks⟩
    · exact same
    · cases found.symm.trans found'
      rcases asks with rfl | rfl
      · exact absurd rfl (other kind).1
      · exact absurd rfl (other kind).2
  obtain ⟨⟨tasks, outside⟩, found, shows⟩ := stands.holder
  cases s with
  | idle =>
    obtain ⟨x, rest, _, found', _⟩ := of_stepThread? does
    cases found.symm.trans found'
    cases shows with
    | idle plain =>
      by_cases silent : ∀ request, x.request? = some request → request.sent? = none
      · refine ⟨stands.step_rests orderly moved does there found plain silent, fun begins => ?_⟩
        simp [call?_of_silent found silent] at begins
      · simp only [not_forall] at silent
        obtain ⟨request, asks, sends⟩ := silent
        obtain ⟨sent, sends⟩ := Option.ne_none_iff_exists'.1 sends
        have same := turn found fun kind => by constructor <;> rintro rfl <;> cases asks
        exact ⟨stands.step_calls orderly moved does there found sound poised running same plain asks
          sends, fun _ => same⟩
  | begins s =>
    have same : w'.controller.scheduled = w.controller.scheduled := by
      cases shows with
      | begins => exact turn found (by simp)
    cases tasks with
    | nil => cases shows
    | cons => exact ⟨stands.step_begins orderly moved does there found same shows, fun _ => same⟩
  | hands s left =>
    cases shows with
    | @hands _ _ xs x rest watching posts plain =>
      cases watching with
      | nil =>
        cases left with
        | nil =>
          have same := turn found fun kind => by constructor <;> rintro rfl <;> cases posts
          exact ⟨stands.step_enqueues orderly moved does there found posts plain, fun _ => same⟩
        | cons m left =>
          have same := turn found (by simp)
          exact ⟨stands.step_hands orderly moved does there posts plain same found, fun _ => same⟩
      | @cons y xs watches heeded below =>
        have same : w'.controller.scheduled = w.controller.scheduled := by
          refine turn found fun kind => ?_
          constructor <;> rintro rfl <;> cases watches <;> contradiction
        have discreet : y.interrupts = false := by
          have next := next?_of_thread found
          rw [interrupted, stands.sending?, next] at steady
          simpa [Stance.sending?] using steady
        exact ⟨stands.step_works orderly moved does there posts plain same (.cons watches heeded below)
          sound.explores running' discreet found, fun _ => same⟩

end Stands

end World

end SteeredActors
