import SteeredActors.Proofs.World.Forwarding

/-!
# What monitors see

As long as no monitor interrupts, an iteration consists of calls one after the other as far as sending
is concerned: a call that is let through hands its event to the monitors that observe it and enqueues
the event, and nobody else gets the turn before that. So each monitor sees the events of its types
that are sent once it is registered, each once and in the order in which they are enqueued.
-/

set_option autoImplicit false
set_option relaxedAutoImplicit false

namespace SteeredActors

variable {σ : Type}

/-- The event that a monitor is handed. -/
def Occurrence.seen? (m : Nat) : Occurrence → Option Event
  | .handed k event => if k = m then some event else none
  | .enqueued _ _ => none

/-- What is enqueued, and for which actor. -/
def Occurrence.enqueued? : Occurrence → Option (Nat × Event)
  | .handed _ _ => none
  | .enqueued target event => some (target, event)

/-- The event that a monitor is to see. -/
def Sending.seen? (m : Nat) (s : Sending) : Option Event :=
  if m ∈ s.audience then some s.event else none

namespace Sending

theorem enqueued_courses (calls : List Sending) :
    (calls.flatMap course).filterMap (·.enqueued?) = calls.map fun s => (s.target, s.event) := by
  induction calls with
  | nil => rfl
  | cons s calls ih =>
    have handed : (s.audience.map (Occurrence.handed · s.event)).filterMap (·.enqueued?) = [] := by
      simp [Occurrence.enqueued?]
    rw [List.flatMap_cons, List.filterMap_append, ih, course, List.filterMap_append, handed]
    rfl

private theorem seen_course {s : Sending} (once : s.audience.Nodup) (m : Nat) :
    s.course.filterMap (·.seen? m) = (s.seen? m).toList := by
  have handed : ∀ audience : List Nat, audience.Nodup →
      (audience.map (Occurrence.handed · s.event)).filterMap (·.seen? m) =
        if m ∈ audience then [s.event] else [] := by
    intro audience once
    induction audience with
    | nil => rfl
    | cons k ks ih =>
      obtain ⟨fresh, once⟩ := List.nodup_cons.1 once
      rw [List.map_cons, List.filterMap_cons, ih once]
      by_cases same : k = m
      · subst same
        simp [Occurrence.seen?, fresh]
      · simp [Occurrence.seen?, same, Ne.symm same]
  rw [course, List.filterMap_append, handed _ once, seen?]
  split <;> rfl

theorem seen_courses {calls : List Sending} (once : ∀ s ∈ calls, s.audience.Nodup) (m : Nat) :
    (calls.flatMap course).filterMap (·.seen? m) = calls.filterMap (·.seen? m) := by
  induction calls with
  | nil => rfl
  | cons s calls ih =>
    obtain ⟨first, later⟩ := List.forall_mem_cons.1 once
    rw [List.flatMap_cons, List.filterMap_append, ih later, seen_course first, List.filterMap_cons]
    cases s.seen? m <;> rfl

end Sending

/-- How far the history is with the calls that were let through. -/
inductive Stance.Recounts (history : List Occurrence) (calls : List Sending) : Stance → Prop where
  | idle (complete : history = calls.flatMap Sending.course) : Recounts history calls .idle
  | begins {s : Sending} {past : List Sending} (last : calls = past ++ [s])
      (before : history = past.flatMap Sending.course) : Recounts history calls (.begins s)
  | hands {s : Sending} {past : List Sending} {done left : List Nat} (last : calls = past ++ [s])
      (audience : s.audience = done ++ left)
      (before : history = past.flatMap Sending.course ++ done.map (.handed · s.event)) :
      Recounts history calls (.hands s left)

namespace Stance.Recounts

variable {history : List Occurrence} {calls : List Sending}

private theorem step [Strategy σ] {w : World σ} {stance stance' : Stance}
    (recounts : stance.Recounts history calls) (advances : w.Advances stance stance') :
    stance'.Recounts (history ++ w.occurs?.toList) (calls ++ w.call?.toList) := by
  cases advances with
  | rests still uncalled | works still uncalled =>
    rw [still, uncalled, Option.toList_none, Option.toList_none, List.append_nil, List.append_nil]
    exact recounts
  | begins still called =>
    cases recounts with
    | idle complete =>
      rw [still, called, Option.toList_none, List.append_nil]
      exact .begins rfl complete
  | @forwards s still uncalled =>
    cases recounts with
    | begins last before =>
      rw [still, uncalled, Option.toList_none, Option.toList_none, List.append_nil, List.append_nil]
      have untouched : s.audience = [] ++ s.audience := rfl
      exact .hands last untouched (by simp [before])
  | @hands s m left occurs uncalled =>
    cases recounts with
    | @hands _ past done _ last audience before =>
      rw [occurs, uncalled, Option.toList_some, Option.toList_none, List.append_nil]
      have further : s.audience = (done ++ [m]) ++ left := by simp [audience]
      exact .hands last further (by simp [before])
  | enqueues occurs uncalled =>
    cases recounts with
    | hands last audience before =>
      rw [List.append_nil] at audience
      rw [occurs, uncalled, Option.toList_some, Option.toList_none, List.append_nil]
      exact .idle (by simp [before, last, ← audience, Sending.course])

/-- All calls but the last one have taken their course, and the last one has begun to. -/
theorem course {stance : Stance} (recounts : stance.Recounts history calls) :
    stance.sending? = none ∧ history = calls.flatMap Sending.course ∨
      ∃ past s current rest, calls = past ++ [s] ∧ stance.sending? = some (s.target, s.event) ∧
        history = past.flatMap Sending.course ++ current ∧ s.course = current ++ rest ∧
        rest ≠ [] := by
  cases recounts with
  | idle complete => exact .inl ⟨rfl, complete⟩
  | @begins s past last before =>
    exact .inr ⟨past, s, [], s.course, last, rfl, by rw [before, List.append_nil], rfl,
      by simp [Sending.course]⟩
  | @hands s past done left last audience before =>
    refine .inr ⟨past, s, done.map (.handed · s.event),
      left.map (.handed · s.event) ++ [.enqueued s.target s.event], last, rfl, before, ?_, by simp⟩
    rw [Sending.course, audience, List.map_append, List.append_assoc]

end Stance.Recounts

namespace Experiment

variable [Strategy σ]

/-- What happened to events that were sent, in the first steps of an iteration. -/
def occurrences (e : Experiment) (ids : Allocator) (s : σ) (n : Nat) : List Occurrence :=
  (List.range n).filterMap fun k => (e.iterate k ids s).occurs?

/-- The calls that send and were let through, in the first steps of an iteration. -/
def sendings (e : Experiment) (ids : Allocator) (s : σ) (n : Nat) : List Sending :=
  (List.range n).filterMap fun k => (e.iterate k ids s).call?

variable (e : Experiment) (ids : Allocator) (s : σ)

theorem occurrences_succ (n : Nat) :
    e.occurrences ids s (n + 1) =
      e.occurrences ids s n ++ (e.iterate n ids s).occurs?.toList :=
  filterMap_range_succ _ n

theorem sendings_succ (n : Nat) :
    e.sendings ids s (n + 1) = e.sendings ids s n ++ (e.iterate n ids s).call?.toList :=
  filterMap_range_succ _ n

variable {e ids s}

section

variable (accepted : e.registry.Accepted)
  (steady : ∀ n, (e.iterate n ids s).isOver = false → (e.iterate n ids s).interrupted = false)
  {n : Nat}

include accepted

/-- A step of the holder of the turn. -/
private theorem stands_succ
    (steady : (e.iterate n ids s).interrupted = false)
    (running : (e.iterate (n + 1) ids s).isOver = false) {stance : Stance}
    (stands : (e.iterate n ids s).Stands stance) :
    (∃ stance', (e.iterate (n + 1) ids s).Stands stance' ∧
      (e.iterate n ids s).Advances stance stance' ∧
      (stance ≠ .idle ∨ (e.iterate n ids s).call?.isSome = true →
        (e.iterate (n + 1) ids s).controller.scheduled =
          (e.iterate n ids s).controller.scheduled)) ∨
      (e.iterate n ids s).step? = none := by
  cases moved : (e.iterate n ids s).step? with
  | none => exact .inr rfl
  | some w =>
    have before := e.running_of_succ ids s running
    have transition := e.transition_of_step? running moved
    obtain ⟨thread, there, _⟩ := (e.sound running).holder (e.poised running)
    have goes : (e.iterate n ids s).step? = some (e.iterate (n + 1) ids s) := by
      rw [e.iterate_succ, moved, Option.getD_some]
    obtain ⟨⟨stance', stands', advances⟩, turn⟩ :=
      stands.step ((e.reached n ids s).orderly accepted) (e.sound before) (e.poised before) before
        running steady goes transition (by rw [there]; rfl)
    exact .inl ⟨stance', stands', advances, turn⟩

include steady

/-- The history so far, as long as no monitor interrupts. -/
private theorem recounts (running : (e.iterate n ids s).isOver = false) :
    ∃ stance, (e.iterate n ids s).Stands stance ∧
      stance.Recounts (e.occurrences ids s n) (e.sendings ids s n) := by
  induction n with
  | zero => exact ⟨.idle, .initial _ _ _ _ _ _, .idle rfl⟩
  | succ n ih =>
    have before := e.running_of_succ ids s running
    obtain ⟨stance, stands, recounts⟩ := ih before
    rw [e.occurrences_succ, e.sendings_succ]
    rcases stands_succ accepted (steady n before) running stands with
      ⟨stance', stands', advances, _⟩ | stuck
    · exact ⟨stance', stands', recounts.step advances⟩
    · have still : (e.iterate n ids s).occurs? = none := by
        rw [World.occurs?, stuck, Option.bind_none]
      have uncalled := World.call?_of_stuck (e.sound before) (e.poised before)
        ((e.reached n ids s).orderly accepted) before stuck
      rw [e.iterate_succ, stuck, Option.getD_none, still, uncalled, Option.toList_none,
        Option.toList_none, List.append_nil, List.append_nil]
      exact ⟨stance, stands, recounts⟩

end

/-- What holds of monitors and of calls that send in an iteration. -/
structure Monitored (e : Experiment) (ids : Allocator) (s : σ) : Prop where
  /-- A call that sends is refused at once, or its event is forwarded next. -/
  calls : ∀ n, (e.iterate n ids s).isOver = false →
    ∀ speaker voice request next below outside sent,
      (e.iterate n ids s).thread? (World.threadOf (e.iterate n ids s).controller.scheduled) =
        some ⟨.perform speaker (.ask voice request next) :: below, outside⟩ →
      request.sent? = some sent → ∃ thread,
        (e.iterate (n + 1) ids s).thread?
          (World.threadOf (e.iterate n ids s).controller.scheduled) = some thread ∧
        (e.iterate n ids s).Served speaker next below thread.tasks
  /-- One call after the other hands its event to the monitors that observe it and then enqueues
  the event. -/
  courses : ∀ n, (e.iterate n ids s).isOver = false →
    (e.iterate n ids s).sending? = none ∧
        e.occurrences ids s n = (e.sendings ids s n).flatMap Sending.course ∨
      ∃ past sending current rest, e.sendings ids s n = past ++ [sending] ∧
        (e.iterate n ids s).sending? = some (sending.target, sending.event) ∧
        e.occurrences ids s n = past.flatMap Sending.course ++ current ∧
        sending.course = current ++ rest ∧ rest ≠ []
  /-- A monitor is registered for good. It sees just the events of its types that are sent from then
  on, each once, in the order of the calls. -/
  sees : ∀ k n m observed, k ≤ n → (e.iterate n ids s).isOver = false →
    (e.iterate n ids s).sending? = none →
    (∀ j < k, ∀ observed, (e.iterate j ids s).standing[m]? ≠ some (.listed, observed)) →
    (e.iterate k ids s).standing[m]? = some (.listed, observed) →
    ∃ calls, e.sendings ids s n = e.sendings ids s k ++ calls ∧
      (e.occurrences ids s n).filterMap (·.seen? m) =
        (calls.filter (·.event.type ∈ observed)).map (·.event)
  /-- Events are enqueued in the order of the calls. -/
  enqueues : ∀ n, (e.iterate n ids s).isOver = false → (e.iterate n ids s).sending? = none →
    (e.occurrences ids s n).filterMap (·.enqueued?) =
      (e.sendings ids s n).map fun s => (s.target, s.event)
  /-- From the call on until its event is enqueued nobody else gets the turn. -/
  turn : ∀ k n, k < n → (e.iterate n ids s).isOver = false → ∀ sending,
    (e.iterate k ids s).call? = some sending →
    (∀ j, k < j → j < n →
      (e.iterate j ids s).occurs? ≠ some (.enqueued sending.target sending.event)) →
    (e.iterate n ids s).controller.scheduled = (e.iterate k ids s).controller.scheduled ∧
      (e.iterate n ids s).sending? = some (sending.target, sending.event)

section

variable (accepted : e.registry.Accepted)
  (steady : ∀ n, (e.iterate n ids s).isOver = false → (e.iterate n ids s).interrupted = false)

include accepted steady

private theorem turn_kept {k n : Nat} (lt : k + 1 ≤ n)
    (running : (e.iterate n ids s).isOver = false) {sending : Sending}
    (called : (e.iterate k ids s).call? = some sending)
    (waits : ∀ j, k < j → j < n →
      (e.iterate j ids s).occurs? ≠ some (.enqueued sending.target sending.event)) :
    (e.iterate n ids s).controller.scheduled = (e.iterate k ids s).controller.scheduled ∧
      (e.iterate n ids s).sending? = some (sending.target, sending.event) := by
  induction lt with
  | refl =>
    have before := e.running_of_succ ids s running
    obtain ⟨stance, stands, _⟩ := recounts accepted steady before
    rcases stands_succ accepted (steady k before) running stands with
      ⟨stance', stands', advances, turn⟩ | stuck
    · obtain rfl := advances.of_call? called
      exact ⟨turn (.inr (by rw [called]; rfl)), stands'.sending?⟩
    · rw [World.call?_of_stuck (e.sound before) (e.poised before)
        ((e.reached k ids s).orderly accepted) before stuck] at called
      cases called
  | @step n le ih =>
    have before := e.running_of_succ ids s running
    obtain ⟨same, sends⟩ := ih before fun j after lt => waits j after (Nat.lt_succ_of_lt lt)
    obtain ⟨stance, stands, _⟩ := recounts accepted steady before
    rw [stands.sending?] at sends
    rcases stands_succ accepted (steady n before) running stands with
      ⟨stance', stands', advances, turn⟩ | stuck
    · have busy : stance ≠ .idle := by
        rintro rfl
        cases sends
      refine ⟨(turn (.inl busy)).trans same, ?_⟩
      rw [stands'.sending?]
      exact advances.sending? sends (waits n le (Nat.lt_succ_self n))
    · rw [e.iterate_succ, stuck, Option.getD_none, stands.sending?]
      exact ⟨same, sends⟩

/-- While nothing is being sent all calls have taken their course. -/
private theorem complete {n : Nat} (running : (e.iterate n ids s).isOver = false)
    (quiet : (e.iterate n ids s).sending? = none) :
    e.occurrences ids s n = (e.sendings ids s n).flatMap Sending.course := by
  obtain ⟨stance, stands, recounts⟩ := recounts accepted steady running
  rw [stands.sending?] at quiet
  rcases recounts.course with ⟨_, history⟩ | ⟨_, _, _, _, _, sends, _⟩
  · exact history
  · rw [quiet] at sends
    cases sends

/-- What a monitor saw in all. -/
private theorem seen {k n : Nat} (le : k ≤ n) (running : (e.iterate n ids s).isOver = false)
    (quiet : (e.iterate n ids s).sending? = none) {m : Nat} {observed : List EventType}
    (unlisted : ∀ j < k, ∀ observed, (e.iterate j ids s).standing[m]? ≠ some (.listed, observed))
    (lists : (e.iterate k ids s).standing[m]? = some (.listed, observed)) :
    ∃ calls, e.sendings ids s n = e.sendings ids s k ++ calls ∧
      (e.occurrences ids s n).filterMap (·.seen? m) =
        (calls.filter (·.event.type ∈ observed)).map (·.event) := by
  have history := complete accepted steady running quiet
  obtain ⟨d, rfl⟩ := Nat.exists_eq_add_of_le le
  have split : e.sendings ids s (k + d) = e.sendings ids s k ++
      (List.range d).filterMap fun j => (e.iterate (k + j) ids s).call? := by
    rw [sendings, List.range_add, List.filterMap_append, List.filterMap_map]
    rfl
  have once : ∀ sending ∈ e.sendings ids s (k + d), sending.audience.Nodup := by
    intro sending mem
    obtain ⟨j, _, called⟩ := List.mem_filterMap.1 mem
    rw [World.audience_of_call? called]
    exact World.nodup_observers _ _
  refine ⟨_, split, ?_⟩
  rw [history, Sending.seen_courses once, split, List.filterMap_append,
    List.filterMap_eq_nil_iff.2, List.nil_append]
  · rw [← List.filterMap_eq_map, List.filterMap_filter]
    refine List.filterMap_congr fun sending mem => ?_
    obtain ⟨j, _, called⟩ := List.mem_filterMap.1 mem
    have sees := e.mem_observers_of_listed accepted ids s (Nat.le_add_right k j) lists
      sending.event.type
    simp only [Sending.seen?, World.audience_of_call? called, sees, decide_eq_true_eq,
      Function.comp_apply]
  · intro sending mem
    obtain ⟨j, lt, called⟩ := List.mem_filterMap.1 mem
    rw [Sending.seen?, if_neg]
    rw [World.audience_of_call? called, World.mem_observers]
    rintro ⟨types, lists, _⟩
    exact unlisted j (List.mem_range.1 lt) types lists

end

/-- Monitors see what is sent, provided that none comes to a scheduling point or pretends that the run
is over while it is handed an event. -/
theorem monitored (e : Experiment) (accepted : e.registry.Accepted) (ids : Allocator) (s : σ)
    (steady : ∀ n, (e.iterate n ids s).isOver = false → (e.iterate n ids s).interrupted = false) :
    e.Monitored ids s where
  calls n running speaker voice request next below outside sent found sends := by
    obtain ⟨w, thread, moved, _, now, served⟩ := World.served_of_call (e.sound running)
      (e.poised running) ((e.reached n ids s).orderly accepted) running found sends
    refine ⟨thread, ?_, served⟩
    rw [e.iterate_succ, moved, Option.getD_some]
    exact now
  courses n running := by
    obtain ⟨stance, stands, recounts⟩ := recounts accepted steady running
    rw [stands.sending?]
    exact recounts.course
  sees k n m observed le running quiet unlisted lists :=
    seen accepted steady le running quiet unlisted lists
  enqueues n running quiet := by
    rw [complete accepted steady running quiet, Sending.enqueued_courses]
  turn k n lt running sending called waits := turn_kept accepted steady lt running called waits

private def answers : Action := fun o =>
  .ask .own (.send o.self (.ofType ⟨"Pong"⟩)) fun _ => .finish o.memory .ok

private def relays : StateDescriptor :=
  ⟨"Init", true, none, none, none, [(⟨"Ping"⟩, .action answers), (⟨"Pong"⟩, .ignore)]⟩

/-- A machine that answers an event by another one. -/
private def relay : Declaration :=
  { typeTag := "Relay", kind := .machine, inherited := [], observes := [], derived := [relays] }

private def listens : StateDescriptor :=
  ⟨"Init", true, none, none, none, [(⟨"Ping"⟩, .ignore), (⟨"Pong"⟩, .ignore)]⟩

/-- A monitor that observes both. -/
private def listener : Declaration :=
  { typeTag := "Listener", kind := .monitor, inherited := [], observes := [⟨"Ping"⟩, ⟨"Pong"⟩],
    derived := [listens] }

private def relayDescriptor : Descriptor := ⟨"Relay", .machine, [relays], relays, []⟩

private def listenerDescriptor : Descriptor :=
  ⟨"Listener", .monitor, [listens], listens, [⟨"Ping"⟩, ⟨"Pong"⟩]⟩

/-- The test registers the monitor and sends something to the machine. -/
def relaying : Experiment where
  settings := .exploration
  registry := ⟨Timer.descriptors ++ [relayDescriptor, listenerDescriptor]⟩
  test :=
    .ask .own (.registerMonitor "Listener") fun _ =>
      .ask .own (.create "Relay" none none false) fun
        | .ok (.actor id) => .ask .own (.send id (.ofType ⟨"Ping"⟩)) fun _ => .finish {} .ok
        | _ => .finish {} .ok

private def turnsOfRelaying : ScriptedStrategy := .ofAnswers [.ok 0, .ok 1, .ok 1, .ok 0]

private theorem accepted_relaying : relaying.registry.Accepted := by
  have built : relay.build = .ok relayDescriptor :=
    Declaration.build_of_plain (by decide) rfl rfl rfl rfl rfl
  have built' : listener.build = .ok listenerDescriptor :=
    Declaration.build_of_plain (by decide) rfl rfl rfl rfl rfl
  exact ⟨[relayDescriptor, listenerDescriptor], by simpa using ⟨⟨relay, built⟩, listener, built'⟩,
    rfl⟩

private theorem stuck_relaying : (relaying.iterate 40 ⟨0, 0⟩ turnsOfRelaying).step? = none := by
  rfl

private theorem steady_relaying (n : Nat) :
    (relaying.iterate n ⟨0, 0⟩ turnsOfRelaying).interrupted = false := by
  have early : ∀ n < 41, (relaying.iterate n ⟨0, 0⟩ turnsOfRelaying).interrupted = false := by
    have all : ((List.range 41).all fun n =>
        !(relaying.iterate n ⟨0, 0⟩ turnsOfRelaying).interrupted) = true := by
      rfl
    intro n lt
    simpa using List.all_eq_true.1 all n (List.mem_range.2 lt)
  by_cases lt : n < 41
  · exact early n lt
  · rw [relaying.iterate_of_stuck stuck_relaying (by omega)]
    exact early 40 (by decide)

/-- The monitor sees what the test sends and what the machine sends, before the run is over. -/
theorem monitored_relaying :
    relaying.Monitored ⟨0, 0⟩ turnsOfRelaying ∧
      (relaying.iterate 38 ⟨0, 0⟩ turnsOfRelaying).isOver = false ∧
      (relaying.occurrences ⟨0, 0⟩ turnsOfRelaying 38).filterMap (·.seen? 0) =
        [.ofType ⟨"Ping"⟩, .ofType ⟨"Pong"⟩] :=
  ⟨relaying.monitored accepted_relaying ⟨0, 0⟩ turnsOfRelaying fun n _ => steady_relaying n, rfl,
    rfl⟩

end Experiment

end SteeredActors
