import SteeredActors.Proofs.World.CallPhases
import SteeredActors.Proofs.World.Decisions

/-!
# Calls that wait

In an honest run whoever waits is told once, by the actor that was called, and collects what it was
told: whether a state consumed the event and the actor came to rest afterwards without halting.
-/

set_option autoImplicit false
set_option relaxedAutoImplicit false

namespace SteeredActors

variable {σ : Type}

/-! ## Whose reply is collected -/

/-- Whoever is going to collect a reply is the one that waits for it. -/
def World.Asks (w : World σ) : Prop :=
  ∀ op thread, w.thread? (World.threadOf op) = some thread →
    ∀ r, Task.collect r ∈ thread.tasks → ∃ reply, w.rendezvous[r]? = some ⟨some op, reply⟩

private theorem waiter_enqueue (w : World σ) (i : Nat) (envelope : Envelope) {r : Nat}
    {z : Rendezvous} (found : w.rendezvous[r]? = some z) :
    ∃ reply, (w.enqueue i envelope).rendezvous[r]? = some ⟨z.waiter, reply⟩ := by
  unfold World.enqueue
  split
  · exact ⟨z.reply, found⟩
  · simp only
    split
    · rw [World.discard, World.replyAll_eq]
      exact World.waiter_replyEach (by exact found) _
    · exact ⟨z.reply, found⟩
    · exact ⟨z.reply, found⟩

/-- What an actor does on its own collects nothing. -/
private theorem collect_not_mem {r : Nat} :
    (∀ i slot handled, Task.collect r ∉ World.settlement (.actor i) slot handled) ∧
      (∀ i core event binding, Task.collect r ∉ World.consumption (.actor i) core event binding) ∧
      ∀ i core d, Task.collect r ∉ World.obedience (.actor i) core d := by
  have mine : ∀ i, (Subject.actor i).OwnedBy (ThreadId.actor i).own? false := fun i => ⟨rfl, rfl⟩
  refine ⟨?_, ?_, ?_⟩
  · intro i slot handled
    cases slot <;> simp [World.settlement]
  · intro i core event binding mem
    have fits : Task.Fits _ false _ _ ∧ _ := World.fits_consumption (mine i) core event binding _ mem
    exact fits.1
  · intro i core d mem
    cases d with
    | goto target =>
      rcases List.mem_append.1 mem with mem | mem
      · have fits : Task.Fits _ false _ _ ∧ _ := World.fits_leaving (mine i) core none _ mem
        exact fits.1
      · cases List.mem_singleton.1 mem
    | event | push | pop => cases List.mem_singleton.1 mem

/-- A reply that a thread is going to collect was waited for before, or the wait begins. -/
private theorem Transition.collects [Strategy σ] {t : ThreadId} {w w' : World σ}
    (explores : w.explores = true) (step : Transition t w w') {thread : Thread}
    (found : w'.thread? t = some thread) {r : Nat} (mem : Task.collect r ∈ thread.tasks) :
    (∃ old, w.thread? t = some old ∧ Task.collect r ∈ old.tasks) ∨
      ∃ i event rest op, w.thread? t = some ⟨.engage i event :: rest, false⟩ ∧
        w.operation? t = some op ∧ r = w.rendezvous.length ∧
        ∃ reply, w'.rendezvous[r]? = some ⟨some op, reply⟩ := by
  have mem_of : ∀ {w₁ : World σ} {new : Thread}, (w₁.setThread t new).thread? t = some thread →
      Task.collect r ∈ new.tasks := by
    intro w₁ new after
    rw [World.eq_of_thread?_setThread _ after] at mem
    exact mem
  have none_of : ∀ {P : Prop} {xs : List Task} {i : Nat}, Task.collect r ∉ xs →
      Task.collect r ∈ xs ++ [.cycle i] → P := by
    intro P xs i others mem
    rcases List.mem_append.1 mem with mem | mem
    · exact absurd mem others
    · cases List.mem_singleton.1 mem
  cases step with
  | works before _ _ _ _ continues | creates _ _ _ _ before _ _ _ _ continues
  | createsAndWaits _ _ _ before _ _ _ _ _ _ continues =>
    exact .inl ⟨_, before, continues.collects r (mem_of found)⟩
  | shifts _ _ before _ _ _ _ _ collects => exact .inl ⟨_, before, collects r (mem_of found)⟩
  | posts before | passes before =>
    exact .inl ⟨_, before, List.mem_cons_of_mem _ (mem_of found)⟩
  | @engages i op event tasks before works works' waiting asks =>
    rcases List.mem_cons.1 (mem_of found) with e | mem
    · cases e
    rcases List.mem_cons.1 mem with e | mem
    · cases e
    rcases List.mem_cons.1 mem with e | mem
    · obtain rfl := Task.collect.inj e
      have opened : ((w.openRendezvous (some op)).2.blockCaller
          (some op)).rendezvous[w.rendezvous.length]? = some ⟨some op, none⟩ := by
        have kept : ∀ w : World σ, (w.blockCaller (some op)).rendezvous = w.rendezvous := by
          intro w
          unfold World.blockCaller
          simp only
          split <;> rfl
        rw [kept]
        simp [World.openRendezvous, explores]
      obtain ⟨reply, there⟩ := waiter_enqueue _ i ⟨event, some w.rendezvous.length⟩ opened
      refine .inr ⟨i, event, tasks, op, before, asks, rfl, reply, ?_⟩
      cases t <;> exact there
    · exact .inl ⟨_, before, List.mem_cons_of_mem _ mem⟩
  | ignores | halts => exact none_of (collect_not_mem.1 _ _ _) (mem_of found)
  | consumes =>
    refine none_of (fun mem => ?_) (mem_of found)
    rcases List.mem_append.1 mem with mem | mem
    · exact collect_not_mem.2.1 _ _ _ _ mem
    · exact collect_not_mem.1 _ _ _ mem
  | obeys => exact none_of (collect_not_mem.2.2 _ _ _) (mem_of found)
  | ends | unwinds | settles | leaves | selects | defaults | idles | starves | rises | starts
  | resumes | retires =>
    have := mem_of found
    simp at this

/-- Whoever waits goes on waiting. -/
private theorem World.Asks.step [Strategy σ] {w w' : World σ} (h : Sound w) (asks : w.Asks)
    (step : Transition (World.threadOf w.controller.scheduled) w w') (slots : SlotStep w w') :
    w'.Asks := by
  have old : ∀ {op r thread}, w.thread? (World.threadOf op) = some thread →
      Task.collect r ∈ thread.tasks → ∃ reply, w'.rendezvous[r]? = some ⟨some op, reply⟩ := by
    intro op r thread found mem
    obtain ⟨reply, there⟩ := asks op thread found r mem
    exact slots.waiter there
  intro op thread found r mem
  by_cases own : World.threadOf op = World.threadOf w.controller.scheduled
  · rw [own] at found
    rcases step.collects h.explores found mem with ⟨before, there, mem⟩ |
      ⟨_, _, _, op', there, number, _, opened⟩
    · rw [← own] at there
      exact old there mem
    · rw [← own] at there number
      obtain rfl := Option.some.inj (number.symm.trans (h.operation_of_thread there))
      exact opened
  · rcases step.thread?_of_ne own (World.threadOf_ne_sleeper op) found with before | ⟨i, rfl⟩
    · exact old before mem
    · simp at mem

/-- Whoever collects a reply has it. -/
theorem Sound.replied_of_collect [Strategy σ] {w : World σ} (h : Sound w) (poised : Poised w)
    (ledger : Ledger w.slots w) (asks : w.Asks) {r : Nat} (next : w.next? = some (.collect r)) :
    ∃ b, w.replied? r = some b ∧ w.answer? = some (.ok (.bool b)) := by
  obtain ⟨rest, outside, found⟩ := World.thread_of_next? next
  have enabled := poised.attentive found (by simp)
  obtain ⟨reply, there⟩ := asks _ _ found r List.mem_cons_self
  cases reply with
  | none =>
    have blocked := (ledger.blocked _).2 ⟨r, there⟩
    rw [enabled] at blocked
    cases blocked
  | some b =>
    have replied : w.replied? r = some b := by simp [World.replied?, there]
    refine ⟨b, replied, ?_⟩
    have waiting : awaited rest = true := by
      obtain ⟨_, found', posture, _⟩ := h.holder poised
      obtain rfl := Option.some.inj (found.symm.trans found')
      cases posture with
      | working works =>
        cases works with
        | collect _ waiting => exact waiting
        | cons fits => exact fits.elim
    have collected : w.collected r = b := by
      have := congrArg (·.getD false) replied
      simpa [World.collected, World.replied?] using this
    have received : ∀ (v : Value) (tasks : List Task), awaited tasks = true →
        World.received (.ok v) tasks = some (.ok v) := by
      intro v tasks waiting
      induction tasks with
      | nil => cases waiting
      | cons x tasks ih =>
        cases x
        case resume => rfl
        all_goals exact ih waiting
    simp only [World.answer?, found, World.exec, collected]
    exact received _ _ waiting

namespace Experiment

variable [Strategy σ] {e : Experiment} {ids : Allocator} {s : σ}

/-- As long as there is no outcome, replies are collected by those who wait for them. -/
theorem asks {n : Nat} (running : (e.iterate n ids s).isOver = false) :
    (e.iterate n ids s).Asks := by
  refine (e.invariant (P := World.Asks) ?_ ?_ running).2.2
  · intro op thread found r mem
    cases op with
    | zero =>
      obtain rfl := Option.some.inj found
      simp [iterate, World.run, World.new] at mem
    | succ i => cases found
  · intro k _ sound poised asks step goesOn
    have before := e.running_of_succ ids s goesOn
    exact asks.step sound step (sound.slotStep poised (e.allAimed before) step)

/-- Whoever collects a reply has called before. -/
private theorem called {n : Nat} (running : (e.iterate n ids s).isOver = false) {op r : Nat}
    {thread : Thread} (found : (e.iterate n ids s).thread? (World.threadOf op) = some thread)
    (mem : Task.collect r ∈ thread.tasks) :
    ∃ m i event, m < n ∧ (e.iterate m ids s).controller.scheduled = op ∧
      (e.iterate m ids s).next? = some (.engage i event) ∧
      (e.iterate m ids s).rendezvous.length = r := by
  induction n generalizing thread with
  | zero =>
    cases op with
    | zero =>
      obtain rfl := Option.some.inj found
      simp [iterate, World.run, World.new] at mem
    | succ i => cases found
  | succ n ih =>
    have before := e.running_of_succ ids s running
    have earlier : ∀ old, (e.iterate n ids s).thread? (World.threadOf op) = some old →
        Task.collect r ∈ old.tasks → ∃ m i event, m < n + 1 ∧
          (e.iterate m ids s).controller.scheduled = op ∧
          (e.iterate m ids s).next? = some (.engage i event) ∧
          (e.iterate m ids s).rendezvous.length = r := by
      intro old there mem
      obtain ⟨m, i, event, lt, rest⟩ := ih before there mem
      exact ⟨m, i, event, by omega, rest⟩
    rcases e.transition_or_stuck running with step | same
    · by_cases own : World.threadOf op = World.threadOf (e.iterate n ids s).controller.scheduled
      · rw [own] at found earlier
        rcases step.collects (e.sound before).explores found mem with ⟨old, there, mem⟩ |
          ⟨i, event, rest, _, there, _, slot, _⟩
        · exact earlier old there mem
        · refine ⟨n, i, event, by omega, ?_, World.next?_of_thread there, slot.symm⟩
          generalize (e.iterate n ids s).controller.scheduled = turn at own
          cases op <;> cases turn <;> cases own <;> rfl
      · rcases step.thread?_of_ne own (World.threadOf_ne_sleeper op) found with there | ⟨i, rfl⟩
        · exact earlier thread there mem
        · simp at mem
    · rw [same] at found
      exact earlier thread found mem

end Experiment

/-! ## The course of a call -/

/-- A call that begins is queued, or dropped if the actor has halted. -/
theorem Sound.engaged [Strategy σ] {w : World σ} (h : Sound w) (poised : Poised w)
    (aimed : w.AllAimed) {i : Nat} {event : Event} (next : w.next? = some (.engage i event)) :
    ∃ w', w.stepThread? (World.threadOf w.controller.scheduled) = some w' ∧
      (w'.Reaches i w.rendezvous.length event .queued ∨
        w'.Reaches i w.rendezvous.length event (.replied false)) := by
  obtain ⟨rest, outside, found⟩ := World.thread_of_next? next
  have there : i < w.actors.length := aimed _ _ (World.threadOf_ne_sleeper _) found i event
    List.mem_cons_self
  obtain ⟨w₁, actors, opened, _, moved⟩ := h.step_of_engage poised found
  generalize ht : World.threadOf w.controller.scheduled = t at *
  generalize w.controller.scheduled = op at *
  have found₁ : w₁.actors[i]? = some w.actors[i] := by
    rw [actors]
    exact List.getElem?_eq_getElem there
  refine ⟨_, moved, ?_⟩
  have rendezvous : ∀ (w : World σ) thread, (w.setThread t thread).rendezvous = w.rendezvous := by
    intro w thread
    cases t <;> rfl
  have queued : ∀ a' : Actor, (w₁.enqueue i ⟨event, some w.rendezvous.length⟩).actors[i]? = some a' →
      ⟨event, some w.rendezvous.length⟩ ∈ a'.mailbox.queue →
      ∀ thread, World.Reaches ((w₁.enqueue i ⟨event, some w.rendezvous.length⟩).setThread t thread)
        i w.rendezvous.length event .queued :=
    fun a' ha' mem thread => ⟨_, World.getElem?_setThread_or ha' t thread, mem⟩
  cases status : w.actors[i].mailbox.status with
  | halted =>
    refine .inr ?_
    have awaits : w₁.Awaits op w.rendezvous.length := by simp [World.Awaits, opened]
    rw [World.Reaches, World.replied?, rendezvous, World.enqueue_of_halted found₁ _ status,
      World.discard, World.replyAll_eq]
    exact w₁.replied?_replyEach_of_mem (List.mem_singleton.2 rfl) (by simp) awaits
  | idle =>
    refine .inl (queued (w.actors[i].woken ⟨event, some w.rendezvous.length⟩) ?_
      (List.mem_append_right _ List.mem_cons_self) _)
    rw [World.enqueue_of_idle found₁ _ status]
    exact World.getElem?_modifyActor _ found₁
  | uninitialized | running =>
    refine .inl (queued (w.actors[i].queued ⟨event, some w.rendezvous.length⟩) ?_
      (List.mem_append_right _ List.mem_cons_self) _)
    rw [World.enqueue_of_busy found₁ _ (by simp [status])]
    exact World.getElem?_modifyActor _ found₁

/-- An event is handled without delay. -/
theorem World.Consumes.moves [Strategy σ] {w : World σ} {i r : Nat} {event : Event}
    (consumes : w.Consumes i r event) :
    ∃ w', w.stepThread? (World.threadOf w.controller.scheduled) = some w' := by
  obtain ⟨turn, next, a, binding, stack, there, resolved⟩ := consumes
  obtain ⟨rest, outside, found⟩ := World.thread_of_next? next
  have executed : w.exec (World.threadOf w.controller.scheduled) (.handle (.actor i) event (some r)) =
      .go (World.consumption (.actor i) { a.core with stack } event binding
        ++ World.settlement (.actor i) (some r) true) (w.setStack (.actor i) stack) := by
    simp [World.exec, World.handle, World.withCore, World.core?, there, resolved]
  rw [World.stepThread?_cons found, executed]
  simp only [World.thread?_setStack, found]
  exact ⟨_, rfl⟩

namespace Experiment

variable [Strategy σ] (e : Experiment) (ids : Allocator) (s : σ)

/-- Between two moments of a run a goto, a push or an action of an actor consumes the event of a call,
and the actor goes on until it is idle. -/
def Fulfills (m n i r : Nat) (event : Event) : Prop :=
  ∃ k l, m < k ∧ k < l ∧ l ≤ n ∧ (e.iterate k ids s).Consumes i r event ∧
    (∀ j, k ≤ j → j < l → (e.iterate j ids s).mailboxStatus? i = some .running) ∧
    (e.iterate l ids s).mailboxStatus? i = some .idle

/-- The event of a call was consumed, and the actor has gone on since then. -/
private def Ongoing (m n i r : Nat) (event : Event) : Prop :=
  ∃ k, m < k ∧ k < n ∧ (e.iterate k ids s).Consumes i r event ∧
    ∀ j, k ≤ j → j ≤ n → (e.iterate j ids s).mailboxStatus? i = some .running

/-- What a phase of a call tells about the past. -/
private def Recalls (m n i r : Nat) (event : Event) : CallPhase → Prop
  | .queued | .dispatched =>
    ¬e.Ongoing ids s m n i r event ∧ ¬e.Fulfills ids s m n i r event
  | .settling b | .pending b =>
    ((e.iterate n ids s).mailboxStatus? i = some .running →
        (b = true ↔ e.Ongoing ids s m n i r event)) ∧ ¬e.Fulfills ids s m n i r event
  | .replied b =>
    ¬e.Ongoing ids s m n i r event ∧ (b = true ↔ e.Fulfills ids s m n i r event)

variable {e ids s} {m n i r : Nat} {event : Event}

/-- One more step of a run. -/
private theorem fulfills_succ
    (busy : (e.iterate n ids s).Consumes i r event →
      (e.iterate n ids s).mailboxStatus? i = some .running) (later : m < n) :
    e.Fulfills ids s m (n + 1) i r event ↔
      e.Fulfills ids s m n i r event ∨
        (e.Ongoing ids s m n i r event ∨ (e.iterate n ids s).Consumes i r event) ∧
          (e.iterate (n + 1) ids s).mailboxStatus? i = some .idle := by
  constructor
  · rintro ⟨k, l, after, lt, le, consumes, running, idle⟩
    rcases Nat.lt_or_ge n l with last | before
    · obtain rfl : l = n + 1 := by omega
      rcases Nat.eq_or_lt_of_le (Nat.le_of_lt_succ lt) with rfl | lt
      · exact .inr ⟨.inr consumes, idle⟩
      · exact .inr ⟨.inl ⟨k, after, lt, consumes, fun j ge le => running j ge (by omega)⟩, idle⟩
    · exact .inl ⟨k, l, after, lt, before, consumes, running, idle⟩
  · rintro (⟨k, l, after, lt, le, rest⟩ | ⟨⟨k, after, lt, consumes, running⟩ | consumes, idle⟩)
    · exact ⟨k, l, after, lt, by omega, rest⟩
    · exact ⟨k, n + 1, after, by omega, Nat.le_refl _, consumes,
        fun j ge lt => running j ge (by omega), idle⟩
    · refine ⟨n, n + 1, later, by omega, Nat.le_refl _, consumes, fun j ge lt => ?_, idle⟩
      obtain rfl : j = n := by omega
      exact busy consumes

private theorem ongoing_succ
    (busy : (e.iterate n ids s).Consumes i r event →
      (e.iterate n ids s).mailboxStatus? i = some .running) (later : m < n) :
    e.Ongoing ids s m (n + 1) i r event ↔
      (e.Ongoing ids s m n i r event ∨ (e.iterate n ids s).Consumes i r event) ∧
        (e.iterate (n + 1) ids s).mailboxStatus? i = some .running := by
  constructor
  · rintro ⟨k, after, lt, consumes, running⟩
    refine ⟨?_, running _ (by omega) (Nat.le_refl _)⟩
    rcases Nat.eq_or_lt_of_le (Nat.le_of_lt_succ lt) with rfl | lt
    · exact .inr consumes
    · exact .inl ⟨k, after, lt, consumes, fun j ge le => running j ge (by omega)⟩
  · rintro ⟨⟨k, after, lt, consumes, running⟩ | consumes, last⟩
    · refine ⟨k, after, by omega, consumes, fun j ge le => ?_⟩
      rcases Nat.eq_or_lt_of_le le with rfl | lt
      · exact last
      · exact running j ge (by omega)
    · refine ⟨n, later, by omega, consumes, fun j ge le => ?_⟩
      rcases Nat.eq_or_lt_of_le le with rfl | lt
      · exact last
      · obtain rfl : j = n := by omega
        exact busy consumes

/-- A step that takes a call further keeps the past right. -/
private theorem Recalls.onward {p p' : CallPhase} (recalls : e.Recalls ids s m n i r event p)
    (later : m < n) (sound : Sound (e.iterate n ids s)) (sound' : Sound (e.iterate (n + 1) ids s))
    (reaches : (e.iterate n ids s).Reaches i r event p)
    (reaches' : (e.iterate (n + 1) ids s).Reaches i r event p')
    (step : Onward (e.iterate n ids s) (e.iterate (n + 1) ids s) i r event p p') :
    e.Recalls ids s m (n + 1) i r event p' := by
  have busy : (e.iterate n ids s).Consumes i r event →
      (e.iterate n ids s).mailboxStatus? i = some .running :=
    fun consumes => sound.running_of_dispatched consumes.dispatched
  have fulfills := fulfills_succ busy later
  have ongoing := ongoing_succ busy later
  cases step with
  | @stays p quiet unhalted =>
    cases p with
    | queued | dispatched =>
      obtain ⟨idle, none⟩ := recalls
      refine ⟨?_, ?_⟩
      · rw [ongoing]
        simp [idle, quiet]
      · rw [fulfills]
        simp [idle, quiet, none]
    | settling b =>
      obtain ⟨same, none⟩ := recalls
      have same := same (unhalted b rfl)
      refine ⟨fun running => ?_, ?_⟩
      · rw [ongoing, same]
        simp [quiet, running]
      · rw [fulfills]
        rcases sound'.status_of_settling reaches' with status | ⟨status, _⟩ <;>
          simp [none, status]
    | pending b =>
      obtain ⟨same, none⟩ := recalls
      have same := same (sound.running_of_pending reaches)
      refine ⟨fun running => ?_, ?_⟩
      · rw [ongoing, same]
        simp [quiet, running]
      · rw [fulfills]
        simp [none, sound'.running_of_pending reaches']
    | replied b =>
      obtain ⟨idle, same⟩ := recalls
      refine ⟨?_, ?_⟩
      · rw [ongoing]
        simp [idle, quiet]
      · rw [fulfills, same]
        simp [idle, quiet]
  | taken quiet =>
    obtain ⟨idle, none⟩ := recalls
    refine ⟨?_, ?_⟩
    · rw [ongoing]
      simp [idle, quiet]
    · rw [fulfills]
      simp [idle, quiet, none]
  | dropped quiet =>
    obtain ⟨idle, none⟩ := recalls
    refine ⟨?_, ?_⟩
    · rw [ongoing]
      simp [idle, quiet]
    · rw [fulfills]
      simp [idle, quiet, none]
  | declined quiet =>
    obtain ⟨idle, none⟩ := recalls
    refine ⟨fun running => ?_, ?_⟩
    · rw [ongoing]
      simp [idle, quiet]
    · rw [fulfills]
      simp [idle, quiet, none]
  | consumed consumes running =>
    obtain ⟨idle, none⟩ := recalls
    refine ⟨fun _ => ?_, ?_⟩
    · rw [ongoing]
      simp [consumes, running]
    · rw [fulfills]
      simp [none, running]
  | settled quiet running =>
    obtain ⟨same, none⟩ := recalls
    have same := same running
    have running' := sound'.running_of_pending reaches'
    refine ⟨fun _ => ?_, ?_⟩
    · rw [ongoing, same]
      simp [quiet, running']
    · rw [fulfills]
      simp [none, running']
  | closed quiet halted =>
    obtain ⟨same, none⟩ := recalls
    -- The actor did not run on.
    have idle : ¬e.Ongoing ids s m n i r event := by
      rintro ⟨k, _, lt, _, running⟩
      rw [running n (by omega) (Nat.le_refl n)] at halted
      cases halted
    refine ⟨?_, ?_⟩
    · rw [ongoing]
      simp [idle, quiet]
    · rw [fulfills]
      simp [idle, quiet, none]
  | rested quiet idle =>
    obtain ⟨same, none⟩ := recalls
    have same := same (sound.running_of_pending reaches)
    refine ⟨?_, ?_⟩
    · rw [ongoing]
      simp [idle]
    · rw [fulfills, same]
      simp [none, quiet, idle]
  | cut quiet halted =>
    obtain ⟨same, none⟩ := recalls
    refine ⟨?_, ?_⟩
    · rw [ongoing]
      simp [halted]
    · rw [fulfills]
      simp [none, halted]

/-- The past stays right when nothing moves. -/
private theorem Recalls.stuck {p : CallPhase} (recalls : e.Recalls ids s m n i r event p)
    (later : m < n) (quiet : ¬(e.iterate n ids s).Consumes i r event)
    (same : e.iterate (n + 1) ids s = e.iterate n ids s) : e.Recalls ids s m (n + 1) i r event p := by
  have running : e.Ongoing ids s m n i r event →
      (e.iterate n ids s).mailboxStatus? i = some .running :=
    fun ⟨_, _, lt, _, running⟩ => running n (by omega) (Nat.le_refl n)
  have ongoing : e.Ongoing ids s m (n + 1) i r event ↔ e.Ongoing ids s m n i r event := by
    rw [ongoing_succ (fun consumes => absurd consumes quiet) later, same]
    simp only [quiet, or_false]
    exact ⟨And.left, fun h => ⟨h, running h⟩⟩
  have fulfills : e.Fulfills ids s m (n + 1) i r event ↔ e.Fulfills ids s m n i r event := by
    rw [fulfills_succ (fun consumes => absurd consumes quiet) later, same]
    simp only [quiet, or_false, or_iff_left_iff_imp]
    rintro ⟨h, idle⟩
    rw [running h] at idle
    cases idle
  cases p <;> simpa only [Recalls, ongoing, fulfills, same] using recalls

/-- What becomes of a call in an honest run. -/
private theorem Honest.course (honest : e.Honest ids s)
    (begins : (e.iterate m ids s).next? = some (.engage i event)) (later : m < n)
    (running : (e.iterate n ids s).isOver = false) :
    i < (e.iterate n ids s).actors.length ∧
      ∃ p, (e.iterate n ids s).Reaches i (e.iterate m ids s).rendezvous.length event p ∧
        e.Recalls ids s m n i (e.iterate m ids s).rendezvous.length event p := by
  induction n with
  | zero => omega
  | succ n ih =>
    have before := e.running_of_succ ids s running
    have sound := e.sound before
    have poised := e.poised before
    have aimed := e.allAimed before
    have ledger := honest.ledger before
    have faithful : ∀ x, (e.iterate n ids s).next? = some x → ¬x.Feigns :=
      fun x next => honest.not_feigns before next
    have moves : ∀ w', (e.iterate n ids s).stepThread?
        (World.threadOf (e.iterate n ids s).controller.scheduled) = some w' →
        e.iterate (n + 1) ids s = w' := by
      intro w' moved
      rw [← World.step?_of_running sound.explores before] at moved
      rw [e.iterate_succ, moved, Option.getD_some]
    have stays : ∀ j, j < (e.iterate n ids s).actors.length →
        j < (e.iterate (n + 1) ids s).actors.length := by
      intro j lt
      rcases e.transition_or_stuck running with step | stuck
      · exact Nat.lt_of_lt_of_le lt step.length_actors_le
      · rw [stuck]
        exact lt
    rcases Nat.eq_or_lt_of_le (Nat.le_of_lt_succ later) with rfl | later
    · obtain ⟨rest, outside, found⟩ := World.thread_of_next? begins
      have there := aimed _ _ (World.threadOf_ne_sleeper _) found i event List.mem_cons_self
      obtain ⟨w', moved, reaches⟩ := sound.engaged poised aimed begins
      rw [← moves w' moved] at reaches
      have idle : ∀ r, ¬e.Ongoing ids s m (m + 1) i r event := by
        rintro r ⟨k, after, lt, _⟩
        omega
      have none : ∀ r, ¬e.Fulfills ids s m (m + 1) i r event := by
        rintro r ⟨k, l, after, lt, le, _⟩
        omega
      refine ⟨stays i there, ?_⟩
      rcases reaches with queued | dropped
      · exact ⟨.queued, queued, idle _, none _⟩
      · exact ⟨.replied false, dropped, idle _, by simp [none]⟩
    · obtain ⟨there, p, reaches, recalls⟩ := ih later before
      refine ⟨stays i there, ?_⟩
      cases moved : (e.iterate n ids s).step? with
      | some w' =>
        have step := e.transition_of_step? running moved
        have sound' := e.sound running
        have found := List.getElem?_eq_getElem there
        obtain ⟨a', found', actorStep⟩ := sound.actorStep faithful step found
        obtain ⟨p', reaches', onward⟩ := sound.onward sound' ledger
          (sound.slotStep poised aimed step) found' found actorStep reaches
        exact ⟨p', reaches', recalls.onward later sound sound' reaches reaches' onward⟩
      | none =>
        have quiet : ¬(e.iterate n ids s).Consumes i (e.iterate m ids s).rendezvous.length event := by
          intro consumes
          obtain ⟨w', moves⟩ := consumes.moves
          rw [World.step?_of_running sound.explores before, moves] at moved
          cases moved
        have same : e.iterate (n + 1) ids s = e.iterate n ids s := by
          rw [e.iterate_succ, moved, Option.getD_none]
        exact ⟨p, by rw [same]; exact reaches, recalls.stuck later quiet same⟩

/-- In an honest run no reply is lost, given twice or read before it is given. At every scheduling
decision whoever is blocked waits for exactly one rendezvous, which is kept in exactly one place, and
nobody else waits. A call that returns has its reply, and it returns that its event was handled
exactly if a goto, a push or an action of the actor consumed it and the actor then went on until it
was idle. -/
theorem no_reply_lost (honest : e.Honest ids s) :
    (∀ n d, (e.iterate n ids s).isOver = false → (e.iterate n ids s).decision? = some d →
      (∀ op, d.controller.status? op = some .blocked → ∃! r, (e.iterate n ids s).Awaits op r) ∧
        ∀ op r, (e.iterate n ids s).Awaits op r →
          d.controller.status? op = some .blocked ∧ ∃ p, (e.iterate n ids s).Keeps p r) ∧
      ∀ n r, (e.iterate n ids s).isOver = false →
        (e.iterate n ids s).next? = some (.collect r) →
        ∃ m i event b, m < n ∧
          (e.iterate m ids s).controller.scheduled = (e.iterate n ids s).controller.scheduled ∧
          (e.iterate m ids s).next? = some (.engage i event) ∧
          (e.iterate m ids s).rendezvous.length = r ∧
          (e.iterate n ids s).replied? r = some b ∧
          (e.iterate n ids s).answer? = some (.ok (.bool b)) ∧
          (b = true ↔ e.Fulfills ids s m n i r event) := by
  constructor
  · intro n d running decides
    have sound := e.sound running
    have poised := e.poised running
    have ledger := honest.ledger running
    have same : ∀ op, d.controller.status? op = some .blocked ↔
        (e.iterate n ids s).controller.status? op = some .blocked := by
      intro op
      obtain ⟨_, ⟨_, same⟩ | ⟨next, same⟩⟩ := World.decision?_inv sound poised decides
      · rw [same]
      · -- Only the operation that is done changes, and it was enabled.
        obtain ⟨rest, outside, found⟩ := World.thread_of_next? next
        have enabled := poised.attentive found (by simp)
        rw [same, Controller.status?_setStatus]
        by_cases own : op = (e.iterate n ids s).controller.scheduled
        · simp [own, enabled]
        · simp [own]
    refine ⟨fun op blocked => ?_, fun op r awaits => ?_⟩
    · obtain ⟨r, awaits⟩ := (ledger.blocked op).1 ((same op).1 blocked)
      exact ⟨r, awaits, fun r' awaits' => ledger.unique op r' r awaits' awaits⟩
    · refine ⟨(same op).2 ((ledger.blocked op).2 ⟨r, awaits⟩), ledger.keeps sound ?_⟩
      exact ledger.complete r (some op) awaits
  · intro n r running next
    have sound := e.sound running
    have poised := e.poised running
    have ledger := honest.ledger running
    obtain ⟨rest, outside, found⟩ := World.thread_of_next? next
    obtain ⟨m, i, event, later, turn, begins, slot⟩ := called running found List.mem_cons_self
    obtain ⟨b, replied, answered⟩ := sound.replied_of_collect poised ledger (asks running) next
    refine ⟨m, i, event, b, later, turn, begins, slot, replied, answered, ?_⟩
    obtain ⟨_, p, reaches, recalls⟩ := honest.course begins later running
    rw [slot] at reaches recalls
    have given : p = .replied b := by
      by_cases open_ : ∃ b', p = .replied b'
      · obtain ⟨b', rfl⟩ := open_
        rw [Option.some.inj (replied.symm.trans reaches)]
      · obtain ⟨op, due⟩ := ledger.awaited r
          (reaches.mem_slots fun b' e => open_ ⟨b', e⟩)
        rw [World.replied?, due] at replied
        cases replied
    rw [given] at recalls
    exact recalls.2

/-- In such a run the machine handles the event, and the call of the test returns that. -/
theorem no_reply_lost_calling :
    calling.Honest ⟨0, 0⟩ turns ∧
      (calling.iterate 23 ⟨0, 0⟩ turns).answer? = some (.ok (.bool true)) ∧
      ∃ m i event, (calling.iterate m ⟨0, 0⟩ turns).next? = some (.engage i event) ∧
        calling.Fulfills ⟨0, 0⟩ turns m 23 i 1 event := by
  have ceased : (calling.iterate 26 ⟨0, 0⟩ turns).isOver = true := rfl
  have mild : ∀ n < 26, (calling.iterate n ⟨0, 0⟩ turns).failure?.isNone = true := by decide
  have honest : calling.Honest ⟨0, 0⟩ turns := by
    intro n failure running fails
    by_cases early : n < 26
    · have none := mild n early
      rw [fails] at none
      cases none
    · have running := calling.running_of_le _ _ (m := 26) (by omega) running
      rw [ceased] at running
      cases running
  obtain ⟨m, i, event, b, _, _, begins, _, _, answered, fulfills⟩ :=
    (no_reply_lost honest).2 23 1 rfl rfl
  have handled : (calling.iterate 23 ⟨0, 0⟩ turns).answer? = some (.ok (.bool true)) := rfl
  rw [handled] at answered
  obtain rfl : b = true := by simpa using answered.symm
  exact ⟨honest, handled, m, i, event, begins, fulfills.1 rfl⟩

end Experiment

end SteeredActors
