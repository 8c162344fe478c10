import SteeredActors.Proofs.World.Quiet

/-!
# Threads and what leaves them alone

A thread changes only when it is set: replies, envelopes and halts reach its actor but not what it
still has to do.
-/

set_option autoImplicit false
set_option relaxedAutoImplicit false

namespace SteeredActors.World

variable {σ : Type} (w : World σ)

theorem thread?_modifyActor (t : ThreadId) (i : Nat) {f : Actor → Actor}
    (kept : ∀ a, (f a).thread = a.thread) : (w.modifyActor i f).thread? t = w.thread? t := by
  cases t with
  | driver => rfl
  | sleeper j => rfl
  | actor j =>
    simp only [thread?, modifyActor, List.getElem?_modify]
    by_cases h : i = j
    · subst h
      cases w.actors[i]? with
      | none => rfl
      | some a => simp [kept a]
    · simp [h]

theorem thread?_modifyCore (t : ThreadId) (c : Subject) (f : Core → Core) :
    (w.modifyCore c f).thread? t = w.thread? t := by
  cases c with
  | actor i => exact w.thread?_modifyActor t i fun _ => rfl
  | monitor m => cases t <;> rfl

@[simp] theorem thread?_setStack (t : ThreadId) (c : Subject) (stack : List ActiveState) :
    (w.setStack c stack).thread? t = w.thread? t := w.thread?_modifyCore t c _

theorem thread?_setController (t : ThreadId) (c : Controller σ) :
    thread? { w with controller := c } t = w.thread? t := by
  cases t <;> rfl

@[simp] theorem thread?_reply (t : ThreadId) (r : Nat) (handled : Bool) :
    (w.reply r handled).thread? t = w.thread? t := by
  unfold reply
  split
  · next waiter _ => cases waiter <;> cases t <;> rfl
  · rfl

@[simp] theorem thread?_replyAll (t : ThreadId) (rs : List Nat) (handled : Bool) :
    (w.replyAll rs handled).thread? t = w.thread? t := by
  unfold replyAll
  induction rs generalizing w with
  | nil => rfl
  | cons r rs ih =>
    rw [List.foldl_cons, ih]
    exact w.thread?_reply t r handled

theorem thread?_replyEach (t : ThreadId) (pending : List (Nat × Bool)) :
    (pending.foldl (fun w (r, handled) => w.reply r handled) w).thread? t = w.thread? t := by
  induction pending generalizing w with
  | nil => rfl
  | cons p pending ih =>
    rw [List.foldl_cons, ih]
    exact w.thread?_reply t p.1 p.2

@[simp] theorem thread?_discard (t : ThreadId) (envelopes : List Envelope) :
    (w.discard envelopes).thread? t = w.thread? t := w.thread?_replyAll t _ _

@[simp] theorem thread?_openRendezvous (t : ThreadId) (caller : Option Nat) :
    (w.openRendezvous caller).2.thread? t = w.thread? t := by
  cases t <;> rfl

@[simp] theorem thread?_blockCaller (t : ThreadId) (caller : Option Nat) :
    (w.blockCaller caller).thread? t = w.thread? t := by
  unfold blockCaller
  cases caller with
  | none => rfl
  | some op =>
    simp only
    split
    · exact w.thread?_setController t _
    · rfl

@[simp] theorem thread?_enqueue (t : ThreadId) (i : Nat) (envelope : Envelope) :
    (w.enqueue i envelope).thread? t = w.thread? t := by
  unfold enqueue
  split
  · rfl
  · next a _ =>
    cases a.mailbox.enqueue envelope with
    | mk arrival mailbox =>
      have kept : (w.modifyActor i fun a => { a with mailbox }).thread? t = w.thread? t :=
        w.thread?_modifyActor t i fun _ => rfl
      cases arrival with
      | dropped => simpa using kept
      | queued => exact kept
      | woke => exact (thread?_setController _ t _).trans kept

@[simp] theorem thread?_abandon (t : ThreadId) (i : Nat) :
    (w.abandon i).thread? t = w.thread? t := by
  unfold abandon
  split
  · rfl
  · simp only [thread?_replyAll, thread?_discard]
    exact w.thread?_modifyActor t i fun _ => rfl

theorem thread?_observe (t : ThreadId) (event : LifecycleEvent) :
    (w.observe event).thread? t = w.thread? t := by
  unfold observe
  split
  · rfl
  · cases t <;> rfl

@[simp] theorem thread?_halt (t : ThreadId) (c : Subject) :
    (w.halt c).thread? t = w.thread? t := by
  unfold halt
  split
  · rfl
  · split
    · rfl
    · cases c with
      | actor i => simp only [thread?_observe, thread?_abandon, thread?_modifyCore]
      | monitor m => simp only [thread?_observe, thread?_modifyCore]

/-- A new actor leaves the threads there are. -/
theorem thread?_addActor {t : ThreadId} {thread : Thread} (found : w.thread? t = some thread)
    (id : ActorId) (descriptor : Descriptor) (event : Option Event) (rendezvous : Option Nat) :
    (w.addActor id descriptor event rendezvous).thread? t = some thread := by
  simp only [addActor, thread?_observe]
  cases t with
  | driver => exact found
  | sleeper j => exact found
  | actor i =>
    obtain ⟨a, ha, thread⟩ := Option.map_eq_some_iff.1 found
    simp [thread?, List.getElem?_append_left (List.getElem?_eq_some_iff.1 ha).1, ha, thread]

/-- With a new actor there is one more thread, which has not begun. -/
theorem thread?_of_addActor {t : ThreadId} {thread : Thread} {id : ActorId}
    {descriptor : Descriptor} {event : Option Event} {rendezvous : Option Nat}
    (found : (w.addActor id descriptor event rendezvous).thread? t = some thread) :
    w.thread? t = some thread ∨ ∃ i, thread = ⟨[.firstTurn i], false⟩ := by
  simp only [addActor, thread?_observe] at found
  cases t with
  | driver => exact .inl found
  | sleeper j => exact .inl found
  | actor i =>
    obtain ⟨a, ha, thread⟩ := Option.map_eq_some_iff.1 found
    simp only [List.getElem?_append] at ha
    split at ha
    · exact .inl (Option.map_eq_some_iff.2 ⟨a, ha, thread⟩)
    · obtain rfl := List.mem_singleton.1 (List.mem_of_getElem? ha)
      exact .inr ⟨_, thread.symm⟩

theorem thread?_setThread_ne {t u : ThreadId} (other : u ≠ t) (thread : Thread) :
    (w.setThread t thread).thread? u = w.thread? u := by
  cases t with
  | driver =>
    cases u with
    | driver => exact absurd rfl other
    | actor i => rfl
    | sleeper j => rfl
  | actor i =>
    cases u with
    | driver => rfl
    | sleeper j => rfl
    | actor j =>
      have ne : i ≠ j := fun e => other (congrArg ThreadId.actor e.symm)
      simp [thread?, setThread, modifyActor, ne]
  | sleeper i =>
    cases u with
    | driver => rfl
    | actor j => rfl
    | sleeper j =>
      have ne : i ≠ j := fun e => other (congrArg ThreadId.sleeper e.symm)
      simp [thread?, setThread, modifySleeper, ne]

theorem setThread_setThread (t : ThreadId) (first second : Thread) :
    (w.setThread t first).setThread t second = w.setThread t second := by
  cases t with
  | driver => rfl
  | actor i =>
    simp only [setThread, modifyActor, List.modify_modify_eq]
    rfl
  | sleeper j =>
    simp only [setThread, modifySleeper, List.modify_modify_eq]
    rfl

theorem thread?_setThread {t : ThreadId} {old : Thread} (found : w.thread? t = some old)
    (new : Thread) : (w.setThread t new).thread? t = some new := by
  cases t with
  | driver => rfl
  | actor i =>
    obtain ⟨a, ha, _⟩ := Option.map_eq_some_iff.1 found
    simp [thread?, setThread, modifyActor, ha]
  | sleeper j =>
    obtain ⟨s, hs, _⟩ := Option.map_eq_some_iff.1 found
    simp [thread?, setThread, modifySleeper, hs]

theorem eq_of_thread?_setThread {t : ThreadId} {new thread : Thread}
    (found : (w.setThread t new).thread? t = some thread) : thread = new := by
  cases t with
  | driver => exact (Option.some.inj found).symm
  | actor i =>
    cases there : w.actors[i]? <;> simp [thread?, setThread, modifyActor, there] at found
    exact found.symm
  | sleeper j =>
    cases there : w.sleepers[j]? <;> simp [thread?, setThread, modifySleeper, there] at found
    exact found.symm

theorem core?_setThread (t : ThreadId) (thread : Thread) (c : Subject) :
    (w.setThread t thread).core? c = w.core? c := by
  cases c with
  | monitor m => cases t <;> rfl
  | actor i =>
    cases t with
    | driver | sleeper j => rfl
    | actor j =>
      simp only [core?, setThread, modifyActor, List.getElem?_modify]
      cases w.actors[i]? with
      | none => simp
      | some a => by_cases same : j = i <;> simp [same]

end SteeredActors.World
