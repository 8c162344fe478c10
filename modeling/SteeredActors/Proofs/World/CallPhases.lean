import SteeredActors.Proofs.World.ActorSteps

/-!
# The way of a call

The event of a call that waits is queued, dispatched, handled and then kept until the actor rests, or
it is dropped on the way. Every step takes it at most one phase further.
-/

set_option autoImplicit false
set_option relaxedAutoImplicit false

namespace SteeredActors

variable {σ : Type}

/-- How far the event of a call has come. -/
inductive CallPhase where
  | queued
  /-- The actor has selected it. -/
  | dispatched
  /-- The stack has handled it, and the caller will be told whether a state consumed it. -/
  | settling (handled : Bool)
  /-- It waits for the actor to come to rest. -/
  | pending (handled : Bool)
  | replied (handled : Bool)
deriving DecidableEq, Repr

namespace World

/-- A call of the actor at a position, which waits for a rendezvous, has come so far. -/
def Reaches (w : World σ) (i r : Nat) (event : Event) : CallPhase → Prop
  | .queued => ∃ a, w.actors[i]? = some a ∧ ⟨event, some r⟩ ∈ a.mailbox.queue
  | .dispatched => ∃ a, w.actors[i]? = some a ∧ (r, .inl event) ∈ charges a.thread.tasks
  | .settling handled => ∃ a, w.actors[i]? = some a ∧ (r, .inr handled) ∈ charges a.thread.tasks
  | .pending handled => ∃ a, w.actors[i]? = some a ∧ (r, handled) ∈ a.pending
  | .replied handled => w.replied? r = some handled

/-- In its next step an actor hands the event of a call to its stack, and a goto, a push or an action
of a state consumes it. -/
def Consumes (w : World σ) (i r : Nat) (event : Event) : Prop :=
  w.controller.scheduled = i + 1 ∧ w.next? = some (.handle (.actor i) event (some r)) ∧
    ∃ a binding stack, w.actors[i]? = some a ∧
      resolveEvent event.type a.core.stack = .bound binding stack

/-- The status of the mailbox of an actor. -/
def mailboxStatus? (w : World σ) (i : Nat) : Option ActorStatus :=
  w.actors[i]?.map (·.mailbox.status)

variable {w : World σ} {i r : Nat} {event : Event}

theorem mailboxStatus?_of_found {a : Actor} (found : w.actors[i]? = some a) :
    w.mailboxStatus? i = some a.mailbox.status := by
  simp [mailboxStatus?, found]

private theorem mem_slots {a : Actor} (found : w.actors[i]? = some a) (mem : r ∈ a.slots) :
    r ∈ w.slots := List.mem_flatMap.2 ⟨a, List.mem_of_getElem? found, mem⟩

private theorem mem_slots_of_charge {a : Actor} {c : Event ⊕ Bool}
    (mem : (r, c) ∈ charges a.thread.tasks) : r ∈ a.slots :=
  List.mem_append_right _ (List.mem_map.2 ⟨_, mem, rfl⟩)

private theorem mem_owed_of_queue {a : Actor} (mem : ⟨event, some r⟩ ∈ a.mailbox.queue) :
    r ∈ a.owed :=
  List.mem_append_left _ (List.mem_append_left _ (List.mem_filterMap.2 ⟨_, mem, rfl⟩))

private theorem mem_owed_of_pending {a : Actor} {b : Bool} (mem : (r, b) ∈ a.pending) :
    r ∈ a.owed := List.mem_append_right _ (List.mem_map.2 ⟨_, mem, rfl⟩)

private theorem charge_inj {r' : Option Nat} {c c' : Event ⊕ Bool}
    (mem : (r, c) ∈ r'.toList.map (·, c')) : r' = some r ∧ c' = c := by
  obtain ⟨s, hs, e⟩ := List.mem_map.1 mem
  obtain ⟨rfl, rfl⟩ := Prod.mk.inj e
  exact ⟨by simpa using hs, rfl⟩

/-- Until the reply is given the rendezvous is due. -/
theorem Reaches.mem_slots {p : CallPhase} (reaches : w.Reaches i r event p)
    (open_ : ∀ b, p ≠ .replied b) : r ∈ w.slots := by
  cases p with
  | queued =>
    obtain ⟨a, found, mem⟩ := reaches
    exact World.mem_slots found (List.mem_append_left _ (mem_owed_of_queue mem))
  | dispatched | settling =>
    obtain ⟨a, found, mem⟩ := reaches
    exact World.mem_slots found (mem_slots_of_charge mem)
  | pending =>
    obtain ⟨a, found, mem⟩ := reaches
    exact World.mem_slots found (List.mem_append_left _ (mem_owed_of_pending mem))
  | replied b => exact absurd rfl (open_ b)

/-- What is consumed was dispatched. -/
theorem Consumes.dispatched (consumes : w.Consumes i r event) :
    ∃ a, w.actors[i]? = some a ∧ (r, .inl event) ∈ charges a.thread.tasks := by
  obtain ⟨turn, next, a, _, _, found, _⟩ := consumes
  obtain ⟨rest, outside, thread⟩ := World.thread_of_next? next
  rw [turn] at thread
  have same : a.thread = ⟨.handle (.actor i) event (some r) :: rest, outside⟩ := by
    simpa [threadOf, thread?, found] using thread
  exact ⟨a, found, by rw [same]; exact List.mem_cons_self⟩

end World

/-- The steps of a call, with what they tell about the actor. -/
inductive Onward (w w' : World σ) (i r : Nat) (event : Event) : CallPhase → CallPhase → Prop where
  | stays {p : CallPhase} (quiet : ¬w.Consumes i r event)
      (busy : ∀ b, p = .settling b → w.mailboxStatus? i = some .running) :
      Onward w w' i r event p p
  | taken (quiet : ¬w.Consumes i r event) : Onward w w' i r event .queued .dispatched
  | dropped (quiet : ¬w.Consumes i r event) : Onward w w' i r event .queued (.replied false)
  | declined (quiet : ¬w.Consumes i r event) :
      Onward w w' i r event .dispatched (.settling false)
  | consumed (consumes : w.Consumes i r event) (busy : w'.mailboxStatus? i = some .running) :
      Onward w w' i r event .dispatched (.settling true)
  | settled {b : Bool} (quiet : ¬w.Consumes i r event)
      (busy : w.mailboxStatus? i = some .running) :
      Onward w w' i r event (.settling b) (.pending b)
  | closed {b : Bool} (quiet : ¬w.Consumes i r event)
      (halted : w.mailboxStatus? i = some .halted) :
      Onward w w' i r event (.settling b) (.replied false)
  | rested {b : Bool} (quiet : ¬w.Consumes i r event)
      (idle : w'.mailboxStatus? i = some .idle) :
      Onward w w' i r event (.pending b) (.replied b)
  | cut {b : Bool} (quiet : ¬w.Consumes i r event)
      (halted : w'.mailboxStatus? i = some .halted) :
      Onward w w' i r event (.pending b) (.replied false)

namespace Ledger

variable {w w' : World σ} {i r : Nat} {event : Event} {a : Actor}

private theorem nodup_of_found (ledger : Ledger w.slots w) (found : w.actors[i]? = some a) :
    a.slots.Nodup :=
  (List.nodup_flatMap.1 ledger.nodup).1 a (List.mem_of_getElem? found)

/-- Nothing is consumed but what was dispatched. -/
theorem not_consumes (ledger : Ledger w.slots w) {p : CallPhase} (reaches : w.Reaches i r event p)
    (other : p ≠ .dispatched) : ¬w.Consumes i r event := by
  intro consumes
  obtain ⟨a, found, mem⟩ := consumes.dispatched
  have once := ledger.nodup_of_found found
  have apart := (List.nodup_append.1 once).2.2
  have carries : r ∈ carried a.thread.tasks := List.mem_map.2 ⟨_, mem, rfl⟩
  cases p with
  | dispatched => exact other rfl
  | queued =>
    obtain ⟨b, there, queued⟩ := reaches
    obtain rfl := Option.some.inj (found.symm.trans there)
    exact apart r (World.mem_owed_of_queue queued) r carries rfl
  | pending handled =>
    obtain ⟨b, there, waits⟩ := reaches
    obtain rfl := Option.some.inj (found.symm.trans there)
    exact apart r (World.mem_owed_of_pending waits) r carries rfl
  | settling handled =>
    obtain ⟨b, there, settles⟩ := reaches
    obtain rfl := Option.some.inj (found.symm.trans there)
    have same := List.inj_on_of_nodup_map (List.nodup_append.1 once).2.1 mem settles rfl
    cases same
  | replied handled =>
    obtain ⟨op, due⟩ := ledger.awaited r (World.mem_slots found (World.mem_slots_of_charge mem))
    rw [World.Reaches, World.replied?, due] at reaches
    cases reaches

/-- Who is due a reply among those that are given gets it. -/
private theorem replied_of_dues (ledger : Ledger w.slots w) {given : List (Nat × Bool)} {b : Bool}
    (dues : SameDues (w.replyEach given) w') (mem : (r, b) ∈ given)
    (once : (given.map (·.1)).Nodup) (due : r ∈ w.slots) : w'.replied? r = some b := by
  obtain ⟨op, awaits⟩ := ledger.awaited r due
  rw [World.replied?, dues.rendezvous]
  exact w.replied?_replyEach_of_mem mem once awaits

/-- An envelope that is discarded counts as not handled. -/
private theorem replied_of_discarded (ledger : Ledger w.slots w) (found : w.actors[i]? = some a)
    {discarded queue : List Envelope} {more : List (Nat × Bool)}
    (split : (discarded ++ queue).Perm a.mailbox.queue)
    (pending : more = [] ∨ more = a.pending)
    (dues : SameDues (w.replyEach ((discarded.filterMap (·.rendezvous)).map (·, false) ++ more)) w') :
    (∀ event r, ⟨event, some r⟩ ∈ discarded → w'.replied? r = some false) ∧
      ∀ p ∈ more, w'.replied? p.1 = some p.2 := by
  have owed := (List.nodup_append.1 (ledger.nodup_of_found found)).1
  have parts := split.filterMap (·.rendezvous)
  rw [List.filterMap_append] at parts
  have all : (discarded.filterMap (·.rendezvous) ++ queue.filterMap (·.rendezvous) ++
      a.creationRendezvous.toList ++ a.pending.map (·.1)).Nodup :=
    ((parts.append_right _).append_right _).nodup_iff.2 owed
  have once : (((discarded.filterMap (·.rendezvous)).map (·, false) ++ more).map (·.1)).Nodup := by
    have sub : (discarded.filterMap (·.rendezvous) ++ more.map (·.1)).Sublist
        (discarded.filterMap (·.rendezvous) ++ queue.filterMap (·.rendezvous) ++
          a.creationRendezvous.toList ++ a.pending.map (·.1)) := by
      refine List.Sublist.append ?_ ?_
      · exact (List.sublist_append_left _ _).trans (List.sublist_append_left _ _)
      · rcases pending with rfl | rfl
        · exact List.nil_sublist _
        · exact .refl _
    simpa [Function.comp_def] using all.sublist sub
  constructor
  · intro event r mem
    refine ledger.replied_of_dues dues (List.mem_append_left _ ?_) once ?_
    · exact List.mem_map.2 ⟨r, List.mem_filterMap.2 ⟨_, mem, rfl⟩, rfl⟩
    · have queued := split.mem_iff.1 (List.mem_append_left _ mem)
      exact World.mem_slots found (List.mem_append_left _ (World.mem_owed_of_queue queued))
  · intro p mem
    refine ledger.replied_of_dues dues (List.mem_append_right _ mem) once ?_
    rcases pending with rfl | rfl
    · cases mem
    · exact World.mem_slots found (List.mem_append_left _ (World.mem_owed_of_pending mem))

/-- Whoever halts drops what it owes. -/
private theorem replied_of_owed (ledger : Ledger w.slots w) (found : w.actors[i]? = some a)
    (dues : SameDues (w.replyEach (a.owed.map (·, false))) w') (mem : r ∈ a.owed) :
    w'.replied? r = some false := by
  refine ledger.replied_of_dues dues (List.mem_map.2 ⟨r, mem, rfl⟩) ?_ ?_
  · have owed := (List.nodup_append.1 (ledger.nodup_of_found found)).1
    simpa [Function.comp_def] using owed
  · exact World.mem_slots found (List.mem_append_left _ mem)

end Ledger

namespace Sound

variable {w w' : World σ} {i r : Nat} {event : Event} {a : Actor}

/-- An actor with events that wait for its rest is running. -/
theorem running_of_pending (h : Sound w) {b : Bool} (reaches : w.Reaches i r event (.pending b)) :
    w.mailboxStatus? i = some .running := by
  obtain ⟨a, found, mem⟩ := reaches
  rw [World.mailboxStatus?_of_found found]
  by_contra other
  rw [(h.actors i a found).tidy.pending (fun e => other (by rw [e]))] at mem
  cases mem

/-- An actor that has selected an event is running. -/
theorem running_of_dispatched (h : Sound w) (reaches : w.Reaches i r event .dispatched) :
    w.mailboxStatus? i = some .running := by
  obtain ⟨a, found, mem⟩ := reaches
  rw [World.mailboxStatus?_of_found found]
  obtain ⟨s, _, stage⟩ := (h.actors i a found).stage
  cases stage with
  | working _ _ _ status => exact congrArg some status
  | fresh thread | called _ thread | pausing _ thread | resting thread | retiring _ _ thread
  | gone thread =>
    rw [thread] at mem
    cases mem
  | halting _ thread =>
    rcases thread with thread | ⟨r', handled, thread⟩
    · rw [thread] at mem
      cases mem
    · rw [thread] at mem
      cases (Prod.mk.inj (List.mem_singleton.1 mem)).2

/-- An actor that has handled an event has not come to rest: it runs, or it has halted and is about
to reply. -/
theorem status_of_settling (h : Sound w) {b : Bool} (reaches : w.Reaches i r event (.settling b)) :
    w.mailboxStatus? i = some .running ∨
      w.mailboxStatus? i = some .halted ∧ w.controller.scheduled = i + 1 ∧
        w.next? = some (.settle i r b) := by
  obtain ⟨a, found, mem⟩ := reaches
  rw [World.mailboxStatus?_of_found found]
  obtain ⟨s, _, stage⟩ := (h.actors i a found).stage
  cases stage with
  | working _ _ _ status => exact .inl (congrArg some status)
  | fresh thread | called _ thread | pausing _ thread | resting thread | retiring _ _ thread
  | gone thread =>
    rw [thread] at mem
    cases mem
  | halting turn thread status =>
    refine .inr ⟨congrArg some status, turn, ?_⟩
    rcases thread with thread | ⟨r', handled, thread⟩
    · rw [thread] at mem
      cases mem
    · rw [thread] at mem
      obtain ⟨rfl, e⟩ := Prod.mk.inj (List.mem_singleton.1 mem)
      obtain rfl := Sum.inr.inj e
      have own : w.thread? (.actor i) = some ⟨[.settle i r b, .cycle i], false⟩ := by
        simp [World.thread?, found, thread]
      exact World.next?_of_own turn own

/-- Each step takes a call at most one phase further. -/
theorem onward (h : Sound w) (h' : Sound w') (ledger : Ledger w.slots w)
    (slotStep : SlotStep w w') {a' : Actor} (there : w'.actors[i]? = some a')
    (found : w.actors[i]? = some a) (step : ActorStep w w' i a a') {p : CallPhase}
    (reaches : w.Reaches i r event p) :
    ∃ p', w'.Reaches i r event p' ∧ Onward w w' i r event p p' := by
  have tidy := (h.actors i a found).tidy
  have here : ∀ {P : Actor → Prop}, (∃ b, w.actors[i]? = some b ∧ P b) → P a := by
    rintro P ⟨b, hb, holds⟩
    obtain rfl := Option.some.inj (found.symm.trans hb)
    exact holds
  have quiet_of := fun other => ledger.not_consumes reaches (p := p) other
  have stays : (p ≠ .dispatched) → (∀ b, p ≠ .settling b) → Onward w w' i r event p p :=
    fun other unsettled => .stays (quiet_of other) fun b e => absurd e (unsettled b)
  cases p with
  | replied b =>
    exact ⟨.replied b, slotStep.replied?_of_some reaches, stays (by simp) (by simp)⟩
  | queued =>
    have mem := here reaches
    have quiet := quiet_of (by simp)
    have stay : ⟨event, some r⟩ ∈ a'.mailbox.queue →
        ∃ p', w'.Reaches i r event p' ∧ Onward w w' i r event .queued p' :=
      fun kept => ⟨.queued, ⟨a', there, kept⟩, stays (by simp) (by simp)⟩
    cases step with
    | holds kept => exact stay (kept.queue _ mem)
    | handles _ _ _ _ _ visited => exact stay (by rw [visited.1]; exact mem)
    | halts _ _ _ _ _ dues =>
      exact ⟨.replied false, ledger.replied_of_owed found dues (World.mem_owed_of_queue mem),
        .dropped quiet⟩
    | settles _ mailbox => exact stay (by rw [mailbox]; exact mem)
    | closes _ halted =>
      rw [tidy.queue halted] at mem
      cases mem
    | @selects taken discarded _ split after _ dues =>
      rcases List.mem_append.1 (split.mem_iff.2 mem) with mem | kept
      · rcases List.mem_append.1 mem with taken' | discarded'
        · exact ⟨.dispatched, ⟨a', there, after _ taken' r rfl⟩, .taken quiet⟩
        · have apart := (List.perm_append_comm_assoc discarded taken _).trans
            ((List.Perm.of_eq (List.append_assoc _ _ _).symm).trans split)
          have told := (ledger.replied_of_discarded found apart (.inl rfl) (by simpa using dues)).1
          exact ⟨.replied false, told _ _ discarded', .dropped quiet⟩
      · exact stay kept
    | idles _ split dues =>
      rcases List.mem_append.1 (split.mem_iff.2 mem) with discarded | kept
      · exact ⟨.replied false, (ledger.replied_of_discarded found split (.inr rfl) dues).1 _ _ discarded,
          .dropped quiet⟩
      · exact stay kept
  | dispatched =>
    have mem := here reaches
    cases step with
    | holds kept plain =>
      refine ⟨.dispatched, ⟨a', there, kept.charges _ mem⟩, .stays ?_ fun b e => by cases e⟩
      rintro ⟨turn, next, _⟩
      cases plain turn _ next
    | @handles event' r' handled turn next bound before after visited =>
      rw [before] at mem
      obtain ⟨rfl, e⟩ := World.charge_inj mem
      obtain rfl := Sum.inl.inj e
      have settling : w'.Reaches i r event' (.settling handled) :=
        ⟨a', there, by rw [after]; exact List.mem_cons_self⟩
      cases handled with
      | false =>
        refine ⟨.settling false, settling, .declined ?_⟩
        rintro ⟨_, _, b, binding, stack, hb, resolved⟩
        obtain rfl := Option.some.inj (found.symm.trans hb)
        exact absurd (bound.2 ⟨binding, stack, resolved⟩) (by simp)
      | true =>
        obtain ⟨binding, stack, resolved⟩ := bound.1 rfl
        refine ⟨.settling true, settling,
          .consumed ⟨turn, next, a, binding, stack, found, resolved⟩ ?_⟩
        have busy := h.running_of_dispatched reaches
        rw [World.mailboxStatus?_of_found found] at busy
        rw [World.mailboxStatus?_of_found there, visited.1, busy]
    | @halts event' r' turn next unbound before after =>
      rw [before] at mem
      obtain ⟨rfl, e⟩ := World.charge_inj mem
      obtain rfl := Sum.inl.inj e
      refine ⟨.settling false, ⟨a', there, by rw [after]; exact List.mem_cons_self⟩, .declined ?_⟩
      rintro ⟨_, _, b, binding, stack, hb, resolved⟩
      obtain rfl := Option.some.inj (found.symm.trans hb)
      exact unbound binding stack resolved
    | settles before | closes before =>
      rw [before] at mem
      cases List.mem_singleton.1 mem
    | selects before | idles before =>
      rw [before] at mem
      cases mem
  | settling b =>
    have mem := here reaches
    have quiet := quiet_of (by simp)
    cases step with
    | holds kept plain =>
      refine ⟨.settling b, ⟨a', there, kept.charges _ mem⟩, .stays quiet fun _ _ => ?_⟩
      rcases h.status_of_settling reaches with busy | ⟨_, turn, next⟩
      · exact busy
      · cases plain turn _ next
    | handles _ _ _ before | halts _ _ _ before =>
      rw [before] at mem
      cases (World.charge_inj mem).2
    | settles before mailbox pending =>
      rw [before] at mem
      obtain ⟨rfl, e⟩ := Prod.mk.inj (List.mem_singleton.1 mem)
      obtain rfl := Sum.inr.inj e
      have waits : w'.Reaches i r event (.pending b) :=
        ⟨a', there, by rw [pending]; exact List.mem_append_right _ List.mem_cons_self⟩
      refine ⟨.pending b, waits, .settled quiet ?_⟩
      have busy := h'.running_of_pending waits
      rw [World.mailboxStatus?_of_found there, mailbox] at busy
      rw [World.mailboxStatus?_of_found found, busy]
    | closes before halted dues =>
      rw [before] at mem
      obtain ⟨rfl, _⟩ := Prod.mk.inj (List.mem_singleton.1 mem)
      refine ⟨.replied false, ?_, .closed quiet ?_⟩
      · exact ledger.replied_of_dues dues List.mem_cons_self (by simp) (reaches.mem_slots (by simp))
      · rw [World.mailboxStatus?_of_found found, halted]
    | selects before | idles before =>
      rw [before] at mem
      cases mem
  | pending b =>
    have mem := here reaches
    have quiet := quiet_of (by simp)
    have stay : (r, b) ∈ a'.pending →
        ∃ p', w'.Reaches i r event p' ∧ Onward w w' i r event (.pending b) p' :=
      fun kept => ⟨.pending b, ⟨a', there, kept⟩, stays (by simp) (by simp)⟩
    cases step with
    | holds kept => exact stay (kept.pending _ mem)
    | handles _ _ _ _ _ visited => exact stay (by rw [visited.2]; exact mem)
    | halts _ _ _ _ _ dues status =>
      refine ⟨.replied false, ledger.replied_of_owed found dues (World.mem_owed_of_pending mem),
        .cut quiet ?_⟩
      rw [World.mailboxStatus?_of_found there, status]
    | settles _ _ pending => exact stay (by rw [pending]; exact List.mem_append_left _ mem)
    | closes _ halted =>
      rw [tidy.pending (by simp [halted])] at mem
      cases mem
    | selects _ _ _ pending => exact stay (by rw [pending]; exact mem)
    | idles _ split dues status =>
      refine ⟨.replied b, (ledger.replied_of_discarded found split (.inr rfl) dues).2 _ mem,
        .rested quiet ?_⟩
      rw [World.mailboxStatus?_of_found there, status]

end Sound

end SteeredActors
