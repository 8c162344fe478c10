import Mathlib.Data.List.Perm.Basic
import SteeredActors.ActiveState

/-!
# Selection

A scan of a queue loses nothing: every envelope is taken, discarded or left. With nothing taken, all
that is left was skipped.
-/

set_option autoImplicit false
set_option relaxedAutoImplicit false

namespace SteeredActors.Mailbox

/-- Every envelope of the queue is taken, discarded or left. -/
theorem perm_scan (verdict : EventType → Verdict) (queue : List Envelope) :
    queue.Perm ((scan verdict queue).taken.toList ++ (scan verdict queue).discarded
      ++ (scan verdict queue).remaining) := by
  induction queue with
  | nil => rfl
  | cons envelope rest ih =>
    unfold scan
    cases verdict envelope.event.type with
    | take => simp
    | skip =>
      refine (ih.cons envelope).trans ?_
      simp only
      exact List.perm_middle.symm
    | discard =>
      refine (ih.cons envelope).trans ?_
      simp only [List.append_assoc]
      exact List.perm_middle.symm

/-- What is left when nothing is taken was skipped. -/
theorem skip_of_mem_remaining {verdict : EventType → Verdict} {queue : List Envelope}
    (nothing : (scan verdict queue).taken = none) {envelope : Envelope}
    (left : envelope ∈ (scan verdict queue).remaining) :
    verdict envelope.event.type = .skip := by
  induction queue with
  | nil => cases left
  | cons first rest ih =>
    unfold scan at nothing left
    cases found : verdict first.event.type with
    | take =>
      rw [found] at nothing
      cases nothing
    | skip =>
      rw [found] at nothing left
      rcases List.mem_cons.1 left with rfl | left
      · exact found
      · exact ih nothing left
    | discard =>
      rw [found] at nothing left
      exact ih nothing left

/-- What is taken was to be taken. -/
theorem take_of_taken {verdict : EventType → Verdict} {queue : List Envelope} {envelope : Envelope}
    (taken : (scan verdict queue).taken = some envelope) :
    verdict envelope.event.type = .take := by
  induction queue with
  | nil => cases taken
  | cons first rest ih =>
    unfold scan at taken
    cases found : verdict first.event.type with
    | take =>
      rw [found] at taken
      obtain rfl := Option.some.inj taken
      exact found
    | skip | discard =>
      rw [found] at taken
      exact ih taken

/-- What is discarded was to be discarded. -/
theorem discard_of_mem_discarded {verdict : EventType → Verdict} {queue : List Envelope}
    {envelope : Envelope} (mem : envelope ∈ (scan verdict queue).discarded) :
    verdict envelope.event.type = .discard := by
  induction queue with
  | nil => cases mem
  | cons first rest ih =>
    unfold scan at mem
    cases found : verdict first.event.type with
    | take =>
      rw [found] at mem
      cases mem
    | skip =>
      rw [found] at mem
      exact ih mem
    | discard =>
      rw [found] at mem
      rcases List.mem_cons.1 mem with rfl | mem
      · exact found
      · exact ih mem

/-- No event overtakes one of its type: of each type, what leaves stood before what is left. -/
theorem filter_scan (verdict : EventType → Verdict) (queue : List Envelope) (type : EventType) :
    queue.filter (·.event.type = type) =
      ((scan verdict queue).discarded ++ (scan verdict queue).taken.toList).filter
          (·.event.type = type) ++
        (scan verdict queue).remaining.filter (·.event.type = type) := by
  induction queue with
  | nil => rfl
  | cons first rest ih =>
    unfold scan
    cases found : verdict first.event.type with
    | take =>
      simp only [Option.toList_some, List.nil_append, List.filter_cons, List.filter_nil]
      split <;> rfl
    | discard =>
      simp only [List.cons_append, List.filter_cons]
      split
      · rw [ih, List.cons_append]
      · exact ih
    | skip =>
      by_cases same : first.event.type = type
      · -- nothing of a type that is skipped leaves
        have none : ((scan verdict rest).discarded ++ (scan verdict rest).taken.toList).filter
            (·.event.type = type) = [] := by
          simp only [List.filter_eq_nil_iff, List.mem_append, Option.mem_toList, decide_eq_true_eq]
          rintro envelope (mem | taken) alike
          · have verdicts := discard_of_mem_discarded mem
            rw [alike, ← same, found] at verdicts
            cases verdicts
          · have verdicts := take_of_taken taken
            rw [alike, ← same, found] at verdicts
            cases verdicts
        simp only [none, List.nil_append, List.filter_cons, same, decide_true, if_true] at ih ⊢
        rw [ih]
      · simp only [List.filter_cons, same, decide_false, Bool.false_eq_true, if_false]
        exact ih

section Dequeue

variable {m : Mailbox} {verdict : EventType → Verdict} {hasDefault : Bool}
  {discarded : List Envelope} {m' : Mailbox}

/-- An actor that takes an event goes on. -/
theorem dequeue_event {envelope : Envelope}
    (h : m.dequeue verdict hasDefault = (.event envelope, discarded, m')) :
    m'.status = m.status ∧ m.queue.Perm (envelope :: (discarded ++ m'.queue)) := by
  have all := perm_scan verdict m.queue
  unfold dequeue at h
  cases taken : (scan verdict m.queue).taken with
  | some first =>
    simp only [taken, Prod.mk.injEq, Selected.event.injEq] at h
    obtain ⟨rfl, rfl, rfl⟩ := h
    rw [taken] at all
    exact ⟨rfl, by simpa using all⟩
  | none =>
    simp only [taken] at h
    split at h <;> cases h

theorem dequeue_default (h : m.dequeue verdict hasDefault = (.default, discarded, m')) :
    m'.status = m.status ∧ m.queue.Perm (discarded ++ m'.queue) ∧ hasDefault = true := by
  have all := perm_scan verdict m.queue
  unfold dequeue at h
  cases taken : (scan verdict m.queue).taken with
  | some first =>
    simp only [taken] at h
    cases h
  | none =>
    simp only [taken] at h
    split at h
    · next handles =>
      simp only [Prod.mk.injEq, true_and] at h
      obtain ⟨rfl, rfl⟩ := h
      rw [taken] at all
      exact ⟨rfl, by simpa using all, handles⟩
    · cases h

/-- An actor that finds nothing to do is idle, and skips what is left. -/
theorem dequeue_idle (h : m.dequeue verdict hasDefault = (.idle, discarded, m')) :
    m'.status = .idle ∧ m.queue.Perm (discarded ++ m'.queue) ∧ hasDefault = false ∧
      ∀ envelope ∈ m'.queue, verdict envelope.event.type = .skip := by
  have all := perm_scan verdict m.queue
  unfold dequeue at h
  cases taken : (scan verdict m.queue).taken with
  | some first =>
    simp only [taken] at h
    cases h
  | none =>
    simp only [taken] at h
    split at h
    · cases h
    · next handles =>
      simp only [Prod.mk.injEq, true_and] at h
      obtain ⟨rfl, rfl⟩ := h
      rw [taken] at all
      refine ⟨rfl, by simpa using all, by simpa using handles, ?_⟩
      intro envelope left
      exact skip_of_mem_remaining taken left

end Dequeue

/-! ## The whole selection -/

/-- What a selection finds, what it hands out to be dropped, and the mailbox it leaves. The queue is
read up to the first envelope to take, or to its end. What is to be discarded there is taken out,
and everything else keeps its place. -/
inductive Selects (verdict : EventType → Verdict) (hasDefault : Bool) (m : Mailbox) :
    Selected × List Envelope × Mailbox → Prop where
  | event {front back : List Envelope} {envelope : Envelope}
    (queue : m.queue = front ++ envelope :: back)
    (before : ∀ e ∈ front, verdict e.event.type ≠ .take)
    (takes : verdict envelope.event.type = .take) :
    Selects verdict hasDefault m
      (.event envelope, front.filter (verdict ·.event.type = .discard),
        { m with queue := front.filter (verdict ·.event.type ≠ .discard) ++ back })
  | default (nothing : ∀ e ∈ m.queue, verdict e.event.type ≠ .take) (handles : hasDefault = true) :
    Selects verdict hasDefault m
      (.default, m.queue.filter (verdict ·.event.type = .discard),
        { m with queue := m.queue.filter (verdict ·.event.type ≠ .discard) })
  | idle (nothing : ∀ e ∈ m.queue, verdict e.event.type ≠ .take) (lacks : hasDefault = false) :
    Selects verdict hasDefault m
      (.idle, m.queue.filter (verdict ·.event.type = .discard),
        { status := .idle, queue := m.queue.filter (verdict ·.event.type ≠ .discard) })

/-- A scan goes on behind what it does not take. -/
theorem scan_append {verdict : EventType → Verdict} {front : List Envelope}
    (before : ∀ e ∈ front, verdict e.event.type ≠ .take) (back : List Envelope) :
    scan verdict (front ++ back) =
      { taken := (scan verdict back).taken
        discarded := front.filter (verdict ·.event.type = .discard) ++ (scan verdict back).discarded
        remaining :=
          front.filter (verdict ·.event.type ≠ .discard) ++ (scan verdict back).remaining } := by
  induction front with
  | nil => rfl
  | cons first front ih =>
    obtain ⟨first_ne, before⟩ := List.forall_mem_cons.1 before
    rw [List.cons_append, scan, ih before]
    cases found : verdict first.event.type with
    | take => exact absurd found first_ne
    | skip | discard => simp [found]

/-- A queue holds a first envelope to take, or none. -/
theorem exists_first_take (verdict : EventType → Verdict) (queue : List Envelope) :
    (∀ e ∈ queue, verdict e.event.type ≠ .take) ∨
      ∃ front envelope back, queue = front ++ envelope :: back ∧
        (∀ e ∈ front, verdict e.event.type ≠ .take) ∧ verdict envelope.event.type = .take := by
  cases found : queue.find? (verdict ·.event.type = .take) with
  | none => exact .inl (by simpa using found)
  | some envelope =>
    obtain ⟨takes, front, back, split, before⟩ := List.find?_eq_some_iff_append.1 found
    exact .inr ⟨front, envelope, back, split, by simpa using before, by simpa using takes⟩

theorem selects_dequeue (verdict : EventType → Verdict) (hasDefault : Bool) (m : Mailbox) :
    m.Selects verdict hasDefault (m.dequeue verdict hasDefault) := by
  rcases exists_first_take verdict m.queue with
    nothing | ⟨front, envelope, back, queue, before, takes⟩
  · have scanned := scan_append nothing []
    rw [List.append_nil] at scanned
    simp only [dequeue, scanned, scan, List.append_nil]
    cases hasDefault with
    | true => exact .default nothing rfl
    | false => exact .idle nothing rfl
  · have scanned : scan verdict (envelope :: back) = ⟨some envelope, [], back⟩ := by
      rw [scan, takes]
    simp only [dequeue, queue, scan_append before, scanned, List.append_nil]
    exact .event queue before takes

end SteeredActors.Mailbox

namespace SteeredActors

/-- A state that drops an event stays on the stack. -/
theorem ne_nil_of_ignored {e : EventType} {stack stack' : List ActiveState}
    (h : resolveEvent e stack = .ignored stack') : stack' ≠ [] := by
  induction stack with
  | nil => cases h
  | cons top rest ih =>
    unfold resolveEvent at h
    split at h
    · cases h
      simp
    · split at h
      · cases h
      · exact ih h

/-- A state that consumes an event stays on the stack. -/
theorem ne_nil_of_bound {e : EventType} {stack stack' : List ActiveState} {binding : Binding}
    (h : resolveEvent e stack = .bound binding stack') : stack' ≠ [] := by
  induction stack with
  | nil => cases h
  | cons top rest ih =>
    unfold resolveEvent at h
    split at h
    · cases h
    · split at h
      · cases h
        simp
      · exact ih h

end SteeredActors
