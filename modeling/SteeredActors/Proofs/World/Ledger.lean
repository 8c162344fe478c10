import SteeredActors.Proofs.World.SoundRuns

/-!
# Replies that are due

The ledger of a world says which rendezvous are due: exactly those without a reply, each with a
waiter of its own, and the waiters are exactly the operations that are blocked. A reply strikes one
rendezvous off, and with it goes the block.
-/

set_option autoImplicit false
set_option relaxedAutoImplicit false

namespace SteeredActors

variable {σ : Type}

/-- Give several rendezvous their replies, in order. -/
def World.replyEach (w : World σ) (given : List (Nat × Bool)) : World σ :=
  given.foldl (fun w (r, handled) => w.reply r handled) w

/-- The reply of a rendezvous, once it is given. -/
def World.replied? (w : World σ) (r : Nat) : Option Bool := w.rendezvous[r]?.bind (·.reply)

/-- Somebody waits for the reply of a rendezvous, which is not given yet. -/
def World.Awaits (w : World σ) (op r : Nat) : Prop := w.rendezvous[r]? = some ⟨some op, none⟩

namespace World

variable (w : World σ)

@[simp] theorem replyEach_nil : w.replyEach [] = w := rfl

@[simp] theorem replyEach_cons (p : Nat × Bool) (given : List (Nat × Bool)) :
    w.replyEach (p :: given) = (w.reply p.1 p.2).replyEach given := rfl

theorem replyEach_append (first second : List (Nat × Bool)) :
    w.replyEach (first ++ second) = (w.replyEach first).replyEach second := by
  simp [replyEach, List.foldl_append]

theorem replyAll_eq (rs : List Nat) (handled : Bool) :
    w.replyAll rs handled = w.replyEach (rs.map (·, handled)) := by
  simp [replyAll, replyEach, List.foldl_map]

/-- The rendezvous after one reply: a reply that was given before stays. -/
theorem rendezvous_reply (r : Nat) (handled : Bool) (r' : Nat) :
    (w.reply r handled).rendezvous[r']? =
      if r' = r then w.rendezvous[r]?.map fun z => ⟨z.waiter, some (z.reply.getD handled)⟩
      else w.rendezvous[r']? := by
  have set : ∀ z, w.rendezvous[r]? = some z → ∀ z',
      (w.rendezvous.set r z')[r']? = if r' = r then some z' else w.rendezvous[r']? := by
    intro z hz z'
    have lt := (List.getElem?_eq_some_iff.1 hz).1
    rw [List.getElem?_set]
    by_cases e : r' = r
    · subst e
      simp [lt]
    · have e' : r ≠ r' := fun h => e h.symm
      simp [e, e']
  unfold reply
  split
  · next waiter found =>
    rw [found]
    cases waiter with
    | none => simpa using set _ found ⟨none, some handled⟩
    | some op => simpa using set _ found ⟨some op, some handled⟩
  · next other =>
    by_cases e : r' = r
    · subst e
      rw [if_pos rfl]
      cases found : w.rendezvous[r']? with
      | none => rfl
      | some z =>
        obtain ⟨waiter, reply⟩ := z
        cases reply with
        | none => exact absurd found (other waiter)
        | some b => rfl
    · rw [if_neg e]

theorem length_reply (r : Nat) (handled : Bool) :
    (w.reply r handled).rendezvous.length = w.rendezvous.length := by
  unfold reply
  split
  · next waiter _ => cases waiter <;> simp
  · rfl

theorem length_replyEach (given : List (Nat × Bool)) :
    (w.replyEach given).rendezvous.length = w.rendezvous.length := by
  induction given generalizing w with
  | nil => rfl
  | cons p given ih =>
    rw [replyEach_cons, ih]
    exact w.length_reply p.1 p.2

/-- A reply that was given stays. -/
theorem replied?_reply_of_some {r' : Nat} {b : Bool} (given : w.replied? r' = some b) (r : Nat)
    (handled : Bool) : (w.reply r handled).replied? r' = some b := by
  obtain ⟨z, found, reply⟩ := Option.bind_eq_some_iff.1 given
  rw [replied?, rendezvous_reply]
  split
  · next e =>
    subst e
    simp [found, reply]
  · simp [found, reply]

theorem replied?_replyEach_of_some {r : Nat} {b : Bool} (given : w.replied? r = some b)
    (more : List (Nat × Bool)) : (w.replyEach more).replied? r = some b := by
  induction more generalizing w with
  | nil => exact given
  | cons p more ih => exact ih _ (w.replied?_reply_of_some given p.1 p.2)

/-- Replies concern the rendezvous they are given to. -/
theorem rendezvous_replyEach_of_not_mem {r : Nat} {given : List (Nat × Bool)}
    (other : r ∉ given.map (·.1)) :
    (w.replyEach given).rendezvous[r]? = w.rendezvous[r]? := by
  induction given generalizing w with
  | nil => rfl
  | cons p given ih =>
    simp only [List.map_cons, List.mem_cons, not_or] at other
    rw [replyEach_cons, ih _ other.2, rendezvous_reply, if_neg other.1]

/-- Who is due a reply gets the one that stands for it. -/
theorem replied?_replyEach_of_mem {r : Nat} {b : Bool} {given : List (Nat × Bool)}
    (mem : (r, b) ∈ given) (once : (given.map (·.1)).Nodup) {op : Nat} (due : w.Awaits op r) :
    (w.replyEach given).replied? r = some b := by
  induction given generalizing w with
  | nil => cases mem
  | cons p given ih =>
    obtain ⟨fresh, once⟩ := List.nodup_cons.1 once
    rw [replyEach_cons]
    rcases List.mem_cons.1 mem with rfl | mem
    · refine replied?_replyEach_of_some _ ?_ given
      rw [replied?, rendezvous_reply, if_pos rfl, due]
      rfl
    · refine ih _ mem once ?_
      have ne : r ≠ p.1 := by
        rintro rfl
        exact fresh (List.mem_map.2 ⟨_, mem, rfl⟩)
      rw [Awaits, rendezvous_reply, if_neg ne]
      exact due

/-- Who was blocked for a reply goes on when it is given; everyone else is as before. -/
theorem blocked_reply (r : Nat) (handled : Bool) (op : Nat) :
    (w.reply r handled).controller.status? op = some .blocked ↔
      w.controller.status? op = some .blocked ∧ ¬w.Awaits op r := by
  unfold reply
  split
  · next waiter found =>
    cases waiter with
    | none => simp [Awaits, found]
    | some op' =>
      simp only [Controller.unblock, Controller.status?_setStatus, Awaits, found, Option.some.injEq,
        Rendezvous.mk.injEq, and_true]
      cases w.controller.status? op with
      | none => simp
      | some s =>
        by_cases e : op = op'
        · subst e
          cases s <;> simp
        · have e' : op' ≠ op := fun h => e h.symm
          simp [e, e']
  · next other =>
    have : ¬w.Awaits op r := fun h => other _ h
    simp [this]

end World

/-! ## The ledger -/

/-- The rendezvous that are due, the rendezvous without a reply and the blocked operations belong
together. -/
structure Ledger (due : List Nat) (w : World σ) : Prop where
  nodup : due.Nodup
  awaited : ∀ r ∈ due, ∃ op, w.Awaits op r
  complete : ∀ r waiter, w.rendezvous[r]? = some ⟨waiter, none⟩ → r ∈ due
  blocked : ∀ op, w.controller.status? op = some .blocked ↔ ∃ r, w.Awaits op r
  unique : ∀ op r r', w.Awaits op r → w.Awaits op r' → r = r'

/-- The rendezvous are the same, and the same operations are blocked. -/
structure SameDues (w w' : World σ) : Prop where
  rendezvous : w'.rendezvous = w.rendezvous
  blocked : ∀ op, w'.controller.status? op = some .blocked ↔
    w.controller.status? op = some .blocked

namespace SameDues

variable {w w₁ w₂ : World σ}

theorem refl (w : World σ) : SameDues w w := ⟨rfl, fun _ => Iff.rfl⟩

theorem trans (h : SameDues w w₁) (k : SameDues w₁ w₂) : SameDues w w₂ :=
  ⟨k.rendezvous.trans h.rendezvous, fun op => (k.blocked op).trans (h.blocked op)⟩

theorem of_parts (rendezvous : w₁.rendezvous = w.rendezvous)
    (status : ∀ op, w₁.controller.status? op = w.controller.status? op) : SameDues w w₁ :=
  ⟨rendezvous, fun op => by rw [status]⟩

theorem of_frame {t : ThreadId} (frame : Frame t w w₁) : SameDues w w₁ :=
  of_parts frame.rendezvous frame.controller.toSameOperations.status?

theorem setThread (w : World σ) (t : ThreadId) (thread : Thread) :
    SameDues w (w.setThread t thread) := by
  cases t <;> exact of_parts rfl fun _ => rfl

theorem modifyActor (w : World σ) (i : Nat) (f : Actor → Actor) :
    SameDues w (w.modifyActor i f) := of_parts rfl fun _ => rfl

theorem observe (w : World σ) (event : LifecycleEvent) : SameDues w (w.observe event) := by
  unfold World.observe
  split <;> exact of_parts rfl fun _ => rfl

/-- Nobody is blocked or unblocked by another change of status. -/
theorem setStatus (w : World σ) {op : Nat} {old : List OperationStatus} {new : OperationStatus}
    (neither : .blocked ∉ old ∨ w.controller.status? op ≠ some .blocked) (other : new ≠ .blocked) :
    SameDues w { w with controller := w.controller.setStatus op old new } := by
  refine ⟨rfl, ?_⟩
  intro o
  simp only [Controller.status?_setStatus]
  cases status : w.controller.status? o with
  | none => simp
  | some s =>
    by_cases moved : o = op ∧ s ∈ old
    · have : s ≠ .blocked := by
        rintro rfl
        rcases neither with h | h
        · exact h moved.2
        · rw [← moved.1] at h
          exact h status
      simp [if_pos moved, other, this]
    · rw [Option.map_some, if_neg moved]

end SameDues

/-- The same replies leave the same dues. -/
theorem SameDues.replyEach {w w' : World σ} (same : SameDues w w') (given : List (Nat × Bool)) :
    SameDues (w.replyEach given) (w'.replyEach given) := by
  induction given generalizing w w' with
  | nil => exact same
  | cons p given ih =>
    refine ih ⟨?_, ?_⟩
    · apply List.ext_getElem?
      intro r
      rw [World.rendezvous_reply, World.rendezvous_reply, same.rendezvous]
    · intro op
      rw [World.blocked_reply, World.blocked_reply, same.blocked, World.Awaits, World.Awaits,
        same.rendezvous]

/-- A rendezvous is opened, and the operation that waits for it is blocked. -/
structure Opens (op : Nat) (w w' : World σ) : Prop where
  rendezvous : w'.rendezvous = w.rendezvous ++ [⟨some op, none⟩]
  blocked : ∀ o, w'.controller.status? o = some .blocked ↔
    o = op ∨ w.controller.status? o = some .blocked

namespace Opens

variable {w w₁ w₂ : World σ} {op : Nat}

theorem trans (opens : Opens op w w₁) (same : SameDues w₁ w₂) : Opens op w w₂ :=
  ⟨same.rendezvous.trans opens.rendezvous, fun o => (same.blocked o).trans (opens.blocked o)⟩

/-- Whoever has work waits for a rendezvous that is there. -/
theorem blockCaller (explores : w₁.explores = true)
    (enabled : w₁.controller.status? op = some .enabled)
    (rendezvous : w₁.rendezvous = w.rendezvous ++ [⟨some op, none⟩])
    (blocked : ∀ o, w₁.controller.status? o = some .blocked ↔
      w.controller.status? o = some .blocked) : Opens op w (w₁.blockCaller (some op)) := by
  refine ⟨?_, ?_⟩
  · simp only [World.blockCaller, explores, if_true]
    exact rendezvous
  · intro o
    rw [← blocked]
    simp only [World.blockCaller, explores, if_true, Controller.block, Controller.status?_setStatus]
    by_cases e : o = op
    · subst e
      simp [enabled]
    · cases w₁.controller.status? o <;> simp [e]

end Opens

namespace Ledger

variable {due due' : List Nat} {w w' : World σ}

theorem perm (h : Ledger due w) (perm : due.Perm due') : Ledger due' w :=
  ⟨perm.nodup_iff.1 h.nodup, fun r hr => h.awaited r (perm.mem_iff.2 hr),
    fun r waiter found => perm.mem_iff.1 (h.complete r waiter found), h.blocked, h.unique⟩

theorem of_same (h : Ledger due w) (same : SameDues w w') : Ledger due w' := by
  have awaits : ∀ op r, w'.Awaits op r ↔ w.Awaits op r := by
    intro op r
    rw [World.Awaits, World.Awaits, same.rendezvous]
  refine ⟨h.nodup, ?_, ?_, ?_, ?_⟩
  · intro r hr
    obtain ⟨op, due⟩ := h.awaited r hr
    exact ⟨op, (awaits op r).2 due⟩
  · intro r waiter found
    rw [same.rendezvous] at found
    exact h.complete r waiter found
  · intro op
    rw [same.blocked, h.blocked]
    exact exists_congr fun r => (awaits op r).symm
  · intro op r r' first second
    exact h.unique op r r' ((awaits op r).1 first) ((awaits op r').1 second)

/-- A reply strikes a rendezvous off. -/
theorem reply {r : Nat} (h : Ledger (r :: due) w) (handled : Bool) :
    Ledger due (w.reply r handled) := by
  obtain ⟨fresh, nodup⟩ := List.nodup_cons.1 h.nodup
  have awaits : ∀ op r', (w.reply r handled).Awaits op r' ↔ r' ≠ r ∧ w.Awaits op r' := by
    intro op r'
    rw [World.Awaits, World.rendezvous_reply]
    by_cases e : r' = r
    · subst e
      cases w.rendezvous[r']? <;> simp
    · simp [e, World.Awaits]
  refine ⟨nodup, ?_, ?_, ?_, ?_⟩
  · intro r' hr'
    obtain ⟨op, due⟩ := h.awaited r' (List.mem_cons_of_mem _ hr')
    exact ⟨op, (awaits op r').2 ⟨fun e => fresh (e ▸ hr'), due⟩⟩
  · intro r' waiter found
    rw [World.rendezvous_reply] at found
    by_cases e : r' = r
    · rw [if_pos e] at found
      cases there : w.rendezvous[r]? <;> simp [there] at found
    · rw [if_neg e] at found
      rcases List.mem_cons.1 (h.complete r' waiter found) with e' | hr'
      · exact absurd e' e
      · exact hr'
  · intro op
    rw [World.blocked_reply, h.blocked]
    constructor
    · rintro ⟨⟨r', due⟩, other⟩
      exact ⟨r', (awaits op r').2 ⟨fun e => other (e ▸ due), due⟩⟩
    · rintro ⟨r', due'⟩
      obtain ⟨ne, due⟩ := (awaits op r').1 due'
      exact ⟨⟨r', due⟩, fun other => ne (h.unique op r' r due other)⟩
  · intro op r₁ r₂ first second
    exact h.unique op r₁ r₂ ((awaits op r₁).1 first).2 ((awaits op r₂).1 second).2

theorem replyEach {given : List (Nat × Bool)} (h : Ledger (given.map (·.1) ++ due) w) :
    Ledger due (w.replyEach given) := by
  induction given generalizing w with
  | nil => exact h
  | cons p given ih => exact ih (h.reply p.2)

/-- A new rendezvous is due, and whoever waits for it is blocked. -/
theorem opens (h : Ledger due w) {op : Nat} (enabled : w.controller.status? op = some .enabled)
    (opens : Opens op w w') : Ledger (w.rendezvous.length :: due) w' := by
  have idle : ∀ r, ¬w.Awaits op r := by
    intro r due
    have := (h.blocked op).2 ⟨r, due⟩
    rw [enabled] at this
    cases this
  have awaits : ∀ o r, w'.Awaits o r ↔ o = op ∧ r = w.rendezvous.length ∨ w.Awaits o r := by
    intro o r
    rw [World.Awaits, opens.rendezvous, World.Awaits]
    by_cases lt : r < w.rendezvous.length
    · rw [List.getElem?_append_left lt]
      have : r ≠ w.rendezvous.length := by omega
      simp [this]
    · have outside : w.rendezvous[r]? = none := by simpa using Nat.le_of_not_lt lt
      rw [List.getElem?_append_right (Nat.le_of_not_lt lt), outside]
      by_cases e : r = w.rendezvous.length
      · subst e
        simp [eq_comm]
      · have : r - w.rendezvous.length ≠ 0 := by omega
        simp [e, this]
  have older : ∀ r ∈ due, r < w.rendezvous.length := by
    intro r hr
    obtain ⟨o, there⟩ := h.awaited r hr
    exact (List.getElem?_eq_some_iff.1 there).1
  refine ⟨?_, ?_, ?_, ?_, ?_⟩
  · refine List.nodup_cons.2 ⟨?_, h.nodup⟩
    intro hr
    exact Nat.lt_irrefl _ (older _ hr)
  · intro r hr
    rcases List.mem_cons.1 hr with rfl | hr
    · exact ⟨op, (awaits op _).2 (.inl ⟨rfl, rfl⟩)⟩
    · obtain ⟨o, there⟩ := h.awaited r hr
      exact ⟨o, (awaits o r).2 (.inr there)⟩
  · intro r waiter found
    rw [opens.rendezvous] at found
    by_cases lt : r < w.rendezvous.length
    · rw [List.getElem?_append_left lt] at found
      exact List.mem_cons_of_mem _ (h.complete r waiter found)
    · have bound := (List.getElem?_eq_some_iff.1 found).1
      rw [List.length_append, List.length_singleton] at bound
      have : r = w.rendezvous.length := by omega
      exact this ▸ List.mem_cons_self
  · intro o
    rw [opens.blocked, h.blocked]
    constructor
    · rintro (rfl | ⟨r, there⟩)
      · exact ⟨_, (awaits o _).2 (.inl ⟨rfl, rfl⟩)⟩
      · exact ⟨r, (awaits o r).2 (.inr there)⟩
    · rintro ⟨r, there⟩
      rcases (awaits o r).1 there with ⟨rfl, _⟩ | there
      · exact .inl rfl
      · exact .inr ⟨r, there⟩
  · intro o r r' first second
    rcases (awaits o r).1 first with ⟨rfl, rfl⟩ | due₁
    · rcases (awaits o r').1 second with ⟨_, rfl⟩ | due₂
      · rfl
      · exact absurd due₂ (idle r')
    · rcases (awaits o r').1 second with ⟨rfl, _⟩ | due₂
      · exact absurd due₁ (idle r)
      · exact h.unique o r r' due₁ due₂

end Ledger

end SteeredActors
