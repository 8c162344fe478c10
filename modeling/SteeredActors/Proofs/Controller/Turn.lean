import SteeredActors.Controller.Basic
import Mathlib.Data.List.Nodup

/-!
# Statuses and the turn

What the calls of a controller do to the statuses of its operations, and what a decision does: it
leaves every status alone, and the next holder of the turn is enabled unless the run has ended.
-/

set_option autoImplicit false
set_option relaxedAutoImplicit false

namespace SteeredActors.Controller

variable {σ : Type}

/-! ## Statuses -/

/-- Every operation number occurs once. -/
def Numbered (c : Controller σ) : Prop := (c.operations.map (·.id)).Nodup

/-- A change of status concerns one operation only. -/
theorem status?_setStatus (c : Controller σ) (op o : Nat) (old : List OperationStatus)
    (new : OperationStatus) :
    (c.setStatus op old new).status? o =
      (c.status? o).map fun s => if o = op ∧ s ∈ old then new else s := by
  unfold status? setStatus
  simp only [List.find?_map]
  have same : ((fun x : Operation => x.id == o) ∘ fun x =>
      if x.id = op ∧ x.status ∈ old then { x with status := new } else x) = (·.id == o) := by
    funext x
    by_cases hx : x.id = op ∧ x.status ∈ old <;> simp [hx]
  rw [same]
  cases found : c.operations.find? (·.id == o) with
  | none => rfl
  | some x =>
    have hx : x.id = o := by simpa using List.find?_some found
    subst hx
    by_cases h : x.id = op ∧ x.status ∈ old <;> simp [h]

theorem ids_setStatus (c : Controller σ) (op : Nat) (old : List OperationStatus)
    (new : OperationStatus) :
    (c.setStatus op old new).operations.map (·.id) = c.operations.map (·.id) := by
  simp only [setStatus, List.map_map]
  apply List.map_congr_left
  intro x _
  by_cases h : x.id = op ∧ x.status ∈ old <;> simp [h]

/-- The other parts of a controller stay when a status changes. -/
@[simp] theorem outcome_setStatus (c : Controller σ) (op : Nat) (old : List OperationStatus)
    (new : OperationStatus) : (c.setStatus op old new).outcome = c.outcome := rfl

@[simp] theorem scheduled_setStatus (c : Controller σ) (op : Nat) (old : List OperationStatus)
    (new : OperationStatus) : (c.setStatus op old new).scheduled = c.scheduled := rfl

/-- An operation has a status exactly when its number occurs. -/
theorem status?_eq_none_iff (c : Controller σ) (op : Nat) :
    c.status? op = none ↔ op ∉ c.operations.map (·.id) := by
  simp [status?, List.find?_eq_none]

private theorem status?_of_mem {c : Controller σ} (numbered : c.Numbered) {x : Operation}
    (hx : x ∈ c.operations) : c.status? x.id = some x.status := by
  unfold status?
  cases found : c.operations.find? (·.id == x.id) with
  | none =>
    have := List.find?_eq_none.1 found x hx
    simp at this
  | some y =>
    have hy : y ∈ c.operations := List.mem_of_find?_eq_some found
    have same : y.id = x.id := by simpa using List.find?_some found
    have : y = x := List.inj_on_of_nodup_map numbered hy hx same
    rw [this]
    rfl

/-- The operations with a status are those whose status it is. -/
theorem mem_withStatus_iff {c : Controller σ} (numbered : c.Numbered) (s : OperationStatus)
    (op : Nat) : (∃ x ∈ c.withStatus s, x.id = op) ↔ c.status? op = some s := by
  constructor
  · rintro ⟨x, hx, rfl⟩
    obtain ⟨hx, hs⟩ := List.mem_filter.1 hx
    rw [status?_of_mem numbered hx]
    simpa using hs
  · intro h
    obtain ⟨x, found, hs⟩ := Option.map_eq_some_iff.1 h
    have hx : x ∈ c.operations := List.mem_of_find?_eq_some found
    have same : x.id = op := by simpa using List.find?_some found
    exact ⟨x, List.mem_filter.2 ⟨hx, by simpa using hs⟩, same⟩

theorem mem_enabledIds_iff {c : Controller σ} (numbered : c.Numbered) (op : Nat) :
    op ∈ c.enabledIds ↔ c.status? op = some .enabled := by
  rw [← mem_withStatus_iff numbered]
  simp [enabledIds]

theorem status?_register (c : Controller σ) (name : String) (op : Nat)
    (fresh : c.nextId ∉ c.operations.map (·.id)) :
    (c.register name).2.status? op = if op = c.nextId then some .enabled else c.status? op := by
  simp only [register, status?, List.find?_append]
  by_cases h : op = c.nextId
  · subst h
    have none : c.operations.find? (·.id == c.nextId) = none := by
      simpa [List.find?_eq_none] using fresh
    simp [none]
  · have : (c.nextId == op) = false := by simpa using fun e => h e.symm
    cases c.operations.find? (·.id == op) <;> simp [h, this]

/-- Some who waited for a reply have it; nothing else has changed. -/
structure Frees (c d : Controller σ) : Prop where
  mode : d.mode = c.mode
  ids : d.operations.map (·.id) = c.operations.map (·.id)
  nextId : d.nextId = c.nextId
  scheduled : d.scheduled = c.scheduled
  status : ∀ op, d.status? op = c.status? op ∨
    c.status? op = some .blocked ∧ d.status? op = some .enabled

namespace Frees

variable {c d e : Controller σ}

theorem refl (c : Controller σ) : Frees c c := ⟨rfl, rfl, rfl, rfl, fun _ => .inl rfl⟩

theorem trans (h : Frees c d) (k : Frees d e) : Frees c e := by
  refine ⟨k.mode.trans h.mode, k.ids.trans h.ids, k.nextId.trans h.nextId,
    k.scheduled.trans h.scheduled, ?_⟩
  intro op
  rcases h.status op with same | ⟨blocked, enabled⟩
  · rw [← same]
    exact k.status op
  · rcases k.status op with same | ⟨blocked', _⟩
    · exact .inr ⟨blocked, same.trans enabled⟩
    · rw [enabled] at blocked'
      cases blocked'

/-- Who has work keeps it. -/
theorem enabled (h : Frees c d) {op : Nat} (enabled : c.status? op = some .enabled) :
    d.status? op = some .enabled := by
  rcases h.status op with same | ⟨blocked, _⟩
  · exact same.trans enabled
  · rw [enabled] at blocked
    cases blocked

theorem unblock (c : Controller σ) (op : Nat) : Frees c (c.unblock op) := by
  refine ⟨rfl, c.ids_setStatus op _ _, rfl, rfl, ?_⟩
  intro o
  rw [Controller.unblock, status?_setStatus]
  cases c.status? o with
  | none => exact .inl rfl
  | some s =>
    by_cases h : o = op ∧ s ∈ [OperationStatus.blocked]
    · obtain rfl : s = .blocked := by simpa using h.2
      exact .inr ⟨rfl, by simp [h.1]⟩
    · exact .inl (by simp only [Option.map_some, if_neg h])

end Frees

/-! ## Ends of a run -/

/-- The end of a run touches nothing but the outcome. -/
theorem finish_eq (c : Controller σ) (outcome : Outcome) :
    ∃ o, c.finish outcome = { c with outcome := some o } := by
  unfold finish
  cases h : c.outcome with
  | some o => exact ⟨o, by simp [← h]⟩
  | none => cases outcome <;> exact ⟨_, rfl⟩

theorem isOver_finish (c : Controller σ) (outcome : Outcome) :
    (c.finish outcome).isOver = true := by
  obtain ⟨o, h⟩ := c.finish_eq outcome
  rw [h]
  rfl

/-- The first outcome is kept. -/
theorem finish_of_isOver {c : Controller σ} (h : c.isOver = true) (outcome : Outcome) :
    c.finish outcome = c := by
  obtain ⟨o, ho⟩ := Option.isSome_iff_exists.1 h
  simp [finish, ho]

theorem finishIdle_eq (c : Controller σ) : ∃ o, c.finishIdle = { c with outcome := some o } := by
  unfold finishIdle
  cases c.withStatus .blocked with
  | nil => exact c.finish_eq _
  | cons => exact c.finish_eq _

/-- Only the end of a run cancels those who wait. -/
theorem passage_eq_canceled_iff {c : Controller σ} {op : Nat} :
    c.passage op = .canceled ↔ c.isOver = true := by
  unfold passage
  constructor
  · intro canceled
    by_contra running
    rw [if_neg running] at canceled
    cases mode : c.mode <;> rw [mode] at canceled <;> simp only at canceled <;>
      split at canceled <;> cases canceled
  · intro ceased
    rw [if_pos ceased]

/-- While decisions are explored, the holder of the turn goes on and everyone else waits. -/
theorem passage_eq {c : Controller σ} (explores : c.mode = .exploration)
    (running : c.isOver = false) (op : Nat) :
    c.passage op = if c.scheduled = op then .passed else .waits := by
  unfold passage
  simp [running, explores]

/-! ## Decisions -/

variable [Strategy σ]

/-- What a decision leaves alone. -/
structure SameOperations (c d : Controller σ) : Prop where
  mode : d.mode = c.mode
  maxSteps : d.maxSteps = c.maxSteps
  operations : d.operations = c.operations
  nextId : d.nextId = c.nextId

omit [Strategy σ] in
theorem SameOperations.status? {c d : Controller σ} (h : SameOperations c d) (op : Nat) :
    d.status? op = c.status? op := by
  unfold Controller.status?
  rw [h.operations]

omit [Strategy σ] in
private theorem sameOperations_assign (c : Controller σ) (kind : PointKind) (enabled : List Nat)
    (answer : Except Divergence Nat) : SameOperations c (c.assign kind enabled answer) := by
  unfold assign
  cases answer with
  | ok chosen =>
    simp only
    split
    · exact ⟨rfl, rfl, rfl, rfl⟩
    · obtain ⟨o, h⟩ := c.finish_eq (.diverged
        (Divergence.message ⟨c.recorded.length, s!"operation {chosen} is not enabled"⟩))
      simp only [diverge, h]
      exact ⟨rfl, rfl, rfl, rfl⟩
  | error d =>
    obtain ⟨o, h⟩ := c.finish_eq (.diverged d.message)
    simp only [diverge, h]
    exact ⟨rfl, rfl, rfl, rfl⟩

private theorem askOperation_eq (c : Controller σ) (kind : PointKind) (current : Nat)
    (enabled : List Nat) :
    ∃ s, (c.askOperation kind current enabled).2 = { c with strategy := s } := by
  unfold askOperation
  cases h : c.strategy with
  | none => exact ⟨none, by simp [← h]⟩
  | some s => exact ⟨_, rfl⟩

/-- A decision changes no status. -/
theorem sameOperations_advance (c : Controller σ) (current : Nat) (kind : PointKind) :
    SameOperations c (c.advance current kind) := by
  unfold advance
  simp only
  split
  · obtain ⟨o, h⟩ := c.finishIdle_eq
    rw [h]
    exact ⟨rfl, rfl, rfl, rfl⟩
  · split
    · obtain ⟨o, h⟩ := ({ c with steps := c.steps + 1 } : Controller σ).finish_eq .boundReached
      rw [h]
      exact ⟨rfl, rfl, rfl, rfl⟩
    · obtain ⟨s, h⟩ := ({ c with steps := c.steps + 1 } : Controller σ).askOperation_eq kind current
        c.enabledIds
      have same := sameOperations_assign
        (({ c with steps := c.steps + 1 } : Controller σ).askOperation kind current c.enabledIds).2
        kind c.enabledIds
        (({ c with steps := c.steps + 1 } : Controller σ).askOperation kind current c.enabledIds).1
      rw [h] at same ⊢
      exact ⟨same.mode, same.maxSteps, same.operations, same.nextId⟩

theorem sameOperations_schedule (c : Controller σ) (op : Nat) (kind : PointKind) :
    SameOperations c (c.schedule op kind).2 := by
  unfold schedule
  split
  · exact ⟨rfl, rfl, rfl, rfl⟩
  · split
    · exact ⟨rfl, rfl, rfl, rfl⟩
    · split
      · exact ⟨rfl, rfl, rfl, rfl⟩
      · exact sameOperations_advance c op kind

omit [Strategy σ] in
private theorem scheduled_assign {c : Controller σ} {kind : PointKind} {enabled : List Nat}
    {answer : Except Divergence Nat} (goesOn : (c.assign kind enabled answer).isOver = false) :
    (c.assign kind enabled answer).scheduled ∈ enabled := by
  cases answer with
  | ok chosen =>
    simp only [assign] at goesOn ⊢
    split at goesOn
    · next h =>
      rw [if_pos h]
      simpa using h
    · simp only [diverge, isOver_finish] at goesOn
      cases goesOn
  | error d =>
    simp only [assign, diverge, isOver_finish] at goesOn
    cases goesOn

/-- Unless a decision ends the run, it gives the turn to an enabled operation. -/
theorem scheduled_advance {c : Controller σ} {current : Nat} {kind : PointKind}
    (goesOn : (c.advance current kind).isOver = false) :
    (c.advance current kind).scheduled ∈ c.enabledIds := by
  unfold advance at goesOn ⊢
  simp only at goesOn ⊢
  split at goesOn
  · obtain ⟨o, h⟩ := c.finishIdle_eq
    rw [h] at goesOn
    cases goesOn
  · next nonempty =>
    rw [if_neg nonempty]
    split at goesOn
    · rw [isOver_finish] at goesOn
      cases goesOn
    · next within =>
      rw [if_neg within]
      exact scheduled_assign goesOn

omit [Strategy σ] in
private theorem outcome_assign {c : Controller σ} (running : c.isOver = false) {kind : PointKind}
    {enabled : List Nat} {answer : Except Divergence Nat} {outcome : Outcome}
    (ended : (c.assign kind enabled answer).outcome = some outcome) :
    outcome.isDiverged = true := by
  have none : c.outcome = none := by simpa [isOver] using running
  cases answer with
  | ok chosen =>
    simp only [assign] at ended
    split at ended
    · simp [record, none] at ended
    · simp only [diverge, finish, none, Option.some.injEq] at ended
      rw [← ended]
      rfl
  | error d =>
    simp only [assign, diverge, finish, none, Option.some.injEq] at ended
    rw [← ended]
    rfl

/-- A decision that ends the run without bound or divergence found nothing enabled. -/
theorem enabledIds_of_outcome {c : Controller σ} (running : c.isOver = false) {current : Nat}
    {kind : PointKind} {outcome : Outcome}
    (ended : (c.advance current kind).outcome = some outcome) (within : outcome ≠ .boundReached)
    (follows : outcome.isDiverged = false) :
    c.enabledIds = [] ∧ (c.advance current kind) = c.finishIdle := by
  have none : c.outcome = none := by simpa [isOver] using running
  by_cases idle : c.enabledIds.isEmpty = true
  · refine ⟨by simpa using idle, ?_⟩
    simp [advance, idle]
  · unfold advance at ended
    simp only [idle] at ended
    split at ended
    · next e => cases e
    split at ended
    · simp only [finish, none, Option.some.injEq] at ended
      exact absurd ended.symm within
    · obtain ⟨s, asked⟩ := ({ c with steps := c.steps + 1 } : Controller σ).askOperation_eq kind
        current c.enabledIds
      have diverged := outcome_assign (by rw [asked]; exact running) ended
      rw [follows] at diverged
      cases diverged

/-- The next holder of the turn has work. -/
theorem enabled_advance {c : Controller σ} (numbered : c.Numbered) {current : Nat}
    {kind : PointKind} (goesOn : (c.advance current kind).isOver = false) :
    (c.advance current kind).status? (c.advance current kind).scheduled = some .enabled := by
  rw [(c.sameOperations_advance current kind).status?]
  exact (mem_enabledIds_iff numbered _).1 (scheduled_advance goesOn)

/-- After a scheduling point of a known operation the holder of the turn has work. -/
theorem enabled_schedule {c : Controller σ} (numbered : c.Numbered)
    (explores : c.mode = .exploration) {op : Nat} {s : OperationStatus}
    (known : c.status? op = some s) {kind : PointKind}
    (goesOn : (c.schedule op kind).2.isOver = false) :
    (c.schedule op kind).2.status? (c.schedule op kind).2.scheduled = some .enabled := by
  have running : c.isOver = false := by
    by_contra ceased
    have ceased : c.isOver = true := by simpa using ceased
    have same : (c.schedule op kind).2 = c := by simp [schedule, ceased]
    rw [same, ceased] at goesOn
    cases goesOn
  have advanced : (c.schedule op kind).2 = c.advance op kind := by
    simp [schedule, running, explores, known]
  rw [advanced] at goesOn ⊢
  exact enabled_advance numbered goesOn

/-- After the end of the holder of the turn the next one has work. -/
theorem enabled_complete {c : Controller σ} (numbered : c.Numbered)
    (explores : c.mode = .exploration) {op : Nat} (turn : c.scheduled = op) {kind : PointKind}
    (goesOn : (c.complete op kind).isOver = false) :
    (c.complete op kind).status? (c.complete op kind).scheduled = some .enabled := by
  have set : (c.setStatus op [.enabled, .disabled, .blocked] .completed).Numbered := by
    unfold Numbered
    rw [ids_setStatus]
    exact numbered
  cases running : c.isOver with
  | true =>
    have same : c.complete op kind = c.setStatus op [.enabled, .disabled, .blocked] .completed := by
      have ceased : (c.setStatus op [.enabled, .disabled, .blocked] .completed).isOver = true :=
        running
      simp [complete, ceased]
    rw [same] at goesOn
    rw [show (c.setStatus op [.enabled, .disabled, .blocked] .completed).isOver = true from
      running] at goesOn
    cases goesOn
  | false =>
    have advanced : c.complete op kind =
        (c.setStatus op [.enabled, .disabled, .blocked] .completed).advance op kind := by
      have ceased : (c.setStatus op [.enabled, .disabled, .blocked] .completed).isOver = false :=
        running
      have exploring : (c.setStatus op [.enabled, .disabled, .blocked] .completed).explores = true := by
        simp [Controller.explores, setStatus, explores]
      simp [complete, ceased, exploring, turn]
    rw [advanced] at goesOn ⊢
    exact enabled_advance set goesOn

/-- One operation is completed; the others are as before. -/
structure Completed (op : Nat) (c d : Controller σ) : Prop where
  mode : d.mode = c.mode
  ids : d.operations.map (·.id) = c.operations.map (·.id)
  nextId : d.nextId = c.nextId
  others : ∀ o, o ≠ op → d.status? o = c.status? o
  own : ∀ {s}, c.status? op = some s → d.status? op = some .completed

theorem completed_complete (c : Controller σ) (op : Nat) (kind : PointKind) :
    Completed op c (c.complete op kind) := by
  have set : Completed op c (c.setStatus op [.enabled, .disabled, .blocked] .completed) := by
    refine ⟨rfl, c.ids_setStatus op _ _, rfl, ?_, ?_⟩
    · intro o ne
      rw [status?_setStatus]
      simp [ne]
    · intro s hs
      rw [status?_setStatus, hs]
      cases s <;> simp
  unfold complete
  simp only
  split
  · have same := sameOperations_advance
      (c.setStatus op [.enabled, .disabled, .blocked] .completed) op kind
    refine ⟨same.mode.trans set.mode, ?_, same.nextId.trans set.nextId, ?_, ?_⟩
    · rw [same.operations]
      exact set.ids
    · exact fun o ne => (same.status? o).trans (set.others o ne)
    · exact fun hs => (same.status? op).trans (set.own hs)
  · exact set

/-! ## Choices -/

/-- What a choice or an outcome leaves alone: besides the operations also the holder of the turn. -/
structure SameTurn (c d : Controller σ) : Prop extends SameOperations c d where
  scheduled : d.scheduled = c.scheduled
  steps : c.steps ≤ d.steps

namespace SameTurn

variable {c d e : Controller σ}

omit [Strategy σ]

theorem refl (c : Controller σ) : SameTurn c c := ⟨⟨rfl, rfl, rfl, rfl⟩, rfl, Nat.le_refl _⟩

theorem trans (h : SameTurn c d) (k : SameTurn d e) : SameTurn c e :=
  ⟨⟨k.mode.trans h.mode, k.maxSteps.trans h.maxSteps, k.operations.trans h.operations,
    k.nextId.trans h.nextId⟩, k.scheduled.trans h.scheduled, Nat.le_trans h.steps k.steps⟩

theorem finish (c : Controller σ) (outcome : Outcome) : SameTurn c (c.finish outcome) := by
  obtain ⟨o, h⟩ := c.finish_eq outcome
  rw [h]
  exact ⟨⟨rfl, rfl, rfl, rfl⟩, rfl, Nat.le_refl _⟩

end SameTurn

omit [Strategy σ] in
private theorem sameTurn_choose (c : Controller σ) (kind : PointKind) (ask : σ → Answered σ Nat) :
    SameTurn c (c.choose kind ask).2 := by
  have counted : SameTurn c { c with steps := c.steps + 1 } :=
    ⟨⟨rfl, rfl, rfl, rfl⟩, rfl, Nat.le_succ _⟩
  unfold choose
  simp only
  split
  · exact .refl c
  · split
    · exact counted.trans (.finish _ .boundReached)
    · split
      · exact counted.trans (.finish _ (.diverged (Divergence.message
          ⟨c.recorded.length, "no strategy installed"⟩)))
      · next s _ =>
        have asked : ∀ s', SameTurn c { c with steps := c.steps + 1, strategy := some s' } :=
          fun s' => ⟨⟨rfl, rfl, rfl, rfl⟩, rfl, Nat.le_succ _⟩
        split
        · exact ⟨⟨rfl, rfl, rfl, rfl⟩, rfl, Nat.le_succ _⟩
        · next d s' _ => exact (asked s').trans (.finish _ (.diverged d.message))

/-- A choice of a value keeps the turn. -/
theorem sameTurn_nextBool (c : Controller σ) : SameTurn c c.nextBool.2 := by
  unfold nextBool
  cases c.mode with
  | production => exact .refl c
  | exploration => exact sameTurn_choose c .boolChoice askBool

theorem sameTurn_nextInt (c : Controller σ) (max : Nat) : SameTurn c (c.nextInt max).2 := by
  unfold nextInt
  cases c.mode with
  | production => exact .refl c
  | exploration => exact sameTurn_choose c .intChoice (Strategy.nextInt · max)

/-! ## Ended runs -/

theorem outcome_schedule {c : Controller σ} (ceased : c.isOver = true) (op : Nat)
    (kind : PointKind) : (c.schedule op kind).2 = c := by
  simp [schedule, ceased]

theorem outcome_complete {c : Controller σ} (ceased : c.isOver = true) (op : Nat)
    (kind : PointKind) : (c.complete op kind).outcome = c.outcome := by
  have still : (c.setStatus op [.enabled, .disabled, .blocked] .completed).isOver = true := ceased
  simp [complete, still]

theorem nextBool_of_isOver {c : Controller σ} (ceased : c.isOver = true) :
    c.nextBool = (none, c) := by
  unfold nextBool
  cases c.mode <;> simp [choose, ceased]

theorem nextInt_of_isOver {c : Controller σ} (ceased : c.isOver = true) (max : Nat) :
    c.nextInt max = (none, c) := by
  unfold nextInt
  cases c.mode <;> simp [choose, ceased]

end SteeredActors.Controller
