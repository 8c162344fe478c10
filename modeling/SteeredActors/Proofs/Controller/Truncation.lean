import SteeredActors.Proofs.Controller.Ended

/-!
# What the bound on steps changes

The bound has no influence before it ends a run. Two controllers that differ in nothing but the
bound answer every call alike and stay alike, up to the call with which the one of the smaller bound
ends its run at the bound. From then on its decisions are the first ones of the longer run, as many
as the smaller bound permits.
-/

set_option autoImplicit false
set_option relaxedAutoImplicit false

namespace SteeredActors

variable {σ : Type}

namespace Controller

/-- The controller with another bound on its steps. -/
def withMaxSteps (c : Controller σ) (maxSteps : Nat) : Controller σ := { c with maxSteps }

variable {c : Controller σ} {m : Nat}

@[simp] theorem maxSteps_withMaxSteps (c : Controller σ) (m : Nat) :
    (c.withMaxSteps m).maxSteps = m := rfl

@[simp] theorem isOver_withMaxSteps (c : Controller σ) (m : Nat) :
    (c.withMaxSteps m).isOver = c.isOver := rfl

@[simp] theorem trace_withMaxSteps (c : Controller σ) (m : Nat) :
    (c.withMaxSteps m).trace = c.trace := rfl

@[simp] theorem passage_withMaxSteps (c : Controller σ) (m op : Nat) :
    (c.withMaxSteps m).passage op = c.passage op := rfl

@[simp] theorem setStatus_withMaxSteps (c : Controller σ) (m op : Nat) (old : List OperationStatus)
    (new : OperationStatus) :
    (c.withMaxSteps m).setStatus op old new = (c.setStatus op old new).withMaxSteps m := rfl

@[simp] theorem finish_withMaxSteps (c : Controller σ) (m : Nat) (outcome : Outcome) :
    (c.withMaxSteps m).finish outcome = (c.finish outcome).withMaxSteps m := by
  unfold finish
  cases ended : c.outcome with
  | some o => simp [withMaxSteps, ended]
  | none => cases outcome <;> simp [withMaxSteps, ended, trace]

@[simp] theorem finishIdle_withMaxSteps (c : Controller σ) (m : Nat) :
    (c.withMaxSteps m).finishIdle = c.finishIdle.withMaxSteps m := by
  have same : (c.withMaxSteps m).withStatus .blocked = c.withStatus .blocked := rfl
  unfold finishIdle
  rw [same]
  split <;> exact c.finish_withMaxSteps m _

@[simp] theorem assign_withMaxSteps (c : Controller σ) (m : Nat) (kind : PointKind)
    (enabled : List Nat) (answer : Except Divergence Nat) :
    (c.withMaxSteps m).assign kind enabled answer =
      (c.assign kind enabled answer).withMaxSteps m := by
  unfold assign
  cases answer with
  | error d => exact c.finish_withMaxSteps m _
  | ok chosen =>
    simp only
    split
    · rfl
    · exact c.finish_withMaxSteps m _

variable [Strategy σ]

theorem askOperation_withMaxSteps (c : Controller σ) (m : Nat) (kind : PointKind) (current : Nat)
    (enabled : List Nat) :
    (c.withMaxSteps m).askOperation kind current enabled =
      ((c.askOperation kind current enabled).1,
        (c.askOperation kind current enabled).2.withMaxSteps m) := by
  cases held : c.strategy <;> simp [askOperation, withMaxSteps, held]

/-! ## One decision -/

/-- The controller with one more decision asked for. -/
private def counted (c : Controller σ) : Controller σ := { c with steps := c.steps + 1 }

/-- Beyond the bound a run ends at the point that would need one more decision. -/
theorem outcome_advance_of_full (running : c.outcome = none) (somebody : c.enabledIds ≠ [])
    (full : c.maxSteps ≤ c.steps) (current : Nat) (kind : PointKind) :
    (c.advance current kind).outcome = some .boundReached := by
  have nonempty : ¬c.enabledIds.isEmpty = true := by simpa using somebody
  have beyond : c.maxSteps < c.steps + 1 := Nat.lt_succ_of_le full
  simp [advance, nonempty, beyond, finish, running]

omit [Strategy σ] in
theorem outcome_choose_of_full (running : c.outcome = none) (full : c.maxSteps ≤ c.steps)
    (kind : PointKind) (ask : σ → Answered σ Nat) :
    (c.choose kind ask).2.outcome = some .boundReached := by
  have beyond : c.maxSteps < c.steps + 1 := Nat.lt_succ_of_le full
  simp [choose, isOver, running, beyond, finish]

/-- Within the bound the strategy is asked. -/
private theorem advance_of_free (somebody : c.enabledIds ≠ []) (free : c.steps < c.maxSteps)
    (current : Nat) (kind : PointKind) :
    c.advance current kind =
      (c.counted.askOperation kind current c.enabledIds).2.assign kind c.enabledIds
        (c.counted.askOperation kind current c.enabledIds).1 := by
  have nonempty : ¬c.enabledIds.isEmpty = true := by simpa using somebody
  have within : ¬c.maxSteps < c.steps + 1 := by omega
  simp only [advance, if_neg nonempty, if_neg within]
  rfl

/-- A point that does not end the run at the bound is passed in the same way under a larger one. -/
theorem advance_withMaxSteps (le : c.maxSteps ≤ m) (running : c.outcome = none) {current : Nat}
    {kind : PointKind} (spared : (c.advance current kind).outcome ≠ some .boundReached) :
    (c.withMaxSteps m).advance current kind = (c.advance current kind).withMaxSteps m := by
  have same : (c.withMaxSteps m).enabledIds = c.enabledIds := rfl
  by_cases nobody : c.enabledIds = []
  · simp [advance, same, nobody]
  have free : c.steps < c.maxSteps := by
    by_contra full
    exact spared (outcome_advance_of_full running nobody (Nat.not_lt.1 full) current kind)
  have free' : (c.withMaxSteps m).steps < (c.withMaxSteps m).maxSteps := Nat.lt_of_lt_of_le free le
  have counts : (c.withMaxSteps m).counted = c.counted.withMaxSteps m := rfl
  rw [advance_of_free nobody free, advance_of_free (same ▸ nobody) free', same, counts,
    askOperation_withMaxSteps, assign_withMaxSteps]

omit [Strategy σ] in
private theorem choose_of_free (running : c.outcome = none) (free : c.steps < c.maxSteps)
    (kind : PointKind) (ask : σ → Answered σ Nat) :
    c.choose kind ask =
      match c.strategy with
      | none => (none, c.counted.diverge ⟨c.recorded.length, "no strategy installed"⟩)
      | some s =>
        match ask s with
        | (.ok value, s) => (some value, { c.counted with strategy := some s }.record kind value)
        | (.error d, s) => (none, { c.counted with strategy := some s }.diverge d) := by
  have goesOn : ¬c.isOver = true := by simp [isOver, running]
  have within : ¬c.maxSteps < c.steps + 1 := by omega
  simp only [choose, if_neg goesOn, if_neg within]
  rfl

omit [Strategy σ] in
/-- A choice that does not end the run at the bound is made in the same way under a larger one. -/
theorem choose_withMaxSteps (le : c.maxSteps ≤ m) (kind : PointKind) (ask : σ → Answered σ Nat)
    (spared : c.outcome = none → (c.choose kind ask).2.outcome ≠ some .boundReached) :
    (c.withMaxSteps m).choose kind ask =
      ((c.choose kind ask).1, (c.choose kind ask).2.withMaxSteps m) := by
  cases running : c.outcome with
  | some o => simp [choose, isOver, running, withMaxSteps]
  | none =>
    have free : c.steps < c.maxSteps := by
      by_contra full
      exact spared running (outcome_choose_of_full running (Nat.not_lt.1 full) kind ask)
    have free' : (c.withMaxSteps m).steps < (c.withMaxSteps m).maxSteps :=
      Nat.lt_of_lt_of_le free le
    have running' : (c.withMaxSteps m).outcome = none := running
    have counts : (c.withMaxSteps m).counted = c.counted.withMaxSteps m := rfl
    rw [choose_of_free running free, choose_of_free running' free', counts]
    have held : (c.withMaxSteps m).strategy = c.strategy := rfl
    rw [held]
    cases c.strategy with
    | none => exact congrArg (Prod.mk none) (finish_withMaxSteps c.counted m _)
    | some s =>
      simp only
      split
      · rfl
      · next d s' _ =>
        exact congrArg (Prod.mk none)
          (finish_withMaxSteps { c.counted with strategy := some s' } m _)

/-! ## One call -/

/-- With this call the controller itself ends its run at the bound. -/
structure Exhausts (c : Controller σ) (call : Call) : Prop where
  running : c.outcome = none
  own : call ≠ .terminate .boundReached
  bound : (c.perform call).2.outcome = some .boundReached

private theorem advance_of_spared (explores : c.mode = .exploration) (le : c.maxSteps ≤ m)
    {call : Call} (spared : ¬c.Exhausts call) (own : call ≠ .terminate .boundReached)
    (running : c.outcome = none) {op : Nat} {kind : PointKind}
    (reached : c.point? call = some (op, kind)) :
    ((c.deciding call).withMaxSteps m).advance op kind =
      ((c.deciding call).advance op kind).withMaxSteps m := by
  have limit : (c.deciding call).maxSteps ≤ m := by cases call <;> exact le
  have running' : (c.deciding call).outcome = none := by cases call <;> exact running
  refine advance_withMaxSteps limit running' fun bound => spared ⟨running, own, ?_⟩
  rwa [perform_of_point explores running reached]

/-- A call that does not end the run at the bound has the same answer and the same effect under a
larger bound. -/
theorem perform_withMaxSteps (explores : c.mode = .exploration) (le : c.maxSteps ≤ m) {call : Call}
    (spared : ¬c.Exhausts call) :
    (c.withMaxSteps m).perform call =
      ((c.perform call).1, (c.perform call).2.withMaxSteps m) := by
  have unbounded (running : c.outcome = none) (own : call ≠ .terminate .boundReached) :
      (c.perform call).2.outcome ≠ some .boundReached :=
    fun bound => spared ⟨running, own, bound⟩
  have explores' : (c.withMaxSteps m).mode = .exploration := explores
  cases call with
  | register | enable | disable | block | unblock | waitForTurn | takeStrategy => rfl
  | reportBug report =>
    simp only [perform, reportBug, terminate, isOver_withMaxSteps, finish_withMaxSteps]
  | terminate outcome =>
    simp only [perform, terminate, isOver_withMaxSteps, finish_withMaxSteps]
  | nextBool =>
    have same := choose_withMaxSteps le .boolChoice askBool fun running => by
      simpa [perform, nextBool, explores] using unbounded running (by simp)
    simp only [perform, nextBool, explores, explores', same]
  | nextInt max =>
    have same := choose_withMaxSteps le .intChoice (Strategy.nextInt · max) fun running => by
      simpa [perform, nextInt, explores] using unbounded running (by simp)
    simp only [perform, nextInt, explores, explores', same]
  | schedule op kind =>
    have same : ((c.withMaxSteps m).status? op) = c.status? op := rfl
    simp only [perform, schedule, isOver_withMaxSteps, explores, explores', same]
    cases running : c.outcome with
    | some o => simp [isOver, running]
    | none =>
      cases known : c.status? op with
      | none => simp [isOver, running]
      | some status =>
        have passed := advance_of_spared explores le spared (by simp) running
          (if_pos (known ▸ rfl) : c.point? (.schedule op kind) = some (op, kind))
        simp only [deciding] at passed
        simp [isOver, running, passed]
  | complete op kind =>
    refine Prod.ext rfl ?_
    by_cases reached : c.outcome = none ∧ c.scheduled = op
    · have point : c.point? (.complete op kind) = some (op, kind) := if_pos reached.2
      have running' : (c.withMaxSteps m).outcome = none := reached.1
      have point' : (c.withMaxSteps m).point? (.complete op kind) = some (op, kind) := point
      rw [perform_of_point explores' running' point', perform_of_point explores reached.1 point]
      exact advance_of_spared explores le spared (by simp) reached.1 point
    · have elsewhere : ¬((c.withMaxSteps m).outcome = none ∧ (c.withMaxSteps m).scheduled = op) :=
        reached
      rw [perform_complete_of_elsewhere reached, perform_complete_of_elsewhere elsewhere]
      rfl

/-- One of the calls ends the run at the bound. -/
def EndsAtBound (start : Controller σ) (calls : List Call) : Prop :=
  ∃ before call rest, calls = before ++ call :: rest ∧ (start.after before).Exhausts call

theorem endsAtBound_concat_iff {start : Controller σ} {calls : List Call} {call : Call} :
    start.EndsAtBound (calls ++ [call]) ↔
      start.EndsAtBound calls ∨ (start.after calls).Exhausts call := by
  constructor
  · rintro ⟨before, spent, rest, split, exhausts⟩
    rcases List.eq_nil_or_concat rest with rfl | ⟨rest, last, rfl⟩
    · obtain ⟨rfl, rfl⟩ : calls = before ∧ call = spent := by simpa using split
      exact .inr exhausts
    · refine .inl ⟨before, spent, rest, ?_, exhausts⟩
      have split : calls ++ [call] = (before ++ spent :: rest) ++ [last] := by simpa using split
      exact (List.append_inj' split rfl).1
  · rintro (⟨before, spent, rest, rfl, exhausts⟩ | exhausts)
    · exact ⟨before, spent, rest ++ [call], by simp, exhausts⟩
    · exact ⟨calls, call, [], rfl, exhausts⟩

/-- The call that ends a run at the bound records nothing. By then as many decisions as there may be
have been taken. -/
theorem Exhausts.length_trace {maxSteps : Nat} (metered : c.Metered maxSteps) {call : Call}
    (exhausts : c.Exhausts call) :
    (c.perform call).2.trace = c.trace ∧ c.trace.length = maxSteps := by
  have same : (c.deciding call).trace = c.trace ∧ (c.deciding call).outcome = c.outcome := by
    cases call <;> exact ⟨rfl, rfl⟩
  have before := metered.deciding call
  have running := exhausts.running
  have bound := exhausts.bound
  cases performed metered.mode call with
  | undecided _ _ unbounded =>
    rw [running] at unbounded
    cases unbounded exhausts.own bound
  | decided _ _ asked =>
    generalize (c.perform call).2 = d at asked bound
    cases asked with
    | bound full =>
      have counted := before.steps (same.2.trans running)
      have limit := before.limit
      rw [same.1] at counted
      exact ⟨same.1, Nat.le_antisymm metered.bounded (by omega)⟩
    | recorded => simp [same.2, running] at bound
    | diverged => simp at bound

/-- Decisions once taken stay. -/
theorem trace_prefix_perform (explores : c.mode = .exploration) (call : Call) :
    c.trace <+: (c.perform call).2.trace := by
  obtain same | ⟨step, _, _, longer, _⟩ := trace_perform explores call
  · exact same ▸ List.prefix_rfl
  · exact longer ▸ List.prefix_append ..

omit [Strategy σ] in
theorem Metered.withMaxSteps {n : Nat} (metered : c.Metered n) (le : n ≤ m) :
    (c.withMaxSteps m).Metered m :=
  ⟨metered.mode, rfl, metered.steps, metered.bounded.trans le⟩

end Controller

/-! ## Any sequence of calls -/

namespace Session

variable [Strategy σ] {s : Session σ} {m : Nat}

/-- The session with another bound on the steps of its controller. -/
def withMaxSteps (s : Session σ) (maxSteps : Nat) : Session σ :=
  { s with controller := s.controller.withMaxSteps maxSteps }

theorem after_concat (s : Session σ) (calls : List Call) (call : Call) :
    s.after (calls ++ [call]) = ((s.after calls).perform call).2 := by
  simp [after]

/-- What the calls are answered, each with the calls that go on after it. -/
def answers (s : Session σ) : List Call → List (Reply × List (Waiting × Passage))
  | [] => []
  | call :: calls => (s.perform call).1 :: (s.perform call).2.answers calls

theorem answers_concat (s : Session σ) (calls : List Call) (call : Call) :
    s.answers (calls ++ [call]) = s.answers calls ++ [((s.after calls).perform call).1] := by
  induction calls generalizing s with
  | nil => rfl
  | cons first calls ih =>
    simp only [List.cons_append, answers, ih]
    rfl

theorem perform_withMaxSteps (explores : s.controller.mode = .exploration)
    (le : s.controller.maxSteps ≤ m) {call : Call} (spared : ¬s.controller.Exhausts call) :
    (s.withMaxSteps m).perform call = ((s.perform call).1, (s.perform call).2.withMaxSteps m) := by
  have same := Controller.perform_withMaxSteps explores le spared
  simp only [perform, withMaxSteps, same]
  rfl

/-- One session is the other cut off at its bound. -/
structure Truncates (short long : Session σ) (calls : List Call) : Prop where
  /-- Until the bound ends the shorter run, nothing else tells the two apart. -/
  alike : ¬short.controller.EndsAtBound calls →
    long.answers calls = short.answers calls ∧
      long.after calls = (short.after calls).withMaxSteps long.controller.maxSteps
  /-- From then on the shorter run has the first decisions of the longer one. -/
  cut : short.controller.EndsAtBound calls →
    (short.after calls).controller.outcome = some .boundReached ∧
      (short.after calls).controller.trace.length = short.controller.maxSteps ∧
      (short.after calls).controller.trace =
        (long.after calls).controller.trace.take short.controller.maxSteps

/-- By induction on the calls: the last one finds the shorter run cut off, or ends it at the bound,
or does the same in both. -/
theorem truncates_withMaxSteps {n : Nat} (metered : s.controller.Metered n) (le : n ≤ m)
    (calls : List Call) : s.Truncates (s.withMaxSteps m) calls := by
  have longer : (s.withMaxSteps m).controller.Metered m := metered.withMaxSteps le
  induction calls using List.reverseRecOn with
  | nil => exact ⟨fun _ => ⟨rfl, rfl⟩, fun ⟨before, call, rest, split, _⟩ => by simp at split⟩
  | append_singleton calls call ih =>
    have short := metered.after calls
    have long := longer.after calls
    rw [← controller_after] at short long
    constructor
    · intro spared
      rw [Controller.endsAtBound_concat_iff, not_or, ← controller_after] at spared
      obtain ⟨answers, same⟩ := ih.alike spared.1
      have passed : ((s.withMaxSteps m).after calls).perform call =
          (((s.after calls).perform call).1, ((s.after calls).perform call).2.withMaxSteps m) :=
        same ▸ perform_withMaxSteps short.mode (short.limit ▸ le) spared.2
      rw [answers_concat, answers_concat, after_concat, after_concat, passed, answers]
      exact ⟨rfl, rfl⟩
    · intro ends
      rw [Controller.endsAtBound_concat_iff, ← controller_after] at ends
      have longer := Controller.trace_prefix_perform long.mode call
      suffices
          ((s.after calls).controller.perform call).2.outcome = some .boundReached ∧
            ((s.after calls).controller.perform call).2.trace.length = s.controller.maxSteps ∧
            ((s.after calls).controller.perform call).2.trace <+:
              ((s.withMaxSteps m).after calls).controller.trace by
        obtain ⟨outcome, length, first⟩ := this
        simp only [after_concat]
        exact ⟨outcome, length, length ▸ List.prefix_iff_eq_take.1 (first.trans longer)⟩
      by_cases before : s.controller.EndsAtBound calls
      · obtain ⟨outcome, length, first⟩ := ih.cut before
        have ceased : (s.after calls).controller.isOver = true := by
          rw [Controller.isOver, outcome]
          rfl
        have story := Controller.sameStory_perform ceased call
        rw [story.outcome, story.recorded]
        exact ⟨outcome, length, first ▸ List.take_prefix ..⟩
      · have exhausts := ends.resolve_left before
        obtain ⟨same, length⟩ := exhausts.length_trace short
        rw [same, (ih.alike before).2]
        exact ⟨exhausts.bound, length.trans metered.limit.symm, List.prefix_rfl⟩

/-- The bound on the steps only truncates a run. -/
theorem truncates (strategy : σ) {n m : Nat} (le : n ≤ m) (calls : List Call) :
    (ofController (.exploration strategy n)).Truncates (ofController (.exploration strategy m))
      calls :=
  truncates_withMaxSteps (.exploration strategy n) le calls

/-- After one decision the coin is no longer tossed. -/
theorem truncates_working :
    1 ≤ 3 ∧
      (Controller.exploration (ScriptedStrategy.ofAnswers [.ok 1, .ok 1]) 1).EndsAtBound
        Controller.working ∧
      (ofController (.exploration (ScriptedStrategy.ofAnswers [.ok 1, .ok 1]) 1)).Truncates
        (ofController (.exploration (ScriptedStrategy.ofAnswers [.ok 1, .ok 1]) 3))
        Controller.working :=
  ⟨by decide,
    ⟨[.register "worker", .schedule 0 .send], .nextBool,
      [.complete 0 .yield, .complete 1 .yield], rfl, ⟨by decide, nofun, by decide⟩⟩,
    truncates _ (by decide) _⟩

end Session

end SteeredActors
