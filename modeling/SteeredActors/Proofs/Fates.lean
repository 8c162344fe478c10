import Mathlib.Data.List.Forall2
import SteeredActors.Proofs.Selection

/-!
# Where envelopes go

A mailbox accepts envelopes, hands them out by selections, and is drained once. A logbook of all that
it has accepted, in order of arrival, tells for each of them where it is: still queued, or gone by one
selection or by the drain. The logbook balances after every step, what is settled in it stays settled,
and among the envelopes of one type nobody is overtaken.
-/

set_option autoImplicit false
set_option relaxedAutoImplicit false

namespace SteeredActors

/-- What goes in and out of a mailbox in one step. -/
structure Traffic where
  accepted : List Envelope := []
  /-- Discarded by a selection. -/
  discarded : List Envelope := []
  /-- Handed out by a selection. -/
  dispatched : List Envelope := []
  /-- Dropped when the actor halts or is abandoned. -/
  drained : List Envelope := []

namespace Traffic

/-- All that was accepted in the first steps, in order of arrival. -/
def arrivals (h : Nat → Traffic) (n : Nat) : List Envelope :=
  (List.range n).flatMap fun k => (h k).accepted

/-- All that left by selections in the first steps, in the order in which it left: what a selection
discards goes before what it hands out. -/
def departures (h : Nat → Traffic) (n : Nat) : List Envelope :=
  (List.range n).flatMap fun k => (h k).discarded ++ (h k).dispatched

theorem arrivals_succ (h : Nat → Traffic) (n : Nat) :
    arrivals h (n + 1) = arrivals h n ++ (h n).accepted := by
  simp [arrivals, List.range_succ]

theorem departures_succ (h : Nat → Traffic) (n : Nat) :
    departures h (n + 1) = departures h n ++ ((h n).discarded ++ (h n).dispatched) := by
  simp [departures, List.range_succ]

end Traffic

/-- The envelope of a selection that found one. -/
def Selected.envelope? : Selected → Option Envelope
  | .event envelope => some envelope
  | .default | .idle => none

/-- What a mailbox may undergo in one step. -/
inductive Mailbox.Undergoes (m : Mailbox) : Traffic → Mailbox → Prop where
  /-- The actor starts to run, or nothing happens. -/
  | rests {m' : Mailbox} (queue : m'.queue = m.queue)
      (status : m'.status = .halted ↔ m.status = .halted) : Undergoes m {} m'
  | accepts (envelope : Envelope) (alive : m.status ≠ .halted) :
      Undergoes m { accepted := [envelope] } (m.enqueue envelope).2
  | selects {verdict : EventType → Verdict} {hasDefault : Bool} {selected : Selected}
      {discarded : List Envelope} {m' : Mailbox} (alive : m.status ≠ .halted)
      (found : m.dequeue verdict hasDefault = (selected, discarded, m')) :
      Undergoes m { discarded, dispatched := selected.envelope?.toList } m'
  | drains (alive : m.status ≠ .halted) : Undergoes m { drained := m.queue } m.halt.2

namespace Mailbox

variable {m m' : Mailbox}

/-- What arrives is queued. -/
theorem queue_enqueue (envelope : Envelope) (alive : m.status ≠ .halted) :
    (m.enqueue envelope).2.queue = m.queue ++ [envelope] ∧
      (m.enqueue envelope).2.status ≠ .halted := by
  unfold Mailbox.enqueue
  cases status : m.status <;> simp_all

/-- What a selection found is what its scan of the queue took and discarded. -/
theorem scan_of_dequeue {verdict : EventType → Verdict} {hasDefault : Bool}
    {selected : Selected} {discarded : List Envelope} (alive : m.status ≠ .halted)
    (found : m.dequeue verdict hasDefault = (selected, discarded, m')) :
    (scan verdict m.queue).taken = selected.envelope? ∧
      (scan verdict m.queue).discarded = discarded ∧
      (scan verdict m.queue).remaining = m'.queue ∧ m'.status ≠ .halted := by
  unfold dequeue at found
  cases taken : (scan verdict m.queue).taken with
  | some envelope =>
    simp only [taken, Prod.mk.injEq] at found
    obtain ⟨rfl, rfl, rfl⟩ := found
    exact ⟨rfl, rfl, rfl, alive⟩
  | none =>
    simp only [taken] at found
    split at found
    · simp only [Prod.mk.injEq] at found
      obtain ⟨rfl, rfl, rfl⟩ := found
      exact ⟨rfl, rfl, rfl, alive⟩
    · simp only [Prod.mk.injEq] at found
      obtain ⟨rfl, rfl, rfl⟩ := found
      exact ⟨rfl, rfl, rfl, nofun⟩

/-- What is queued was queued before or has arrived. -/
theorem Undergoes.mem_queue {traffic : Traffic} (undergoes : m.Undergoes traffic m') :
    ∀ envelope ∈ m'.queue, envelope ∈ m.queue ∨ envelope ∈ traffic.accepted := by
  intro envelope mem
  cases undergoes with
  | rests queue => exact .inl (queue ▸ mem)
  | accepts arrived alive => rwa [(queue_enqueue arrived alive).1, List.mem_append] at mem
  | @selects verdict _ _ _ _ alive found =>
    obtain ⟨_, _, left, _⟩ := Mailbox.scan_of_dequeue alive found
    rw [← left] at mem
    exact .inl ((perm_scan verdict m.queue).mem_iff.2 (List.mem_append_right _ mem))
  | drains => cases mem

/-- What is accepted is queued. -/
theorem Undergoes.queue_ne_nil {traffic : Traffic} (undergoes : m.Undergoes traffic m')
    {envelope : Envelope} (accepts : envelope ∈ traffic.accepted) : m'.queue ≠ [] := by
  cases undergoes with
  | rests | selects | drains => cases accepts
  | accepts arrived alive => simp [(queue_enqueue arrived alive).1]

/-- Nothing is queued or gone that was not queued before and has not arrived. -/
theorem Undergoes.length_queue {traffic : Traffic} (undergoes : m.Undergoes traffic m') :
    m.queue.length + traffic.accepted.length = m'.queue.length + (traffic.discarded.length +
      traffic.dispatched.length + traffic.drained.length) := by
  cases undergoes with
  | rests queue => simp [queue]
  | accepts arrived alive => simp [(queue_enqueue arrived alive).1]
  | @selects verdict _ selected _ _ alive found =>
    obtain ⟨taken, dropped, left, _⟩ := scan_of_dequeue alive found
    have all := (perm_scan verdict m.queue).length_eq
    rw [taken, dropped, left] at all
    simp only [List.length_append] at all
    simp only [List.length_nil]
    omega
  | drains => simp [halt]

end Mailbox

/-! ## Logbooks -/

/-- Where an accepted envelope is: queued, or gone in a step. -/
inductive Fate where
  | queued
  | dispatched (step : Nat)
  | discarded (step : Nat)
  | drained (step : Nat)
deriving DecidableEq, Repr

/-- When an envelope left by a selection, in half steps: a selection discards before it hands out. -/
def Fate.left? : Fate → Option Nat
  | .discarded step => some (2 * step)
  | .dispatched step => some (2 * step + 1)
  | .queued | .drained _ => none

/-- All that a mailbox has accepted, in order of arrival, each with its fate. -/
abbrev Logbook := List (Envelope × Fate)

namespace Logbook

/-- The envelopes with a fate, in order of arrival. -/
def having (logbook : Logbook) (fate : Fate) : List Envelope :=
  (logbook.filter (·.2 = fate)).map (·.1)

/-- If `y`, which arrived after `x`, has left by a selection and is of the same type, then `x` has
left no later. -/
def InOrder (x y : Envelope × Fate) : Prop :=
  x.1.event.type = y.1.event.type → ∀ k, y.2.left? = some k → ∃ j ≤ k, x.2.left? = some j

/-- The logbook tells the fate of everything that was accepted in the first `n` steps: what is queued
is queued in order of arrival, what left in a step is what the traffic of that step says, and nobody
left by a selection before an earlier one of the same type. -/
structure Balances (h : Nat → Traffic) (n : Nat) (queue : List Envelope) (logbook : Logbook) :
    Prop where
  arrivals : logbook.map (·.1) = Traffic.arrivals h n
  queued : logbook.having .queued = queue
  dispatched : ∀ k, logbook.having (.dispatched k) = if k < n then (h k).dispatched else []
  discarded : ∀ k, logbook.having (.discarded k) = if k < n then (h k).discarded else []
  drained : ∀ k, logbook.having (.drained k) = if k < n then (h k).drained else []
  inOrder : logbook.Pairwise InOrder

/-- What was in the logbook is still there, and what was settled stays so. -/
def Extends (logbook logbook' : Logbook) : Prop :=
  ∃ kept new, logbook' = kept ++ new ∧
    List.Forall₂ (fun x y => y.1 = x.1 ∧ (x.2 = .queued ∨ y.2 = x.2)) logbook kept

variable {logbook : Logbook} {fate : Fate}

@[simp] theorem having_nil (fate : Fate) : having [] fate = [] := rfl

@[simp] theorem having_cons (x : Envelope × Fate) (logbook : Logbook) (fate : Fate) :
    having (x :: logbook) fate =
      if x.2 = fate then x.1 :: logbook.having fate else logbook.having fate := by
  simp only [having, List.filter_cons]
  split <;> simp_all

@[simp] theorem having_append (first second : Logbook) (fate : Fate) :
    having (first ++ second) fate = first.having fate ++ second.having fate := by
  simp [having]

/-! ## Selections -/

/-- The logbook after a selection: the scan of the queue settles what it meets, until it takes one. -/
def select (verdict : EventType → Verdict) (step : Nat) : Logbook → Logbook
  | [] => []
  | (envelope, .queued) :: rest =>
    match verdict envelope.event.type with
    | .take => (envelope, .dispatched step) :: rest
    | .skip => (envelope, .queued) :: select verdict step rest
    | .discard => (envelope, .discarded step) :: select verdict step rest
  | x :: rest => x :: select verdict step rest

theorem map_fst_select (verdict : EventType → Verdict) (step : Nat) (logbook : Logbook) :
    (logbook.select verdict step).map (·.1) = logbook.map (·.1) := by
  fun_induction select verdict step logbook <;> simp_all

theorem forall₂_select (verdict : EventType → Verdict) (step : Nat) (logbook : Logbook) :
    List.Forall₂ (fun x y => y.1 = x.1 ∧ (x.2 = .queued ∨ y.2 = x.2)) logbook
      (logbook.select verdict step) := by
  have same : ∀ logbook : Logbook,
      List.Forall₂ (fun x y => y.1 = x.1 ∧ (x.2 = .queued ∨ y.2 = x.2)) logbook logbook :=
    fun logbook => List.forall₂_same.2 fun x _ => ⟨rfl, .inr rfl⟩
  fun_induction select verdict step logbook with
  | case1 => exact .nil
  | case2 envelope rest _ => exact .cons ⟨rfl, .inl rfl⟩ (same rest)
  | case3 envelope rest _ ih => exact .cons ⟨rfl, .inl rfl⟩ ih
  | case4 envelope rest _ ih => exact .cons ⟨rfl, .inl rfl⟩ ih
  | case5 x rest _ ih => exact .cons ⟨rfl, .inr rfl⟩ ih

theorem having_eq_nil {logbook : Logbook} {fate : Fate} (none : ∀ x ∈ logbook, x.2 ≠ fate) :
    logbook.having fate = [] := by
  simpa [having] using fun e φ mem => none (e, φ) mem

section Select

variable (verdict : EventType → Verdict) {step : Nat}

/-- What stays queued is what the scan of the queue leaves. -/
theorem having_select_queued (step : Nat) (logbook : Logbook) :
    (logbook.select verdict step).having .queued =
      (Mailbox.scan verdict (logbook.having .queued)).remaining := by
  fun_induction select verdict step logbook with
  | case1 => rfl
  | case2 envelope rest takes => simp [Mailbox.scan, takes]
  | case3 envelope rest skips ih => simp [Mailbox.scan, skips, ih]
  | case4 envelope rest discards ih => simp [Mailbox.scan, discards, ih]
  | case5 x rest settled ih =>
    have unqueued : x.2 ≠ .queued := fun queued => settled x.1 (queued ▸ rfl)
    simp [unqueued, ih]

/-- What the selection hands out is what the scan of the queue takes. -/
theorem having_select_dispatched {logbook : Logbook} (none : ∀ x ∈ logbook, x.2 ≠ .dispatched step) :
    (logbook.select verdict step).having (.dispatched step) =
      (Mailbox.scan verdict (logbook.having .queued)).taken.toList := by
  fun_induction select verdict step logbook with
  | case1 => rfl
  | case2 envelope rest takes =>
    simp [Mailbox.scan, takes, having_eq_nil fun x mem => none x (List.mem_cons_of_mem _ mem)]
  | case3 envelope rest skips ih => 
    simp [Mailbox.scan, skips, ih fun x mem => none x (List.mem_cons_of_mem _ mem)]
  | case4 envelope rest discards ih =>
    simp [Mailbox.scan, discards, ih fun x mem => none x (List.mem_cons_of_mem _ mem)]
  | case5 x rest settled ih =>
    have unqueued : x.2 ≠ .queued := fun queued => settled x.1 (queued ▸ rfl)
    simp [unqueued, none x List.mem_cons_self, ih fun x mem => none x (List.mem_cons_of_mem _ mem)]

/-- What the selection discards is what the scan of the queue does. -/
theorem having_select_discarded {logbook : Logbook} (none : ∀ x ∈ logbook, x.2 ≠ .discarded step) :
    (logbook.select verdict step).having (.discarded step) =
      (Mailbox.scan verdict (logbook.having .queued)).discarded := by
  fun_induction select verdict step logbook with
  | case1 => rfl
  | case2 envelope rest takes =>
    simp [Mailbox.scan, takes, having_eq_nil fun x mem => none x (List.mem_cons_of_mem _ mem)]
  | case3 envelope rest skips ih => 
    simp [Mailbox.scan, skips, ih fun x mem => none x (List.mem_cons_of_mem _ mem)]
  | case4 envelope rest discards ih =>
    simp [Mailbox.scan, discards, ih fun x mem => none x (List.mem_cons_of_mem _ mem)]
  | case5 x rest settled ih =>
    have unqueued : x.2 ≠ .queued := fun queued => settled x.1 (queued ▸ rfl)
    simp [unqueued, none x List.mem_cons_self, ih fun x mem => none x (List.mem_cons_of_mem _ mem)]

/-- What was settled before is settled as it was. -/
theorem having_select_of_ne (fate : Fate) (settled : fate ≠ .queued)
    (undispatched : fate ≠ .dispatched step) (undiscarded : fate ≠ .discarded step)
    (logbook : Logbook) : (logbook.select verdict step).having fate = logbook.having fate := by
  fun_induction select verdict step logbook with
  | case1 => rfl
  | case2 | case3 | case4 => simp_all [eq_comm]
  | case5 x rest _ ih => simp [ih]

end Select

/-! ## Steps -/

section Order

/-- What was settled by the selection, and how. -/
private theorem of_mem_select {verdict : EventType → Verdict} {step : Nat} {logbook : Logbook}
    {y : Envelope × Fate} (mem : y ∈ logbook.select verdict step) :
    y ∈ logbook ∨
      y.2 = .dispatched step ∧ verdict y.1.event.type = .take ∨
      y.2 = .discarded step ∧ verdict y.1.event.type = .discard := by
  fun_induction select verdict step logbook with
  | case1 => cases mem
  | case2 envelope rest takes =>
    rcases List.mem_cons.1 mem with rfl | mem
    · exact .inr (.inl ⟨rfl, takes⟩)
    · exact .inl (List.mem_cons_of_mem _ mem)
  | case3 envelope rest skips ih =>
    rcases List.mem_cons.1 mem with rfl | mem
    · exact .inl List.mem_cons_self
    · exact (ih mem).imp_left (List.mem_cons_of_mem _)
  | case4 envelope rest discards ih =>
    rcases List.mem_cons.1 mem with rfl | mem
    · exact .inr (.inr ⟨rfl, discards⟩)
    · exact (ih mem).imp_left (List.mem_cons_of_mem _)
  | case5 x rest _ ih =>
    rcases List.mem_cons.1 mem with rfl | mem
    · exact .inl List.mem_cons_self
    · exact (ih mem).imp_left (List.mem_cons_of_mem _)

/-- A selection keeps the order: of one type it takes or discards the first ones. -/
private theorem pairwise_select (verdict : EventType → Verdict) {step : Nat} {logbook : Logbook}
    (past : ∀ x ∈ logbook, ∀ k, x.2.left? = some k → k < 2 * step)
    (undrained : ∀ x ∈ logbook, ∀ k, x.2 ≠ .drained k) (inOrder : logbook.Pairwise InOrder) :
    (logbook.select verdict step).Pairwise InOrder := by
  fun_induction select verdict step logbook with
  | case1 => exact .nil
  | case2 envelope rest takes =>
    obtain ⟨first, others⟩ := List.pairwise_cons.1 inOrder
    refine List.pairwise_cons.2 ⟨fun y mem same k left => ?_, others⟩
    obtain ⟨j, _, absurd⟩ := first y mem same k left
    cases absurd
  | case3 envelope rest skips ih =>
    obtain ⟨first, others⟩ := List.pairwise_cons.1 inOrder
    have below := ih (fun x mem => past x (List.mem_cons_of_mem _ mem))
      (fun x mem => undrained x (List.mem_cons_of_mem _ mem)) others
    refine List.pairwise_cons.2 ⟨fun y mem same k left => ?_, below⟩
    rcases of_mem_select mem with mem | ⟨_, takes⟩ | ⟨_, discards⟩
    · obtain ⟨j, _, absurd⟩ := first y mem same k left
      cases absurd
    · cases (same ▸ skips).symm.trans takes
    · cases (same ▸ skips).symm.trans discards
  | case4 envelope rest discards ih =>
    obtain ⟨first, others⟩ := List.pairwise_cons.1 inOrder
    have below := ih (fun x mem => past x (List.mem_cons_of_mem _ mem))
      (fun x mem => undrained x (List.mem_cons_of_mem _ mem)) others
    refine List.pairwise_cons.2 ⟨fun y mem same k left => ?_, below⟩
    rcases of_mem_select mem with mem | ⟨_, takes⟩ | ⟨now, _⟩
    · obtain ⟨j, _, absurd⟩ := first y mem same k left
      cases absurd
    · cases (same ▸ discards).symm.trans takes
    · rw [now] at left
      exact ⟨2 * step, Nat.le_of_eq (Option.some.inj left), rfl⟩
  | case5 x rest settled ih =>
    obtain ⟨first, others⟩ := List.pairwise_cons.1 inOrder
    have below := ih (fun x mem => past x (List.mem_cons_of_mem _ mem))
      (fun x mem => undrained x (List.mem_cons_of_mem _ mem)) others
    refine List.pairwise_cons.2 ⟨fun y mem same k left => ?_, below⟩
    -- whoever left by this selection comes after all that left before it
    have earlier : 2 * step ≤ k → ∃ j ≤ k, x.2.left? = some j := by
      intro now
      have before := past x List.mem_cons_self
      cases fate : x.2 with
      | queued => exact (settled x.1 (fate ▸ rfl)).elim
      | drained j => exact (undrained x List.mem_cons_self j fate).elim
      | dispatched j | discarded j =>
        have lt := before _ (by rw [fate]; rfl)
        exact ⟨_, by omega, rfl⟩
    rcases of_mem_select mem with mem | ⟨now, _⟩ | ⟨now, _⟩
    · exact first y mem same k left
    · rw [now] at left
      have := Option.some.inj left
      exact earlier (by omega)
    · rw [now] at left
      have := Option.some.inj left
      exact earlier (by omega)

end Order

/-- A logbook that balances, with what the next step relies on: as long as the actor has not halted,
nothing was drained, and of every type all that arrived has left or is queued. -/
private structure Current (h : Nat → Traffic) (n : Nat) (m : Mailbox) (logbook : Logbook) : Prop
    extends Balances h n m.queue logbook where
  undrained : m.status ≠ .halted → ∀ x ∈ logbook, ∀ k, x.2 ≠ .drained k
  emptied : m.status = .halted → m.queue = []
  present : m.status ≠ .halted → ∀ type,
    (Traffic.arrivals h n).filter (·.event.type = type) =
      (Traffic.departures h n).filter (·.event.type = type) ++ m.queue.filter (·.event.type = type)
  fifo : ∀ type, (Traffic.departures h n).filter (·.event.type = type) <+:
    (Traffic.arrivals h n).filter (·.event.type = type)

private theorem settled_succ {n : Nat} {f old new : Nat → List Envelope}
    (before : ∀ k, old k = if k < n then f k else []) (now : new n = f n)
    (kept : ∀ k, k ≠ n → new k = old k) (k : Nat) : new k = if k < n + 1 then f k else [] := by
  by_cases same : k = n
  · subst same
    simp [now]
  · rw [kept k same, before]
    have : k < n + 1 ↔ k < n := by omega
    simp [this]

private theorem ne_of_having {logbook : Logbook} {fate : Fate} (none : logbook.having fate = []) :
    ∀ x ∈ logbook, x.2 ≠ fate := by
  simpa [having] using none

section Current

variable {h : Nat → Traffic} {n : Nat} {m : Mailbox} {logbook : Logbook}

private theorem Extends.refl (logbook : Logbook) : logbook.Extends logbook :=
  ⟨logbook, [], (List.append_nil _).symm, List.forall₂_same.2 fun _ _ => ⟨rfl, .inr rfl⟩⟩

private theorem Current.rest (c : Current h n m logbook) (quiet : h n = {}) {m' : Mailbox}
    (queue : m'.queue = m.queue) (status : m'.status = .halted ↔ m.status = .halted) :
    Current h (n + 1) m' logbook where
  arrivals := by rw [Traffic.arrivals_succ, quiet, c.arrivals, List.append_nil]
  queued := by rw [queue, c.queued]
  dispatched := settled_succ c.dispatched (by rw [c.dispatched, quiet]; simp) fun _ _ => rfl
  discarded := settled_succ c.discarded (by rw [c.discarded, quiet]; simp) fun _ _ => rfl
  drained := settled_succ c.drained (by rw [c.drained, quiet]; simp) fun _ _ => rfl
  inOrder := c.inOrder
  undrained alive := c.undrained fun halted => alive (status.2 halted)
  emptied halted := by rw [queue, c.emptied (status.1 halted)]
  present alive type := by
    rw [Traffic.arrivals_succ, Traffic.departures_succ, quiet, queue]
    simpa using c.present (fun halted => alive (status.2 halted)) type
  fifo type := by
    rw [Traffic.arrivals_succ, Traffic.departures_succ, quiet]
    simpa using c.fifo type

/-- What arrives is queued behind everything else. -/
private theorem Current.accept (c : Current h n m logbook) {envelope : Envelope}
    (alive : m.status ≠ .halted) (accepts : h n = { accepted := [envelope] }) :
    Current h (n + 1) (m.enqueue envelope).2 (logbook ++ [(envelope, .queued)]) := by
  obtain ⟨queue, status⟩ := Mailbox.queue_enqueue envelope alive
  have other : ∀ fate, fate ≠ .queued →
      having (logbook ++ [(envelope, .queued)]) fate = logbook.having fate := by
    intro fate settled
    simp [having_append, settled.symm]
  have present : ∀ type, (Traffic.arrivals h (n + 1)).filter (·.event.type = type) =
      (Traffic.departures h (n + 1)).filter (·.event.type = type) ++
        (m.enqueue envelope).2.queue.filter (·.event.type = type) := by
    intro type
    rw [Traffic.arrivals_succ, Traffic.departures_succ, accepts, queue, List.filter_append,
      c.present alive type]
    simp
  refine ⟨⟨?_, ?_, ?_, ?_, ?_, ?_⟩, ?_, fun halted => absurd halted status, fun _ => present,
    fun type => ⟨_, (present type).symm⟩⟩
  · rw [Traffic.arrivals_succ, accepts, List.map_append, c.arrivals]
    rfl
  · rw [having_append, queue, c.queued]
    rfl
  · exact settled_succ c.dispatched
      (by rw [other (.dispatched n) nofun, c.dispatched, accepts]; simp)
      fun k _ => other _ nofun
  · exact settled_succ c.discarded (by rw [other (.discarded n) nofun, c.discarded, accepts]; simp)
      fun k _ => other _ nofun
  · exact settled_succ c.drained (by rw [other (.drained n) nofun, c.drained, accepts]; simp)
      fun k _ => other _ nofun
  · refine List.pairwise_append.2 ⟨c.inOrder, List.pairwise_singleton _ _, fun x _ y mem => ?_⟩
    obtain rfl := List.mem_singleton.1 mem
    exact fun _ k left => nomatch left
  · intro _ x mem k
    rcases List.mem_append.1 mem with mem | mem
    · exact c.undrained alive x mem k
    · obtain rfl := List.mem_singleton.1 mem
      nofun

/-- What left by a selection left in an earlier step. -/
private theorem Current.past (c : Current h n m logbook) :
    ∀ x ∈ logbook, ∀ k, x.2.left? = some k → k < 2 * n := by
  intro x mem k left
  have earlier : ∀ fate j, (logbook.having fate = if j < n then (h j).dispatched else []) ∨
      (logbook.having fate = if j < n then (h j).discarded else []) → x.2 = fate → j < n := by
    intro fate j settled same
    by_contra late
    simp only [late, if_false, or_self] at settled
    exact ne_of_having settled x mem same
  cases fate : x.2 with
  | queued | drained => simp [fate, Fate.left?] at left
  | dispatched j =>
    have := earlier _ j (.inl (c.dispatched j)) fate
    simp only [fate, Fate.left?, Option.some.injEq] at left
    omega
  | discarded j =>
    have := earlier _ j (.inr (c.discarded j)) fate
    simp only [fate, Fate.left?, Option.some.injEq] at left
    omega

/-- A selection settles what its scan takes and discards. -/
private theorem Current.select (c : Current h n m logbook) {verdict : EventType → Verdict}
    {hasDefault : Bool} {selected : Selected} {discarded : List Envelope} {m' : Mailbox}
    (alive : m.status ≠ .halted)
    (found : m.dequeue verdict hasDefault = (selected, discarded, m'))
    (selects : h n = { discarded, dispatched := selected.envelope?.toList }) :
    Current h (n + 1) m' (logbook.select verdict n) := by
  obtain ⟨taken, dropped, left, status⟩ := Mailbox.scan_of_dequeue alive found
  have undispatched : ∀ x ∈ logbook, x.2 ≠ .dispatched n :=
    ne_of_having (by rw [c.dispatched]; simp)
  have undiscarded : ∀ x ∈ logbook, x.2 ≠ .discarded n := ne_of_having (by rw [c.discarded]; simp)
  have present : ∀ type, (Traffic.arrivals h (n + 1)).filter (·.event.type = type) =
      (Traffic.departures h (n + 1)).filter (·.event.type = type) ++
        m'.queue.filter (·.event.type = type) := by
    intro type
    rw [Traffic.arrivals_succ, Traffic.departures_succ, selects, List.append_nil,
      c.present alive type, Mailbox.filter_scan verdict m.queue type, taken, dropped, left]
    simp only [List.filter_append, List.append_assoc]
  refine ⟨⟨?_, ?_, ?_, ?_, ?_, ?_⟩, fun _ => ?_, fun halted => absurd halted status,
    fun _ => present, fun type => ⟨_, (present type).symm⟩⟩
  · rw [map_fst_select, Traffic.arrivals_succ, selects, c.arrivals, List.append_nil]
  · rw [having_select_queued, c.queued, left]
  · refine settled_succ c.dispatched ?_ fun k other =>
      having_select_of_ne _ (.dispatched k) nofun ?_ nofun _
    · rw [having_select_dispatched _ undispatched, c.queued, taken, selects]
    · exact fun same => other (Fate.dispatched.inj same)
  · refine settled_succ c.discarded ?_ fun k other =>
      having_select_of_ne _ (.discarded k) nofun nofun ?_ _
    · rw [having_select_discarded _ undiscarded, c.queued, dropped, selects]
    · exact fun same => other (Fate.discarded.inj same)
  · refine settled_succ c.drained ?_ fun k _ =>
      having_select_of_ne _ (.drained k) nofun nofun nofun _
    rw [having_select_of_ne _ (.drained n) nofun nofun nofun, c.drained, selects]
    simp
  · exact pairwise_select verdict c.past (c.undrained alive) c.inOrder
  · intro x mem k
    rcases of_mem_select mem with mem | ⟨now, _⟩ | ⟨now, _⟩
    · exact c.undrained alive x mem k
    · simp [now]
    · simp [now]

/-- The logbook after a drain: all that was queued is drained. -/
private def drain (step : Nat) (logbook : Logbook) : Logbook :=
  logbook.map fun x => (x.1, if x.2 = .queued then .drained step else x.2)

private theorem having_drain (step : Nat) {logbook : Logbook}
    (undrained : ∀ x ∈ logbook, ∀ k, x.2 ≠ .drained k) (fate : Fate) :
    (logbook.drain step).having fate =
      match fate with
      | .queued => []
      | .drained k => if k = step then logbook.having .queued else []
      | fate => logbook.having fate := by
  induction logbook with
  | nil => cases fate <;> simp [drain]
  | cons x rest ih =>
    obtain ⟨first, others⟩ := List.forall_mem_cons.1 undrained
    have below := ih others
    obtain ⟨envelope, settled⟩ := x
    simp only [drain, List.map_cons, having_cons] at below ⊢
    rw [below]
    cases settled with
    | drained k => exact absurd rfl (first k)
    | queued => cases fate <;> simp [eq_comm]; split <;> rfl
    | dispatched j | discarded j => cases fate <;> simp

/-- The drain settles all that was queued. -/
private theorem Current.drain (c : Current h n m logbook) (alive : m.status ≠ .halted)
    (drains : h n = { drained := m.queue }) :
    Current h (n + 1) m.halt.2 (logbook.drain n) := by
  have having := having_drain n (c.undrained alive)
  have none : ∀ k, logbook.having (.drained k) = [] := fun k =>
    having_eq_nil fun x mem => c.undrained alive x mem k
  have fifo : ∀ type, (Traffic.departures h (n + 1)).filter (·.event.type = type) <+:
      (Traffic.arrivals h (n + 1)).filter (·.event.type = type) := by
    intro type
    rw [Traffic.arrivals_succ, Traffic.departures_succ, drains]
    simpa using c.fifo type
  refine ⟨⟨?_, ?_, ?_, ?_, ?_, ?_⟩, fun alive => absurd rfl alive, fun _ => rfl,
    fun alive => absurd rfl alive, fifo⟩
  · rw [Traffic.arrivals_succ, drains, List.append_nil, ← c.arrivals]
    simp [Logbook.drain]
  · rw [having]
    rfl
  · refine settled_succ c.dispatched ?_ fun k _ => by rw [having]
    simp [having, c.dispatched, drains]
  · refine settled_succ c.discarded ?_ fun k _ => by rw [having]
    simp [having, c.discarded, drains]
  · refine settled_succ c.drained ?_ fun k other => by simp [having, none, other]
    simp [having, drains, c.queued]
  · have still : ∀ f : Fate, (if f = .queued then .drained n else f).left? = f.left? := by
      intro f
      cases f <;> rfl
    refine List.pairwise_map.2 (c.inOrder.imp fun {x y} ordered => ?_)
    simpa only [InOrder, still] using ordered

private theorem extends_drain (step : Nat) (logbook : Logbook) :
    logbook.Extends (logbook.drain step) := by
  refine ⟨_, [], (List.append_nil _).symm, ?_⟩
  refine List.forall₂_map_right_iff.2 (List.forall₂_same.2 fun x _ => ⟨rfl, ?_⟩)
  by_cases queued : x.2 = .queued <;> simp [queued]

/-- Every step of the mailbox is entered in the logbook. -/
private theorem Current.next (c : Current h n m logbook) {m' : Mailbox}
    (undergoes : m.Undergoes (h n) m') :
    ∃ logbook', Current h (n + 1) m' logbook' ∧ logbook.Extends logbook' := by
  generalize traffic : h n = tr at undergoes
  cases undergoes with
  | rests queue status => exact ⟨logbook, c.rest traffic queue status, .refl logbook⟩
  | accepts envelope alive =>
    exact ⟨_, c.accept alive traffic, logbook, _, rfl,
      List.forall₂_same.2 fun _ _ => ⟨rfl, .inr rfl⟩⟩
  | @selects verdict _ _ _ _ alive found =>
    exact ⟨_, c.select alive found traffic, _, [], (List.append_nil _).symm,
      forall₂_select verdict n logbook⟩
  | drains alive => exact ⟨_, c.drain alive traffic, extends_drain n logbook⟩

end Current

/-- A mailbox that starts empty and undergoes one step after the other has a logbook that balances at
all times. What leaves by selections is of each type what arrived first, in the order of arrival. -/
theorem exists_of_undergoes {h : Nat → Traffic} {m : Nat → Mailbox} (start : m 0 = {})
    (steps : ∀ n, (m n).Undergoes (h n) (m (n + 1))) :
    ∃ logbook : Nat → Logbook, ∀ n,
      Balances h n (m n).queue (logbook n) ∧ (logbook n).Extends (logbook (n + 1)) ∧
      ∀ type, (Traffic.departures h n).filter (·.event.type = type) <+:
        (Traffic.arrivals h n).filter (·.event.type = type) := by
  have first : Current h 0 (m 0) [] := by
    rw [start]
    refine ⟨⟨rfl, rfl, ?_, ?_, ?_, .nil⟩, fun _ => by simp, nofun, fun _ _ => rfl,
      fun _ => List.prefix_rfl⟩ <;> simp
  have next : ∀ n (l : {logbook // Current h n (m n) logbook}),
      ∃ l' : {logbook // Current h (n + 1) (m (n + 1)) logbook}, l.1.Extends l'.1 := by
    intro n l
    obtain ⟨logbook', current, extends_⟩ := l.2.next (steps n)
    exact ⟨⟨logbook', current⟩, extends_⟩
  choose following extends_ using next
  let logbook : ∀ n, {logbook // Current h n (m n) logbook} := fun n =>
    Nat.rec ⟨[], first⟩ (fun n l => following n l) n
  exact ⟨fun n => (logbook n).1, fun n =>
    ⟨(logbook n).2.toBalances, extends_ n (logbook n), (logbook n).2.fifo⟩⟩

end Logbook

end SteeredActors
