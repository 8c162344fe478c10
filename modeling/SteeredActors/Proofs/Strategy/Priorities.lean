import Mathlib.Data.Finset.Card
import Mathlib.Data.List.Nodup
import SteeredActors.Proofs.Strategy.Inquiries
import SteeredActors.Strategy.Pct

/-!
# The discipline of priorities

Within an iteration new operations are put anywhere among the others, and operations come and go as
they get work or wait. Still the order of two of them changes in one way only: the one in front is
moved to the end, at a change point at which it would have gone next. So the winner between two
operations changes at most as often as the iteration has change points.
-/

set_option autoImplicit false
set_option relaxedAutoImplicit false

namespace SteeredActors

/-! ## Two orders at once -/

/-- In a list without repetition two items do not stand in both orders. -/
theorem not_sublist_swap {α : Type} {xs : List α} (nodup : xs.Nodup) {a b : α}
    (forth : [a, b].Sublist xs) (back : [b, a].Sublist xs) : False := by
  induction nodup with
  | nil => cases forth
  | @cons x xs fresh _ ih =>
    have absent : x ∉ xs := fun mem => fresh x mem rfl
    cases forth with
    | cons _ forth =>
      cases back with
      | cons _ back => exact ih forth back
      | cons_cons _ _ => exact absent (forth.subset (by simp))
    | cons_cons _ forth =>
      cases back with
      | cons _ back => exact absent (back.subset (by simp))
      | cons_cons _ _ => exact absent (forth.subset (by simp))

namespace PctStrategy

open Strategy (Inquiry)

/-! ## Placing and demoting -/

theorem perm_insertAt (op n : Nat) (ops : List Nat) : (insertAt op n ops).Perm (op :: ops) := by
  induction n generalizing ops with
  | zero => exact .refl _
  | succ n ih =>
    cases ops with
    | nil => exact .refl _
    | cons p ops => exact ((ih ops).cons p).trans (.swap op p ops)

/-- Those who have a priority keep their order when another one gets one. -/
theorem sublist_insertAt (op n : Nat) (ops : List Nat) : ops.Sublist (insertAt op n ops) := by
  induction n generalizing ops with
  | zero => exact List.sublist_cons_self op ops
  | succ n ih =>
    cases ops with
    | nil => exact List.nil_sublist _
    | cons p ops => exact (ih ops).cons_cons p

/-- What giving priorities and demoting leave alone. -/
structure SameStep (s t : PctStrategy) : Prop where
  changePointCount : t.changePointCount = s.changePointCount
  changePoints : t.changePoints = s.changePoints
  step : t.step = s.step

theorem SameStep.refl (s : PctStrategy) : s.SameStep s := ⟨rfl, rfl, rfl⟩

theorem SameStep.trans {s t u : PctStrategy} (h : s.SameStep t) (k : t.SameStep u) :
    s.SameStep u :=
  ⟨k.changePointCount.trans h.changePointCount, k.changePoints.trans h.changePoints,
    k.step.trans h.step⟩

/-- What giving priorities to operations does. -/
structure Places (s t : PctStrategy) (ops : List Nat) : Prop extends s.SameStep t where
  kept : s.priorities.Sublist t.priorities
  nodup : s.priorities.Nodup → t.priorities.Nodup
  placed : ∀ op ∈ ops, op ∈ t.priorities

theorem places_place (s : PctStrategy) (op : Nat) : s.Places (s.place op) [op] := by
  unfold place
  split
  · next known => exact ⟨.refl s, List.Sublist.refl _, id, by simpa using known⟩
  · next unknown =>
    have perm := perm_insertAt op (s.generator.below64 (s.priorities.length + 1)).1 s.priorities
    refine ⟨⟨rfl, rfl, rfl⟩, sublist_insertAt _ _ _, fun nodup => ?_, fun x mem => ?_⟩
    · exact perm.nodup_iff.2 (List.nodup_cons.2 ⟨unknown, nodup⟩)
    · obtain rfl := List.mem_singleton.1 mem
      exact perm.mem_iff.2 List.mem_cons_self

theorem places_placeAll (s : PctStrategy) (ops : List Nat) : s.Places (s.placeAll ops) ops := by
  induction ops generalizing s with
  | nil => exact ⟨.refl s, List.Sublist.refl _, id, by simp⟩
  | cons op ops ih =>
    have first := s.places_place op
    have rest := ih (s.place op)
    refine ⟨first.toSameStep.trans rest.toSameStep, first.kept.trans rest.kept,
      fun nodup => rest.nodup (first.nodup nodup), fun x mem => ?_⟩
    rcases List.mem_cons.1 mem with rfl | mem
    · exact rest.kept.subset (first.placed x List.mem_cons_self)
    · exact rest.placed x mem

theorem nodup_demote {s : PctStrategy} (nodup : s.priorities.Nodup) (op : Nat) :
    (s.demote op).priorities.Nodup := by
  refine List.nodup_append.2 ⟨nodup.filter _, by simp, ?_⟩
  rintro x mem _ last rfl
  obtain rfl := List.mem_singleton.1 last
  simp at mem

theorem mem_demote {s : PctStrategy} {op : Nat} (mem : op ∈ s.priorities) (moved : Nat) :
    op ∈ (s.demote moved).priorities := by
  by_cases same : op = moved
  · simp [demote, same]
  · simp [demote, same, mem]

/-- Only who is demoted falls behind. -/
theorem ordered_demote {s : PctStrategy} {a b op : Nat} (front : [a, b].Sublist s.priorities)
    (other : op ≠ a) : [a, b].Sublist (s.demote op).priorities := by
  have kept := front.filter (· != op)
  by_cases same : b = op
  · subst same
    have single : [a].Sublist (s.priorities.filter (· != b)) := by
      simpa [Ne.symm other] using kept
    exact single.append (List.Sublist.refl [b])
  · have both : [a, b].Sublist (s.priorities.filter (· != op)) := by
      simpa [Ne.symm other, same] using kept
    exact both.trans (List.sublist_append_left _ _)

/-! ## Who goes next -/

theorem exists_highest? {s : PctStrategy} {enabled : List Nat} {op : Nat} (able : op ∈ enabled)
    (known : op ∈ s.priorities) : ∃ top ∈ enabled, s.highest? enabled = some top := by
  cases found : s.highest? enabled with
  | none =>
    have nobody := List.find?_eq_none.1 found op known
    simp [able] at nobody
  | some top =>
    have able : enabled.contains top = true := List.find?_some found
    exact ⟨top, by simpa using able, rfl⟩

/-- The enabled operation of highest priority stands before the other enabled ones. -/
theorem ordered_of_highest? {s : PctStrategy} {enabled : List Nat} {a b : Nat}
    (top : s.highest? enabled = some a) (able : b ∈ enabled) (known : b ∈ s.priorities)
    (other : a ≠ b) : [a, b].Sublist s.priorities := by
  obtain ⟨_, before, behind, split, higher⟩ := List.find?_eq_some_iff_append.1 top
  have lower : b ∉ before := fun mem => by simpa [able] using higher b mem
  have mem : b ∈ behind := by
    rw [split] at known
    simpa [lower, Ne.symm other] using known
  rw [split]
  exact (List.Sublist.cons_cons a (List.singleton_sublist.2 mem)).trans
    (List.sublist_append_right _ _)

/-- The operation that a question moves to the lowest priority. -/
def demoted? (s : PctStrategy) : Inquiry → Option Nat
  | .operation _ _ enabled =>
    if s.step + 1 ∈ s.changePoints then (s.advance.placeAll enabled).highest? enabled else none
  | .iteration _ | .truth | .number _ => none

/-- A question for an operation gives priorities, and at a change point it demotes one. -/
theorem ask_operation (s : PctStrategy) (kind : PointKind) (current : Nat) (enabled : List Nat) :
    Strategy.ask s (.operation kind current enabled) =
      ((s.demoted? (.operation kind current enabled)).elim (s.advance.placeAll enabled)
        (s.advance.placeAll enabled).demote) := by
  have placed := (s.advance.places_placeAll enabled).toSameStep
  have state : Strategy.ask s (.operation kind current enabled) =
      (s.advance.placeAll enabled).applyChangePoint enabled := by
    simp only [Strategy.ask, Strategy.nextOperation, nextOperation]
    split <;> rfl
  rw [state, applyChangePoint, placed.step, placed.changePoints, demoted?]
  split
  · next point =>
    have point : s.step + 1 ∈ s.changePoints := point
    rw [if_pos point]
    cases (s.advance.placeAll enabled).highest? enabled <;> rfl
  · next plain =>
    have plain : ¬s.step + 1 ∈ s.changePoints := plain
    rw [if_neg plain]
    rfl

theorem chosen?_eq_highest? (s : PctStrategy) (kind : PointKind) (current : Nat)
    (enabled : List Nat) :
    Strategy.chosen? s (.operation kind current enabled) =
      (Strategy.ask s (.operation kind current enabled)).highest? enabled := by
  simp only [Strategy.chosen?, Strategy.ask, Strategy.nextOperation, nextOperation]
  split
  · next found => simp [Except.toOption, found]
  · next found => simp [Except.toOption, found]

/-! ## One question -/

/-- What a question of an iteration does to it. -/
structure Advances (s t : PctStrategy) : Prop where
  changePointCount : t.changePointCount = s.changePointCount
  changePoints : t.changePoints = s.changePoints
  step : t.step = s.step + 1

theorem advances_ask (s : PctStrategy) {q : Inquiry} (within : q.Within) :
    s.Advances (Strategy.ask s q) := by
  cases q with
  | iteration => exact within.elim
  | operation kind current enabled =>
    have placed := (s.advance.places_placeAll enabled).toSameStep
    rw [ask_operation]
    cases s.demoted? (.operation kind current enabled) <;>
      exact ⟨placed.changePointCount, placed.changePoints, placed.step⟩
  | truth => exact ⟨rfl, rfl, rfl⟩
  | number max =>
    simp only [Strategy.ask, Strategy.nextInt, nextInt]
    split <;> exact ⟨rfl, rfl, rfl⟩

theorem nodup_ask {s : PctStrategy} (nodup : s.priorities.Nodup) (q : Inquiry) :
    (Strategy.ask s q).priorities.Nodup := by
  cases q with
  | iteration number =>
    simp only [Strategy.ask, Strategy.prepare, prepare]
    split <;> exact List.nodup_nil
  | operation kind current enabled =>
    have placed := (s.advance.places_placeAll enabled).nodup nodup
    rw [ask_operation]
    cases s.demoted? (.operation kind current enabled) with
    | none => exact placed
    | some op => exact nodup_demote placed op
  | truth => exact nodup
  | number max =>
    simp only [Strategy.ask, Strategy.nextInt, nextInt]
    split <;> exact nodup

/-- The operation in front stays there unless it is demoted. -/
theorem ordered_ask {s : PctStrategy} {a b : Nat} (front : [a, b].Sublist s.priorities)
    {q : Inquiry} (within : q.Within) (stays : s.demoted? q ≠ some a) :
    [a, b].Sublist (Strategy.ask s q).priorities := by
  cases q with
  | iteration => exact within.elim
  | operation kind current enabled =>
    have placed := front.trans (s.advance.places_placeAll enabled).kept
    rw [ask_operation]
    cases moved : s.demoted? (.operation kind current enabled) with
    | none => exact placed
    | some op => exact ordered_demote placed fun same => stays (moved.trans (congrArg some same))
  | truth => exact front
  | number max =>
    simp only [Strategy.ask, Strategy.nextInt, nextInt]
    split <;> exact front

/-- Every operation that is asked about has a priority from then on. -/
theorem mem_ask_of_enabled (s : PctStrategy) {q : Inquiry} {op : Nat} (able : op ∈ q.enabled) :
    op ∈ (Strategy.ask s q).priorities := by
  cases q with
  | operation kind current enabled =>
    have placed := (s.advance.places_placeAll enabled).placed op able
    rw [ask_operation]
    cases s.demoted? (.operation kind current enabled) with
    | none => exact placed
    | some moved => exact mem_demote placed moved
  | iteration | truth | number => cases able

/-- Who is chosen stands before everyone else who could have been chosen. -/
theorem ordered_of_chosen? {s : PctStrategy} {q : Inquiry} {a b : Nat}
    (chosen : Strategy.chosen? s q = some a) (able : b ∈ q.enabled) (other : a ≠ b) :
    [a, b].Sublist (Strategy.ask s q).priorities := by
  have known := s.mem_ask_of_enabled able
  cases q with
  | operation kind current enabled =>
    rw [chosen?_eq_highest?] at chosen
    exact ordered_of_highest? chosen able known other
  | iteration | truth | number => cases able

/-- An operation is demoted at a change point, to the end of the list. -/
theorem of_demoted? {s : PctStrategy} {q : Inquiry} {op : Nat} (moved : s.demoted? q = some op) :
    s.step + 1 ∈ s.changePoints ∧ (Strategy.ask s q).priorities.getLast? = some op := by
  cases q with
  | operation kind current enabled =>
    have last :
        (Strategy.ask s (.operation kind current enabled)).priorities.getLast? = some op := by
      rw [ask_operation, moved]
      simp [demote]
    refine ⟨?_, last⟩
    rw [demoted?] at moved
    split at moved
    · assumption
    · cases moved
  | iteration | truth | number => cases moved

/-! ## An iteration -/

theorem after_within (s : PctStrategy) {asked : List Inquiry} (within : ∀ q ∈ asked, q.Within) :
    (Strategy.after s asked).changePoints = s.changePoints ∧
      (Strategy.after s asked).step = s.step + asked.length := by
  induction asked generalizing s with
  | nil => exact ⟨rfl, rfl⟩
  | cons q asked ih =>
    obtain ⟨first, rest⟩ := List.forall_mem_cons.1 within
    have advanced := s.advances_ask first
    obtain ⟨points, step⟩ := ih (Strategy.ask s q) rest
    refine ⟨points.trans advanced.changePoints, step.trans ?_⟩
    rw [advanced.step, List.length_cons]
    omega

theorem nodup_after {s : PctStrategy} (nodup : s.priorities.Nodup) (asked : List Inquiry) :
    (Strategy.after s asked).priorities.Nodup := by
  induction asked generalizing s with
  | nil => exact nodup
  | cons q asked ih => exact ih (nodup_ask nodup q)

/-- At a change point, at one of the questions asked from a state on, an operation is moved from
before the other enabled ones to the end. -/
def Demotes (s : PctStrategy) (asked : List Inquiry) (op : Nat) : Prop :=
  ∃ point ∈ s.changePoints, s.step < point ∧ point ≤ (Strategy.after s asked).step ∧
    ∃ before q rest, asked = before ++ q :: rest ∧
      (Strategy.after s before).demoted? q = some op ∧
      (Strategy.after s (before ++ [q])).step = point ∧
      (Strategy.after s (before ++ [q])).priorities.getLast? = some op

theorem demotes_of_demoted? {s : PctStrategy} {before rest : List Inquiry} {q : Inquiry} {op : Nat}
    (within : ∀ q' ∈ before ++ q :: rest, q'.Within)
    (moved : (Strategy.after s before).demoted? q = some op) :
    s.Demotes (before ++ q :: rest) op := by
  obtain ⟨point, last⟩ := of_demoted? moved
  have early := s.after_within fun q' mem => within q' (List.mem_append_left _ mem)
  have whole := s.after_within within
  have here := ((Strategy.after s before).advances_ask (within q (by simp))).step
  rw [early.1, early.2] at point
  rw [early.2] at here
  refine ⟨_, point, by omega, ?_, before, q, rest, rfl, moved, ?_, ?_⟩
  · rw [whole.2, List.length_append, List.length_cons]
    omega
  · rw [Strategy.after_concat, here]
  · rw [Strategy.after_concat]
    exact last

/-- An operation falls behind another one only at a question that demotes it. -/
theorem exists_demoted? {s : PctStrategy} (nodup : s.priorities.Nodup) {a b : Nat}
    (front : [a, b].Sublist s.priorities) {asked : List Inquiry} (within : ∀ q ∈ asked, q.Within)
    (behind : [b, a].Sublist (Strategy.after s asked).priorities) :
    ∃ before q rest, asked = before ++ q :: rest ∧
      (Strategy.after s before).demoted? q = some a := by
  induction asked generalizing s with
  | nil => exact (not_sublist_swap nodup front behind).elim
  | cons q asked ih =>
    obtain ⟨first, rest⟩ := List.forall_mem_cons.1 within
    by_cases moved : s.demoted? q = some a
    · exact ⟨[], q, asked, rfl, moved⟩
    · obtain ⟨before, q', later, split, moved'⟩ :=
        ih (nodup_ask nodup q) (ordered_ask front first moved) rest behind
      exact ⟨q :: before, q', later, by rw [split, List.cons_append], moved'⟩

theorem demotes_of_behind {s : PctStrategy} (nodup : s.priorities.Nodup) {a b : Nat}
    (front : [a, b].Sublist s.priorities) {asked : List Inquiry} (within : ∀ q ∈ asked, q.Within)
    (behind : [b, a].Sublist (Strategy.after s asked).priorities) : s.Demotes asked a := by
  obtain ⟨before, q, rest, rfl, moved⟩ := exists_demoted? nodup front within behind
  exact demotes_of_demoted? within moved

/-! ## Changes of the winner -/

/-- Who is chosen of two operations, where both could be. -/
def winner? (a b : Nat) (s : PctStrategy) (q : Inquiry) : Option Nat :=
  if a ∈ q.enabled ∧ b ∈ q.enabled then
    (Strategy.chosen? s q).filter fun op => op == a || op == b
  else none

/-- Who is chosen of two operations, each time one of them is and both could be. -/
def winners (a b : Nat) (s : PctStrategy) : List Inquiry → List Nat
  | [] => []
  | q :: asked => (winner? a b s q).toList ++ winners a b (Strategy.ask s q) asked

/-- How often an entry differs from the one before it. -/
def changes : List Nat → Nat
  | a :: b :: rest => (if a = b then 0 else 1) + changes (b :: rest)
  | [_] | [] => 0

theorem changes_cons_le (a b : Nat) (rest : List Nat) :
    changes (a :: rest) ≤ changes (b :: rest) + 1 := by
  cases rest with
  | nil => exact Nat.zero_le _
  | cons c rest =>
    simp only [changes]
    split <;> split <;> omega

theorem winner?_comm (a b : Nat) (s : PctStrategy) (q : Inquiry) :
    winner? a b s q = winner? b a s q := by
  simp only [winner?, and_comm, Bool.or_comm]

theorem winners_comm (a b : Nat) (s : PctStrategy) (asked : List Inquiry) :
    winners a b s asked = winners b a s asked := by
  induction asked generalizing s with
  | nil => rfl
  | cons q asked ih => rw [winners, winners, winner?_comm, ih]

/-- The winner stands before the other one afterwards. -/
theorem ordered_of_winner? {a b w : Nat} (other : a ≠ b) {s : PctStrategy} {q : Inquiry}
    (won : winner? a b s q = some w) :
    w = a ∧ [a, b].Sublist (Strategy.ask s q).priorities ∨
      w = b ∧ [b, a].Sublist (Strategy.ask s q).priorities := by
  rw [winner?] at won
  split at won
  · next able =>
    obtain ⟨chosen, which⟩ := Option.filter_eq_some_iff.1 won
    rcases (by simpa using which : w = a ∨ w = b) with rfl | rfl
    · exact .inl ⟨rfl, ordered_of_chosen? chosen able.2 other⟩
    · exact .inr ⟨rfl, ordered_of_chosen? chosen able.1 (Ne.symm other)⟩
  · cases won

/-- Who is demoted stands behind everyone else. -/
theorem ordered_of_demoted? {s : PctStrategy} {q : Inquiry} {a b : Nat}
    (moved : s.demoted? q = some a) (known : b ∈ s.priorities) (other : a ≠ b) :
    [b, a].Sublist (Strategy.ask s q).priorities := by
  cases q with
  | operation kind current enabled =>
    have placed := (s.advance.places_placeAll enabled).kept.subset known
    rw [ask_operation, moved]
    have rest : [b].Sublist ((s.advance.placeAll enabled).priorities.filter (· != a)) :=
      List.singleton_sublist.2 (List.mem_filter.2 ⟨placed, by simpa using Ne.symm other⟩)
    exact rest.append (List.Sublist.refl [a])
  | iteration | truth | number => cases moved

/-- The change points of an iteration that are still to come. -/
def pending (s : PctStrategy) : Finset Nat := s.changePoints.toFinset.filter (s.step < ·)

theorem pending_ask_subset (s : PctStrategy) {q : Inquiry} (within : q.Within) :
    (Strategy.ask s q).pending ⊆ s.pending := by
  have advanced := s.advances_ask within
  intro point mem
  rw [pending, advanced.changePoints, advanced.step] at mem
  simp only [pending, Finset.mem_filter, List.mem_toFinset] at mem ⊢
  exact ⟨mem.1, by omega⟩

/-- A demotion uses a change point up. -/
theorem card_pending_of_demoted? {s : PctStrategy} {q : Inquiry} (within : q.Within) {op : Nat}
    (moved : s.demoted? q = some op) :
    (Strategy.ask s q).pending.card + 1 ≤ s.pending.card := by
  have advanced := s.advances_ask within
  refine Finset.card_lt_card ⟨s.pending_ask_subset within, fun all => ?_⟩
  have here : s.step + 1 ∈ s.pending := by simp [pending, (of_demoted? moved).1]
  have later := all here
  simp [pending, advanced.step] at later

/-- From a state on in which one of two operations stands before the other, the winner changes only at
change points that are still to come. The induction is on the questions; at a demotion the two
operations change parts. -/
theorem changes_le_of_ordered {s : PctStrategy} (nodup : s.priorities.Nodup) {a b : Nat}
    (other : a ≠ b) (front : [a, b].Sublist s.priorities) {asked : List Inquiry}
    (within : ∀ q ∈ asked, q.Within) :
    changes (a :: winners a b s asked) ≤ s.pending.card := by
  induction asked generalizing s a b with
  | nil => exact Nat.zero_le _
  | cons q asked ih =>
    obtain ⟨first, rest⟩ := List.forall_mem_cons.1 within
    have nodup' := nodup_ask nodup q
    by_cases moved : s.demoted? q = some a
    · have behind := ordered_of_demoted? moved (front.subset (by simp)) other
      have later := ih nodup' (Ne.symm other) behind rest
      rw [winners_comm] at later
      have used := card_pending_of_demoted? first moved
      cases won : winner? a b s q with
      | none =>
        have switched := changes_cons_le a b (winners a b (Strategy.ask s q) asked)
        rw [winners, won]
        simp only [Option.toList_none, List.nil_append]
        omega
      | some w =>
        rcases ordered_of_winner? other won with ⟨_, ahead⟩ | ⟨rfl, _⟩
        · exact (not_sublist_swap nodup' ahead behind).elim
        · rw [winners, won]
          simp only [Option.toList_some, List.cons_append, List.nil_append, changes, if_neg other]
          omega
    · have ahead := ordered_ask front first moved
      have later := ih nodup' other ahead rest
      have fewer := Finset.card_le_card (s.pending_ask_subset first)
      cases won : winner? a b s q with
      | none =>
        rw [winners, won]
        simp only [Option.toList_none, List.nil_append]
        omega
      | some w =>
        rcases ordered_of_winner? other won with ⟨rfl, _⟩ | ⟨_, behind⟩
        · rw [winners, won]
          simp only [Option.toList_some, List.cons_append, List.nil_append, changes, if_true]
          omega
        · exact (not_sublist_swap nodup' ahead behind).elim

theorem changes_winners_le {s : PctStrategy} (nodup : s.priorities.Nodup) {a b : Nat}
    (other : a ≠ b) {asked : List Inquiry} (within : ∀ q ∈ asked, q.Within) :
    changes (winners a b s asked) ≤ s.pending.card := by
  induction asked generalizing s with
  | nil => exact Nat.zero_le _
  | cons q asked ih =>
    obtain ⟨first, rest⟩ := List.forall_mem_cons.1 within
    have nodup' := nodup_ask nodup q
    have fewer := Finset.card_le_card (s.pending_ask_subset first)
    cases won : winner? a b s q with
    | none =>
      rw [winners, won]
      exact (ih nodup' rest).trans fewer
    | some w =>
      rw [winners, won]
      rcases ordered_of_winner? other won with ⟨rfl, ahead⟩ | ⟨rfl, ahead⟩
      · exact (changes_le_of_ordered nodup' other ahead rest).trans fewer
      · rw [winners_comm]
        exact (changes_le_of_ordered nodup' (Ne.symm other) ahead rest).trans fewer

/-! ## The number of change points -/

theorem length_changePoints_ask {s : PctStrategy}
    (few : s.changePoints.length ≤ s.changePointCount) (q : Inquiry) :
    (Strategy.ask s q).changePointCount = s.changePointCount ∧
      (Strategy.ask s q).changePoints.length ≤ s.changePointCount := by
  by_cases within : q.Within
  · have advanced := s.advances_ask within
    exact ⟨advanced.changePointCount, advanced.changePoints ▸ few⟩
  · cases q with
    | iteration number =>
      simp only [Strategy.ask, Strategy.prepare, prepare]
      split
      · exact ⟨rfl, Nat.zero_le _⟩
      · refine ⟨rfl, ?_⟩
        rw [List.length_map, Random.length_sample _ (Nat.min_le_right _ _)]
        exact Nat.min_le_left _ _
    | operation | truth | number => exact (within trivial).elim

theorem length_changePoints_after {s : PctStrategy}
    (few : s.changePoints.length ≤ s.changePointCount) (asked : List Inquiry) :
    (Strategy.after s asked).changePoints.length ≤ s.changePointCount := by
  induction asked generalizing s with
  | nil => exact few
  | cons q asked ih =>
    obtain ⟨count, fewer⟩ := length_changePoints_ask few q
    exact count ▸ ih (count.symm ▸ fewer)

/-! ## The discipline -/

/-- What priorities come to from a state of the strategy on. -/
structure Disciplined (count : Nat) (s : PctStrategy) : Prop where
  /-- No operation has two priorities. -/
  once : s.priorities.Nodup
  /-- Whenever some operation is enabled, one of the enabled operations is chosen. -/
  answered : ∀ kind current enabled, enabled ≠ [] →
    ∃ op ∈ enabled, (Strategy.nextOperation s kind current enabled).1 = .ok op
  /-- If `a` is chosen where `b` could be, and later in the iteration `b` where `a` could be, then `a`
  was demoted after the first of these questions, at the latest at the second one. -/
  overtaken : ∀ {a b : Nat} {first last : Inquiry} {between : List Inquiry},
    (∀ q ∈ first :: (between ++ [last]), q.Within) → a ≠ b →
    Strategy.chosen? s first = some a → b ∈ first.enabled →
    Strategy.chosen? (Strategy.after s (first :: between)) last = some b → a ∈ last.enabled →
    (Strategy.ask s first).Demotes (between ++ [last]) a
  /-- The winner between two operations changes at most as often as there are change points. -/
  steady : ∀ {a b : Nat} {asked : List Inquiry}, (∀ q ∈ asked, q.Within) → a ≠ b →
    changes (winners a b s asked) ≤ s.changePoints.toFinset.card
  configured : s.changePoints.toFinset.card ≤ count

/-- Whatever a strategy by priorities was asked, from iteration to iteration, it keeps the
discipline. -/
theorem disciplined (seed count : Nat) (asked : List Inquiry) :
    (Strategy.after (PctStrategy.new seed count) asked).Disciplined count := by
  have nodup := nodup_after (s := PctStrategy.new seed count) List.nodup_nil asked
  have few := length_changePoints_after (s := PctStrategy.new seed count) (Nat.zero_le _) asked
  generalize Strategy.after (PctStrategy.new seed count) asked = s at nodup few
  refine ⟨nodup, fun kind current enabled some => ?_, ?_, fun within other => ?_, ?_⟩
  · obtain ⟨op, able⟩ := List.exists_mem_of_ne_nil enabled some
    obtain ⟨top, able, found⟩ := exists_highest? able
      (s.mem_ask_of_enabled (q := .operation kind current enabled) able)
    rw [← chosen?_eq_highest?] at found
    exact ⟨top, able, Strategy.of_chosen? found⟩
  · intro a b first last between within other ahead able behind able'
    obtain ⟨start, rest⟩ := List.forall_mem_cons.1 within
    have order := ordered_of_chosen? behind able' (Ne.symm other)
    rw [Strategy.after_cons, ← Strategy.after_concat] at order
    exact demotes_of_behind (nodup_ask nodup first) (ordered_of_chosen? ahead able other) rest order
  · exact (changes_winners_le nodup other within).trans (Finset.card_filter_le _ _)
  · exact (List.toFinset_card_le _).trans few

/-- Two operations, both of which may go next. -/
def race : Inquiry := .operation .yield 0 [0, 1]

/-- The start of a second iteration, after six races in the first one. -/
def raced : PctStrategy :=
  Strategy.after (PctStrategy.new 0 2) (.iteration 0 :: (List.replicate 6 race ++ [.iteration 1]))

/-- The second iteration has change points at its second and fifth question. In six races the winner
changes at both; and who has won is demoted also where it alone may go next, so that the other one
wins the next race. -/
theorem disciplined_racing :
    raced.changePoints = [5, 2] ∧
      changes (winners 0 1 raced (List.replicate 6 race)) = 2 ∧
      changes (winners 0 1 raced (List.replicate 6 race)) ≤ raced.changePoints.toFinset.card ∧
      (Strategy.ask raced race).Demotes [.operation .send 0 [0], race] 0 := by
  have keeps : raced.Disciplined 2 := disciplined 0 2 _
  refine ⟨by decide +kernel, by decide +kernel, keeps.steady (by decide) (by decide), ?_⟩
  have demotes : (Strategy.ask raced race).Demotes ([.operation .send 0 [0]] ++ [race]) 0 :=
    keeps.overtaken (b := 1) (by decide) (by decide) (by decide +kernel) (by decide)
      (by decide +kernel) (by decide)
  exact demotes

end PctStrategy

end SteeredActors
