import SteeredActors.Proofs.Random.Sample
import SteeredActors.Proofs.Strategy.Contract

/-!
# Every iteration starts anew

At the start of an iteration nobody has a priority and no step is counted. The change points are drawn
afresh, as many as are configured unless the longest iteration so far had fewer questions, and each of
them is a step that the longest iteration had. So of the earlier iterations only their greatest length
and the position in the stream of words are left.
-/

set_option autoImplicit false
set_option relaxedAutoImplicit false

namespace SteeredActors

/-! ## Rounds of questions -/

namespace Strategy

/-- A question of an iteration that has an answer: somebody is enabled if an operation is asked for. -/
def Inquiry.Answerable : Inquiry → Prop
  | .iteration _ => False
  | .operation _ _ enabled => enabled ≠ []
  | .truth | .number _ => True

theorem Inquiry.Answerable.within {q : Inquiry} (answerable : q.Answerable) : q.Within := by
  cases q with
  | iteration => exact answerable.elim
  | operation | truth | number => trivial

/-- What a strategy is asked in an iteration. -/
structure Round where
  /-- The number of the iteration. -/
  number : Nat
  questions : List Inquiry
  answerable : ∀ q ∈ questions, q.Answerable

theorem Round.within (r : Round) : ∀ q ∈ r.questions, q.Within :=
  fun q mem => (r.answerable q mem).within

variable {σ : Type} [Strategy σ]

/-- The strategy at the start of an iteration. -/
def start (s : σ) (r : Round) : σ := ask s (.iteration r.number)

/-- The strategy after some iterations. -/
def afterRounds (s : σ) : List Round → σ
  | [] => s
  | r :: history => afterRounds (after (start s r) r.questions) history

/-- The strategy has an answer to a question. -/
def answers (s : σ) : Inquiry → Bool
  | .iteration _ => false
  | .operation kind current enabled => (Strategy.nextOperation s kind current enabled).1.isOk
  | .truth => (Strategy.nextBool s).1.isOk
  | .number max => (Strategy.nextInt s max).1.isOk

/-- How many of some questions are answered. -/
def answered (s : σ) : List Inquiry → Nat
  | [] => 0
  | q :: asked => (answers s q).toNat + answered (ask s q) asked

/-- The most questions that are answered in one of some iterations. -/
def mostAnswered (s : σ) : List Round → Nat
  | [] => 0
  | r :: history =>
    max (answered (start s r) r.questions)
      (mostAnswered (after (start s r) r.questions) history)

theorem Contract.answers {s : σ} (contract : Contract s) {q : Inquiry}
    (answerable : q.Answerable) : answers s q = true := by
  cases q with
  | iteration => exact answerable.elim
  | operation kind current enabled =>
    obtain ⟨op, answer⟩ := contract.operation kind current enabled answerable
    simp [Strategy.answers, answer, Except.isOk, Except.toBool]
  | truth =>
    obtain ⟨b, answer⟩ := contract.truth
    simp [Strategy.answers, answer, Except.isOk, Except.toBool]
  | number max =>
    obtain ⟨n, answer⟩ := contract.number max
    simp [Strategy.answers, answer, Except.isOk, Except.toBool]

/-- A strategy that keeps the contract all the time answers every question. -/
theorem answered_eq_length (contract : ∀ s : σ, Contract s) (s : σ) {asked : List Inquiry}
    (answerable : ∀ q ∈ asked, q.Answerable) : answered s asked = asked.length := by
  induction asked generalizing s with
  | nil => rfl
  | cons q asked ih =>
    obtain ⟨first, rest⟩ := List.forall_mem_cons.1 answerable
    rw [answered, (contract s).answers first, ih (ask s q) rest, Bool.toNat_true, List.length_cons,
      Nat.add_comm]

end Strategy

namespace PctStrategy

open Strategy (Inquiry Round)

/-! ## What an iteration adds -/

/-- Only some operations get a priority, and the length of earlier iterations is left alone. -/
structure Confined (s t : PctStrategy) (ops : List Nat) : Prop where
  scheduleLength : t.scheduleLength = s.scheduleLength
  known : ∀ op ∈ t.priorities, op ∈ s.priorities ∨ op ∈ ops

theorem Confined.refl (s : PctStrategy) : s.Confined s [] := ⟨rfl, fun _ => .inl⟩

theorem Confined.trans {s t u : PctStrategy} {ops more : List Nat} (h : s.Confined t ops)
    (k : t.Confined u more) : s.Confined u (ops ++ more) := by
  refine ⟨k.scheduleLength.trans h.scheduleLength, fun op mem => ?_⟩
  rw [List.mem_append, ← or_assoc]
  exact (k.known op mem).imp_left (h.known op)

theorem confined_place (s : PctStrategy) (op : Nat) : s.Confined (s.place op) [op] := by
  unfold place
  split
  · exact ⟨rfl, fun _ => .inl⟩
  · refine ⟨rfl, fun x mem => ?_⟩
    have perm := perm_insertAt op (s.generator.below64 (s.priorities.length + 1)).1 s.priorities
    rcases List.mem_cons.1 (perm.mem_iff.1 mem) with rfl | mem
    · exact .inr List.mem_cons_self
    · exact .inl mem

theorem confined_placeAll (s : PctStrategy) (ops : List Nat) : s.Confined (s.placeAll ops) ops := by
  induction ops generalizing s with
  | nil => exact .refl s
  | cons op ops ih => exact (s.confined_place op).trans (ih (s.place op))

theorem confined_demote {s : PctStrategy} {op : Nat} (known : op ∈ s.priorities) :
    s.Confined (s.demote op) [] := by
  refine ⟨rfl, fun x mem => .inl ?_⟩
  rcases List.mem_append.1 mem with mem | mem
  · exact (List.mem_filter.1 mem).1
  · obtain rfl := List.mem_singleton.1 mem
    exact known

/-- Who is demoted has a priority. -/
theorem mem_of_demoted? {s : PctStrategy} {kind : PointKind} {current op : Nat} {enabled : List Nat}
    (moved : s.demoted? (.operation kind current enabled) = some op) :
    op ∈ (s.advance.placeAll enabled).priorities := by
  rw [demoted?] at moved
  split at moved
  · exact List.mem_of_find?_eq_some moved
  · cases moved

theorem confined_ask (s : PctStrategy) {q : Inquiry} (within : q.Within) :
    s.Confined (Strategy.ask s q) q.enabled := by
  cases q with
  | iteration => exact within.elim
  | operation kind current enabled =>
    have advanced : s.Confined s.advance [] := ⟨rfl, fun _ => .inl⟩
    have placed := advanced.trans (s.advance.confined_placeAll enabled)
    rw [ask_operation]
    cases moved : s.demoted? (.operation kind current enabled) with
    | none => exact placed
    | some op =>
      have demoted := placed.trans (confined_demote (mem_of_demoted? moved))
      rw [List.append_nil] at demoted
      exact demoted
  | truth => exact ⟨rfl, fun _ => .inl⟩
  | number max =>
    simp only [Strategy.ask, Strategy.nextInt, nextInt]
    split <;> exact ⟨rfl, fun _ => .inl⟩

theorem confined_after (s : PctStrategy) {asked : List Inquiry} (within : ∀ q ∈ asked, q.Within) :
    s.Confined (Strategy.after s asked) (asked.flatMap Inquiry.enabled) := by
  induction asked generalizing s with
  | nil => exact .refl s
  | cons q asked ih =>
    obtain ⟨first, rest⟩ := List.forall_mem_cons.1 within
    exact (s.confined_ask first).trans (ih (Strategy.ask s q) rest)

/-! ## Getting ready -/

/-- The most questions of an iteration so far, the last one included. -/
def longest (s : PctStrategy) : Nat := max s.scheduleLength s.step

/-- The state at the start of an iteration, but for its change points. -/
def cleared (s : PctStrategy) : PctStrategy :=
  { s with scheduleLength := s.longest, priorities := [], changePoints := [], step := 0 }

/-- Take a sample of positions, counted from zero, for the change points. -/
def withSample (s : PctStrategy) (drawn : List Nat × Random.Generator) : PctStrategy :=
  { s with generator := drawn.2, changePoints := drawn.1.map (· + 1) }

theorem prepare_eq (s : PctStrategy) :
    s.prepare =
      if min s.changePointCount s.longest = 0 then s.cleared
      else
        s.cleared.withSample
          (Random.sample s.generator s.longest (min s.changePointCount s.longest)) := by
  unfold prepare longest cleared withSample
  rfl

/-- Get ready for an iteration; nothing if more change points are to be drawn than there are steps to
draw them from. -/
def prepare? (s : PctStrategy) : Option PctStrategy :=
  if min s.changePointCount s.longest = 0 then some s.cleared
  else
    (Random.sample? s.generator s.longest (min s.changePointCount s.longest)).map
      s.cleared.withSample

/-- There are always steps enough. -/
theorem prepare?_eq (s : PctStrategy) : s.prepare? = some s.prepare := by
  have possible : min s.changePointCount s.longest ≤ s.longest := Nat.min_le_right _ _
  rw [prepare?, prepare_eq, Random.sample?, if_pos possible, Option.map_some]
  split <;> rfl

/-- The state at the start of an iteration, after earlier ones with some greatest length. -/
structure Fresh (count longest : Nat) (s : PctStrategy) : Prop where
  priorities : s.priorities = []
  step : s.step = 0
  distinct : s.changePoints.Nodup
  amount : s.changePoints.length = min count longest
  range : ∀ point ∈ s.changePoints, 1 ≤ point ∧ point ≤ longest

theorem fresh_prepare (s : PctStrategy) : s.prepare.Fresh s.changePointCount s.longest := by
  rw [prepare_eq]
  split
  · next none => exact ⟨rfl, rfl, List.nodup_nil, none.symm, nofun⟩
  · have possible : min s.changePointCount s.longest ≤ s.longest := Nat.min_le_right _ _
    have drawn := Random.distinct_sample s.generator possible
    have length := Random.length_sample s.generator possible
    generalize Random.sample s.generator s.longest (min s.changePointCount s.longest) = sample
      at drawn length
    -- positions count from zero and steps from one
    refine ⟨rfl, rfl, drawn.nodup.map Nat.succ_injective, ?_, fun point chosen => ?_⟩
    · rw [← length]
      exact List.length_map _
    · obtain ⟨position, mem, rfl⟩ := List.mem_map.1 chosen
      exact ⟨Nat.succ_pos position, drawn.below position mem⟩

theorem scheduleLength_prepare (s : PctStrategy) : s.prepare.scheduleLength = s.longest := by
  rw [prepare_eq]
  split <;> rfl

theorem changePointCount_prepare (s : PctStrategy) :
    s.prepare.changePointCount = s.changePointCount := by
  rw [prepare_eq]
  split <;> rfl

/-- Of the state before, only the stream of words, the configured number and the greatest length
matter. -/
theorem prepare_congr {s t : PctStrategy} (seed : t.seed = s.seed)
    (generator : t.generator = s.generator) (count : t.changePointCount = s.changePointCount)
    (longest : t.longest = s.longest) : t.prepare = s.prepare := by
  have cleared : t.cleared = s.cleared := by
    rw [PctStrategy.cleared, PctStrategy.cleared, seed, generator, count, longest]
  rw [prepare_eq, prepare_eq, cleared, generator, count, longest]

/-! ## From iteration to iteration -/

theorem changePointCount_after (s : PctStrategy) {asked : List Inquiry}
    (within : ∀ q ∈ asked, q.Within) :
    (Strategy.after s asked).changePointCount = s.changePointCount := by
  induction asked generalizing s with
  | nil => rfl
  | cons q asked ih =>
    obtain ⟨first, rest⟩ := List.forall_mem_cons.1 within
    exact (ih (Strategy.ask s q) rest).trans (s.advances_ask first).changePointCount

/-- A longer iteration takes the place of the longest one. -/
theorem longest_round (s : PctStrategy) (r : Round) :
    (Strategy.after (Strategy.start s r) r.questions).longest =
      max s.longest r.questions.length := by
  have length : (Strategy.start s r).scheduleLength = s.longest := s.scheduleLength_prepare
  have step : (Strategy.start s r).step = 0 := s.fresh_prepare.step
  have asked := ((Strategy.start s r).after_within r.within).2
  rw [longest, ((Strategy.start s r).confined_after r.within).scheduleLength, length, asked, step,
    Nat.zero_add]

theorem changePointCount_afterRounds (s : PctStrategy) (history : List Round) :
    (Strategy.afterRounds s history).changePointCount = s.changePointCount := by
  induction history generalizing s with
  | nil => rfl
  | cons r history ih =>
    rw [Strategy.afterRounds, ih, changePointCount_after _ r.within]
    exact s.changePointCount_prepare

/-- Every question is answered, so the steps that are counted are answers. -/
theorem longest_afterRounds (s : PctStrategy) (history : List Round) :
    (Strategy.afterRounds s history).longest = max s.longest (Strategy.mostAnswered s history) := by
  induction history generalizing s with
  | nil => exact (Nat.max_zero _).symm
  | cons r history ih =>
    have all := Strategy.answered_eq_length contract (Strategy.start s r) r.answerable
    rw [Strategy.afterRounds, ih, longest_round, Strategy.mostAnswered, all, Nat.max_assoc]

/-- How an iteration follows others, in the longest of which some number of questions was answered. -/
structure Renews (count longest : Nat) (s : PctStrategy) (next : Round) : Prop
    extends (Strategy.start s next).Fresh count longest where
  ready : (Strategy.prepare s next.number).1 = true
  /-- No more change points are drawn than there are steps. -/
  possible : s.prepare? = some (Strategy.start s next)
  /-- The priorities and the change points of before do not matter. -/
  forgets : ∀ t : PctStrategy, t.seed = s.seed → t.generator = s.generator →
    t.changePointCount = s.changePointCount → t.longest = s.longest →
    Strategy.start t next = Strategy.start s next
  /-- At each question the change points are those of this iteration, and so are the operations that
  have a priority. -/
  confined : ∀ asked, asked <+: next.questions →
    (Strategy.after (Strategy.start s next) asked).changePoints =
        (Strategy.start s next).changePoints ∧
      ∀ op ∈ (Strategy.after (Strategy.start s next) asked).priorities,
        ∃ q ∈ asked, op ∈ q.enabled

theorem renews (s : PctStrategy) (next : Round) :
    s.Renews s.changePointCount s.longest next where
  toFresh := s.fresh_prepare
  ready := rfl
  possible := s.prepare?_eq
  forgets _ := prepare_congr
  confined asked early := by
    have within : ∀ q ∈ asked, q.Within := fun q mem => next.within q (early.subset mem)
    refine ⟨((Strategy.start s next).after_within within).1, fun op mem => ?_⟩
    have nobody : (Strategy.start s next).priorities = [] := s.fresh_prepare.priorities
    rcases ((Strategy.start s next).confined_after within).known op mem with old | new
    · rw [nobody] at old
      cases old
    · exact List.mem_flatMap.1 new

/-- Whatever its seed and its history, a strategy by priorities starts every iteration anew: with as
many different change points as are configured, or as the longest iteration had answers if these are
fewer. So the first iteration has none. -/
theorem starts_anew (seed count : Nat) (history : List Round) (next : Round) :
    (Strategy.afterRounds (PctStrategy.new seed count) history).Renews count
        (Strategy.mostAnswered (PctStrategy.new seed count) history) next ∧
      (Strategy.start (PctStrategy.new seed count) next).changePoints = [] := by
  have unasked : (PctStrategy.new seed count).longest = 0 := rfl
  have anew := (Strategy.afterRounds (PctStrategy.new seed count) history).renews next
  have first := ((PctStrategy.new seed count).renews next).amount
  rw [changePointCount_afterRounds, longest_afterRounds, unasked, Nat.zero_max] at anew
  rw [unasked, Nat.min_zero] at first
  exact ⟨anew, List.length_eq_zero_iff.1 first⟩

/-- An iteration in which two operations race some times. -/
def races (number count : Nat) : Round where
  number
  questions := List.replicate count race
  answerable q mem := by
    obtain rfl := List.eq_of_mem_replicate mem
    exact List.cons_ne_nil 0 [1]

/-- After an iteration of twenty races and one of two. -/
def rested : PctStrategy :=
  Strategy.afterRounds (PctStrategy.new 1 3) [races 0 20, races 1 2]

/-- The third iteration has its change points among the twenty steps of the first one, and the
priorities of the second one are gone. -/
theorem starts_anew_racing :
    rested.priorities = [1, 0] ∧ (Strategy.start rested (races 2 5)).priorities = [] ∧
      (Strategy.start rested (races 2 5)).changePoints = [8, 2, 17] ∧
      ∀ point ∈ (Strategy.start rested (races 2 5)).changePoints, 1 ≤ point ∧ point ≤ 20 := by
  have longest : Strategy.mostAnswered (PctStrategy.new 1 3) [races 0 20, races 1 2] = 20 := by
    decide +kernel
  have anew := (starts_anew 1 3 [races 0 20, races 1 2] (races 2 5)).1
  rw [longest] at anew
  exact ⟨by decide +kernel, anew.priorities, by decide +kernel, anew.range⟩

end PctStrategy

end SteeredActors
