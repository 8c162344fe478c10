import SteeredActors.Strategy.Basic

/-!
# Questions to a strategy

A strategy lives from question to question and from iteration to iteration; whatever it keeps at
each question it keeps along every sequence of them.
-/

set_option autoImplicit false
set_option relaxedAutoImplicit false

namespace SteeredActors

/-- What a strategy is asked from iteration to iteration. -/
inductive Strategy.Inquiry where
  /-- Get ready for an iteration. -/
  | iteration (number : Nat)
  | operation (kind : PointKind) (current : Nat) (enabled : List Nat)
  | truth
  | number (max : Nat)
deriving DecidableEq

namespace Strategy

/-- The operations among which one is asked for. -/
def Inquiry.enabled : Inquiry → List Nat
  | .operation _ _ enabled => enabled
  | .iteration _ | .truth | .number _ => []

/-- The question is part of the iteration that is going on. -/
def Inquiry.Within : Inquiry → Prop
  | .iteration _ => False
  | .operation _ _ _ | .truth | .number _ => True

instance : DecidablePred Inquiry.Within
  | .iteration _ => inferInstanceAs (Decidable False)
  | .operation _ _ _ | .truth | .number _ => inferInstanceAs (Decidable True)

variable {σ : Type} [Strategy σ]

/-- The strategy after one question. -/
def ask (s : σ) : Inquiry → σ
  | .iteration number => (Strategy.prepare s number).2
  | .operation kind current enabled => (Strategy.nextOperation s kind current enabled).2
  | .truth => (Strategy.nextBool s).2
  | .number max => (Strategy.nextInt s max).2

/-- The strategy after some questions. -/
def after (s : σ) (asked : List Inquiry) : σ := asked.foldl ask s

/-- The operation that is chosen if one is asked for. -/
def chosen? (s : σ) : Inquiry → Option Nat
  | .operation kind current enabled => (Strategy.nextOperation s kind current enabled).1.toOption
  | .iteration _ | .truth | .number _ => none

theorem of_chosen? {s : σ} {kind : PointKind} {current : Nat} {enabled : List Nat} {op : Nat}
    (chosen : chosen? s (.operation kind current enabled) = some op) :
    (Strategy.nextOperation s kind current enabled).1 = .ok op := by
  unfold chosen? at chosen
  cases answer : (Strategy.nextOperation s kind current enabled).1 with
  | ok op' => simpa [answer, Except.toOption] using chosen
  | error d => simp [answer, Except.toOption] at chosen

@[simp] theorem after_nil (s : σ) : after s [] = s := rfl

@[simp] theorem after_cons (s : σ) (q : Inquiry) (asked : List Inquiry) :
    after s (q :: asked) = after (ask s q) asked := rfl

theorem after_concat (s : σ) (asked : List Inquiry) (q : Inquiry) :
    after s (asked ++ [q]) = ask (after s asked) q := by
  simp [after]

end Strategy

end SteeredActors
