import Mathlib.Data.List.Nodup
import SteeredActors.Random.Sample

/-!
# Samples hold different positions

When a draw is repeated, the position that takes its place was out of reach of all earlier draws; and
exchanging entries neither loses nor doubles one. So whichever way a sample is made, its positions are
different, and they lie below the length.
-/

set_option autoImplicit false
set_option relaxedAutoImplicit false

namespace SteeredActors.Random

/-! ## Different positions -/

/-- Different positions below a length. -/
structure Distinct (length : Nat) (positions : List Nat) : Prop where
  nodup : positions.Nodup
  below : ∀ p ∈ positions, p < length

variable {length : Nat} {xs ys : List Nat}

theorem distinct_nil (length : Nat) : Distinct length [] := ⟨List.nodup_nil, nofun⟩

theorem distinct_range (length : Nat) : Distinct length (List.range length) :=
  ⟨List.nodup_range, fun _ => List.mem_range.1⟩

theorem Distinct.of_perm (distinct : Distinct length xs) (perm : ys.Perm xs) :
    Distinct length ys :=
  ⟨perm.nodup_iff.2 distinct.nodup, fun p mem => distinct.below p (perm.mem_iff.1 mem)⟩

theorem Distinct.of_sublist (distinct : Distinct length xs) (sublist : ys.Sublist xs) :
    Distinct length ys :=
  ⟨distinct.nodup.sublist sublist, fun p mem => distinct.below p (sublist.subset mem)⟩

/-- A new position comes in when the length grows by one. -/
theorem Distinct.cons (distinct : Distinct length xs) {p : Nat} (new : p ∉ xs) (reach : p ≤ length) :
    Distinct (length + 1) (p :: xs) := by
  refine ⟨List.nodup_cons.2 ⟨new, distinct.nodup⟩, fun x mem => ?_⟩
  rcases List.mem_cons.1 mem with rfl | mem
  · exact Nat.lt_succ_of_le reach
  · exact Nat.lt_succ_of_lt (distinct.below x mem)

/-! ## Repeated draws replaced -/

theorem perm_insertBefore (mark item : Nat) (xs : List Nat) :
    (insertBefore mark item xs).Perm (item :: xs) := by
  induction xs with
  | nil => exact .refl _
  | cons x xs ih =>
    rw [insertBefore]
    split
    · exact .refl _
    · exact (ih.cons x).trans (.swap item x xs)

/-- What comes in is the draw or, if it is repeated, the last position. -/
theorem perm_floydStep (ordered : Bool) (last drawn : Nat) (sample : List Nat) :
    (floydStep ordered last drawn sample).Perm
      ((if drawn ∈ sample then last else drawn) :: sample) := by
  rw [floydStep]
  split
  · split
    · exact perm_insertBefore drawn last sample
    · exact List.perm_append_singleton last sample
  · exact List.perm_append_singleton drawn sample

/-- The last position is new, since all earlier draws were below it. -/
theorem Distinct.floydStep {last : Nat} {sample : List Nat} (distinct : Distinct last sample)
    (ordered : Bool) {drawn : Nat} (reach : drawn ≤ last) :
    Distinct (last + 1) (floydStep ordered last drawn sample) := by
  refine Distinct.of_perm ?_ (perm_floydStep ordered last drawn sample)
  split
  · have new : last ∉ sample := fun mem => Nat.lt_irrefl last (distinct.below last mem)
    exact distinct.cons new (Nat.le_refl last)
  · next new => exact distinct.cons new reach

/-- The last position moves on with every draw, by induction on the draws still to come. -/
theorem Distinct.floyd {last : Nat} {sample : List Nat} (distinct : Distinct last sample)
    (ordered : Bool) (count : Nat) (g : Generator) :
    Distinct (last + count) (floyd ordered count last sample g).1 := by
  induction count generalizing last sample g with
  | zero => exact distinct
  | succ count ih =>
    have reach : (g.below32 (last + 1)).1 ≤ last := Nat.le_of_lt_succ (g.below32_lt last.succ_pos)
    have rest := ih (distinct.floydStep ordered reach) (g.below32 (last + 1)).2
    rw [Nat.add_right_comm] at rest
    exact rest

/-! ## Entries exchanged -/

theorem perm_swapIfInBounds (xs : Array Nat) (i j : Nat) :
    (xs.swapIfInBounds i j).toList.Perm xs.toList := by
  unfold Array.swapIfInBounds
  split
  · split
    · exact (Array.swap_perm _ _).toList
    · exact .refl _
  · exact .refl _

theorem perm_shuffle (i : Nat) (xs : Array Nat) (g : Generator) :
    (shuffle i xs g).1.toList.Perm xs.toList := by
  induction i generalizing xs g with
  | zero => exact .refl _
  | succ i ih =>
    have rest := ih (xs.swapIfInBounds (i + 1) (g.below32 (i + 2)).1) (g.below32 (i + 2)).2
    exact rest.trans (perm_swapIfInBounds xs (i + 1) _)

theorem perm_exchange (length count i : Nat) (xs : Array Nat) (g : Generator) :
    (exchange length count i xs g).1.toList.Perm xs.toList := by
  induction count generalizing i xs g with
  | zero => exact .refl _
  | succ count ih =>
    have rest := ih (i + 1) (xs.swapIfInBounds i (i + (g.below32 (length - i)).1))
      (g.below32 (length - i)).2
    exact rest.trans (perm_swapIfInBounds xs i _)

/-! ## Samples -/

/-- A sample holds different positions below the length. -/
theorem distinct_sample (g : Generator) {length amount : Nat} (possible : amount ≤ length) :
    Distinct length (sample g length amount).1 := by
  unfold sample
  split
  · have drawn := (distinct_nil (length - amount)).floyd (amount < 50) amount g
    rw [Nat.sub_add_cancel possible] at drawn
    dsimp only
    split
    · exact drawn
    · exact drawn.of_perm (perm_shuffle _ _ _)
  · have arranged := perm_exchange length amount 0 (Array.range length) g
    rw [Array.toList_range] at arranged
    exact ((distinct_range length).of_perm arranged).of_sublist (List.take_sublist _ _)

/-- A sample, unless more positions are asked for than there are. -/
def sample? (g : Generator) (length amount : Nat) : Option (List Nat × Generator) :=
  if amount ≤ length then some (sample g length amount) else none

end SteeredActors.Random
