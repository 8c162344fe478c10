import SteeredActors.Random.Uniform

/-!
# Samples without repetition

A sample holds a number of different positions below a length. Small samples of long ranges replace
a repeated draw by the largest position that is still open (Floyd's method); others exchange entries
of the whole range and keep the first ones. Which method is used depends on the two sizes only.
-/

set_option autoImplicit false
set_option relaxedAutoImplicit false

namespace SteeredActors.Random

/-- Put `item` before the first occurrence of `mark`. -/
def insertBefore (mark item : Nat) : List Nat → List Nat
  | [] => [item]
  | x :: xs => if x = mark then item :: x :: xs else x :: insertBefore mark item xs

/-- The sample after a draw of `drawn` for the position `last`. Samples below fifty keep the order of
a random arrangement. -/
def floydStep (ordered : Bool) (last drawn : Nat) (sample : List Nat) : List Nat :=
  if drawn ∈ sample then
    if ordered then insertBefore drawn last sample else sample ++ [last]
  else sample ++ [drawn]

/-- Draw once for each of `count` consecutive positions from `last` on. -/
def floyd (ordered : Bool) : Nat → Nat → List Nat → Generator → List Nat × Generator
  | 0, _, sample, g => (sample, g)
  | count + 1, last, sample, g =>
    let (drawn, g) := g.below32 (last + 1)
    floyd ordered count (last + 1) (floydStep ordered last drawn sample) g

/-- Exchange every entry from `i` down to the second with a random one at or before it. -/
def shuffle : Nat → Array Nat → Generator → Array Nat × Generator
  | 0, xs, g => (xs, g)
  | i + 1, xs, g =>
    let (j, g) := g.below32 (i + 2)
    shuffle i (xs.swapIfInBounds (i + 1) j) g

/-- Exchange each of `count` consecutive entries from `i` on with a random one at or after it. -/
def exchange (length : Nat) : Nat → Nat → Array Nat → Generator → Array Nat × Generator
  | 0, _, xs, g => (xs, g)
  | count + 1, i, xs, g =>
    let (k, g) := g.below32 (length - i)
    exchange length count (i + 1) (xs.swapIfInBounds i (i + k)) g

/-- The sizes for which repeated draws are replaced. -/
def prefersFloyd (length amount : Nat) : Bool :=
  amount < 163 && !(11 < amount && 5 * length < (50 + 8 * amount) * amount)

/-- A sample of `amount` positions below `length`. -/
def sample (g : Generator) (length amount : Nat) : List Nat × Generator :=
  if prefersFloyd length amount then
    let (positions, g) := floyd (amount < 50) amount (length - amount) [] g
    if amount < 50 then (positions, g)
    else
      let (arranged, g) := shuffle (amount - 1) positions.toArray g
      (arranged.toList, g)
  else
    let (arranged, g) := exchange length amount 0 (Array.range length) g
    (arranged.toList.take amount, g)

/-! ## Sizes -/

@[simp] theorem length_insertBefore (mark item : Nat) (xs : List Nat) :
    (insertBefore mark item xs).length = xs.length + 1 := by
  induction xs with
  | nil => rfl
  | cons x xs ih =>
    rw [insertBefore]
    split <;> simp [ih]

@[simp] theorem length_floydStep (ordered : Bool) (last drawn : Nat) (sample : List Nat) :
    (floydStep ordered last drawn sample).length = sample.length + 1 := by
  unfold floydStep
  split
  · split <;> simp
  · simp

theorem length_floyd (ordered : Bool) (count last : Nat) (sample : List Nat) (g : Generator) :
    (floyd ordered count last sample g).1.length = sample.length + count := by
  induction count generalizing last sample g with
  | zero => rfl
  | succ count ih =>
    rw [floyd, ih, length_floydStep]
    omega

theorem size_shuffle (i : Nat) (xs : Array Nat) (g : Generator) :
    (shuffle i xs g).1.size = xs.size := by
  induction i generalizing xs g with
  | zero => rfl
  | succ i ih => rw [shuffle, ih, Array.size_swapIfInBounds]

theorem size_exchange (length count i : Nat) (xs : Array Nat) (g : Generator) :
    (exchange length count i xs g).1.size = xs.size := by
  induction count generalizing i xs g with
  | zero => rfl
  | succ count ih => rw [exchange, ih, Array.size_swapIfInBounds]

/-- A sample has the size that was asked for. -/
theorem length_sample (g : Generator) {length amount : Nat} (possible : amount ≤ length) :
    (sample g length amount).1.length = amount := by
  unfold sample
  split
  · have drawn := length_floyd (amount < 50) amount (length - amount) [] g
    dsimp only
    split
    · simpa using drawn
    · simpa [size_shuffle] using drawn
  · simp [size_exchange, possible]

end SteeredActors.Random
