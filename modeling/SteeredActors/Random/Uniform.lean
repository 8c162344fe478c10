import SteeredActors.Random.Generator

/-!
# Uniform choices

A number below a bound is drawn by multiplying a random word with the bound and keeping the high
half. Words whose low half lies beyond the last whole multiple are drawn again, so that every answer
has the same number of words. Every answer lies below its bound.
-/

set_option autoImplicit false
set_option relaxedAutoImplicit false

namespace SteeredActors.Random

/-- The largest low half that is kept, for words of a width and a bound of at most that width. -/
def zone (width n : Nat) : Nat := n * Nat.pow 2 (width - 1 - n.log2) - 1

/-- The number that a word stands for, unless the word has to be drawn again. -/
def accept? (width n word : Nat) : Option Nat :=
  if word * n % Nat.pow 2 width ≤ zone width n then some (word * n / Nat.pow 2 width) else none

/-- How often a word is drawn again at most; more than half of all words are kept. -/
def maxRejections : Nat := 4096

/-- A number below `n`, from words of a width. -/
def below {width : Nat} (draw : Generator → BitVec width × Generator) (n : Nat) :
    Nat → Generator → Nat × Generator
  | 0, g => (0, g)
  | fuel + 1, g =>
    let (word, g) := draw g
    match accept? width n word.toNat with
    | some k => (k, g)
    | none => below draw n fuel g

namespace Generator

/-- The next word, as its bits. -/
def bits32 (g : Generator) : BitVec 32 × Generator :=
  let (word, g) := g.next32
  (word.toBitVec, g)

/-- The next two words, as their bits. -/
def bits64 (g : Generator) : BitVec 64 × Generator :=
  let (word, g) := g.next64
  (word.toBitVec, g)

/-- A number below `n` from 32-bit words. -/
def below32 (g : Generator) (n : Nat) : Nat × Generator := below bits32 n maxRejections g

/-- A number below `n` from 64-bit words. -/
def below64 (g : Generator) (n : Nat) : Nat × Generator := below bits64 n maxRejections g

end Generator

/-- A number that is kept lies below its bound. -/
theorem accept?_lt {width n word k : Nat} (hword : word < Nat.pow 2 width) (hn : 0 < n)
    (h : accept? width n word = some k) : k < n := by
  unfold accept? at h
  split at h
  · obtain rfl := Option.some.inj h
    exact Nat.div_lt_of_lt_mul (Nat.mul_lt_mul_of_pos_right hword hn)
  · cases h

/-- A drawn number lies below its bound. -/
theorem below_lt {width : Nat} (draw : Generator → BitVec width × Generator) {n : Nat}
    (hn : 0 < n) (fuel : Nat) (g : Generator) : (below draw n fuel g).1 < n := by
  induction fuel generalizing g with
  | zero => exact hn
  | succ fuel ih =>
    unfold below
    simp only
    split
    · next k hk => exact accept?_lt (draw g).1.isLt hn hk
    · exact ih _

/-- A number drawn from 32-bit words lies below its bound. -/
theorem Generator.below32_lt (g : Generator) {n : Nat} (hn : 0 < n) : (g.below32 n).1 < n :=
  below_lt bits32 hn maxRejections g

/-- A number drawn from 64-bit words lies below its bound. -/
theorem Generator.below64_lt (g : Generator) {n : Nat} (hn : 0 < n) : (g.below64 n).1 < n :=
  below_lt bits64 hn maxRejections g

end SteeredActors.Random
