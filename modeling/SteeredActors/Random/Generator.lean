/-!
# A seeded stream of words

The pseudo-random source of the seeded strategies: the keystream of the ChaCha cipher with twelve
rounds, whose key is expanded from a 64-bit seed by a permuted congruential generator. The stream
depends on the seed alone, so a run is repeated by repeating its seed.
-/

set_option autoImplicit false
set_option relaxedAutoImplicit false

namespace SteeredActors.Random

/-- The sixteen words on which a round works. -/
abbrev Block := Vector UInt32 16

/-- Rotate to the left by less than 32. -/
def rotateLeft (x : UInt32) (n : UInt32) : UInt32 := (x <<< n) ||| (x >>> (32 - n))

/-- Rotate to the right by less than 32. -/
def rotateRight (x : UInt32) (n : UInt32) : UInt32 :=
  if n = 0 then x else (x >>> n) ||| (x <<< (32 - n))

/-- Mix four words of a block. -/
def quarterRound (s : Block) (i j k l : Fin 16) : Block :=
  let a := s[i] + s[j]
  let d := rotateLeft (s[l] ^^^ a) 16
  let c := s[k] + d
  let b := rotateLeft (s[j] ^^^ c) 12
  let a := a + b
  let d := rotateLeft (d ^^^ a) 8
  let c := c + d
  let b := rotateLeft (b ^^^ c) 7
  (((s.set i a).set j b).set k c).set l d

/-- A round on the columns and one on the diagonals. -/
def doubleRound (s : Block) : Block :=
  let s := quarterRound s 0 4 8 12
  let s := quarterRound s 1 5 9 13
  let s := quarterRound s 2 6 10 14
  let s := quarterRound s 3 7 11 15
  let s := quarterRound s 0 5 10 15
  let s := quarterRound s 1 6 11 12
  let s := quarterRound s 2 7 8 13
  quarterRound s 3 4 9 14

/-- Apply a function a number of times. -/
def iterate {α : Type} (f : α → α) : Nat → α → α
  | 0, x => x
  | n + 1, x => iterate f n (f x)

/-- Twice as many rounds as the count. -/
def doubleRounds : Nat → Block → Block := iterate doubleRound

/-- The key of a stream. -/
abbrev Key := Vector UInt32 8

/-- The block from which the words of a counter value are made. -/
def initialBlock (key : Key) (counter : UInt64) : Block :=
  #v[0x61707865, 0x3320646e, 0x79622d32, 0x6b206574,
    key[0], key[1], key[2], key[3], key[4], key[5], key[6], key[7],
    counter.toUInt32, (counter >>> 32).toUInt32, 0, 0]

/-- The sixteen words of a counter value. -/
def keystream (key : Key) (counter : UInt64) : Block :=
  let start := initialBlock key counter
  Vector.zipWith (· + ·) (doubleRounds 6 start) start

/-- One step of the congruential generator, with its permuted output word. -/
def expandStep (state : UInt64) : UInt64 × UInt32 :=
  let state := state * 6364136223846793005 + 11634580027462260723
  let word := (((state >>> 18) ^^^ state) >>> 27).toUInt32
  (state, rotateRight word (state >>> 59).toUInt32)

/-- The key of a seed. -/
def keyOfSeed (seed : UInt64) : Key :=
  let (s, w0) := expandStep seed
  let (s, w1) := expandStep s
  let (s, w2) := expandStep s
  let (s, w3) := expandStep s
  let (s, w4) := expandStep s
  let (s, w5) := expandStep s
  let (s, w6) := expandStep s
  let (_, w7) := expandStep s
  #v[w0, w1, w2, w3, w4, w5, w6, w7]

/-- A position in a stream: the words still left of a block, and the counter of the next one. -/
structure Generator where
  key : Key
  counter : UInt64
  ahead : List UInt32
deriving Repr

namespace Generator

/-- The start of the stream of a seed. -/
def ofSeed (seed : Nat) : Generator := ⟨keyOfSeed (UInt64.ofNat seed), 0, []⟩

/-- The next word. -/
def next32 (g : Generator) : UInt32 × Generator :=
  match g.ahead with
  | word :: ahead => (word, { g with ahead })
  | [] =>
    let words := keystream g.key g.counter
    (words[0], { g with counter := g.counter + 1, ahead := words.toList.tail })

/-- The next two words as one number, the lower half first. -/
def next64 (g : Generator) : UInt64 × Generator :=
  let (low, g) := g.next32
  let (high, g) := g.next32
  (high.toUInt64 <<< 32 ||| low.toUInt64, g)

/-- The top bit of the next word. -/
def nextBool (g : Generator) : Bool × Generator :=
  let (word, g) := g.next32
  (word >>> 31 == 1, g)

end Generator

end SteeredActors.Random
