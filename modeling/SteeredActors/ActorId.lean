/-!
# Actor identities

An identity is the handle by which an actor is addressed. A numbered identity is keyed by the value
of its allocator's counter, a named one by its name; either key counts within one generation only.
The display name and the type tag take no part in equality. An allocator hands out the numbers of a
generation in order and never the largest word.
-/

set_option autoImplicit false
set_option relaxedAutoImplicit false

namespace SteeredActors

/-- The largest number of a 64-bit word. -/
def maxWord : Nat := Nat.pow 2 64 - 1

/-- The handle of one actor. `keyName` is empty exactly for numbered identities. -/
structure ActorId where
  value : Nat
  keyName : String
  typeTag : String
  name : String
  generation : Nat
deriving DecidableEq, Repr, Inhabited

namespace ActorId

/-- The key is the name and not the number. -/
def isNamed (a : ActorId) : Bool := a.keyName != ""

/-- Both identities use the same kind of key, the same key and the same generation. -/
def same (a b : ActorId) : Bool :=
  a.isNamed == b.isNamed
    && (if a.isNamed then a.keyName == b.keyName else a.value == b.value)
    && a.generation == b.generation

/-- What a hash table may look at: two identities are the same exactly when this agrees. -/
def key (a : ActorId) : Bool × String × Nat × Nat :=
  if a.isNamed then (true, a.keyName, 0, a.generation) else (false, "", a.value, a.generation)

/-- Order by display name, then generation, kind of key, number and key name; the same identity is
equal to itself under any display name. -/
def order (a b : ActorId) : Ordering :=
  if a.same b then .eq
  else
    (compare a.name b.name).then <|
      (compare a.generation b.generation).then <|
        (compare a.isNamed b.isNamed).then <|
          (compare a.value b.value).then (compare a.keyName b.keyName)

/-- Put an identity into a list with the last one first: before the first that it does not precede. -/
def insertBackwards (a : ActorId) : List ActorId → List ActorId
  | [] => [a]
  | b :: rest => if a.order b = .lt then b :: insertBackwards a rest else a :: b :: rest

/-- The identities in order. Each is moved back past those directly before it that it precedes, so
that equal ones keep their places. -/
def sort (ids : List ActorId) : List ActorId :=
  (ids.foldl (fun backwards a => insertBackwards a backwards) []).reverse

/-- Two identities are the same exactly when their keys agree. -/
theorem same_iff_key (a b : ActorId) : a.same b = true ↔ a.key = b.key := by
  unfold same key
  by_cases ha : a.isNamed = true <;> by_cases hb : b.isNamed = true <;> simp [ha, hb]

end ActorId

/-- Why no identity was allocated. -/
inductive IdentityError where
  /-- A named identity was asked for without a name. -/
  | nameRequired (typeTag : String)
  /-- The numbers of this generation are used up. -/
  | overflow (generation : Nat)
deriving DecidableEq, Repr

/-- The text of an allocation failure. -/
def IdentityError.message : IdentityError → String
  | .nameRequired typeTag =>
    s!"Invalid identity for type '{typeTag}': a name is required when it is used as the id"
  | .overflow generation => s!"Detected actor id overflow in generation {generation}"

/-- The counter and the generation from which identities are made. -/
structure Allocator where
  counter : Nat
  generation : Nat
deriving DecidableEq, Repr, Inhabited

namespace Allocator

/-- An allocator at the start of `generation`. -/
def ofGeneration (generation : Nat) : Allocator := ⟨0, generation⟩

/-- Begin the next generation, whose numbers start at zero again. -/
def nextGeneration (ids : Allocator) : Allocator := ⟨0, ids.generation + 1⟩

/-- A named identity, which takes no number. -/
def named (ids : Allocator) (typeTag name : String) : Except IdentityError ActorId :=
  if name = "" then .error (.nameRequired typeTag)
  else .ok ⟨0, name, typeTag, name, ids.generation⟩

/-- The next numbered identity; `label` is the friendly name, or the type tag if that is empty. -/
def numbered (ids : Allocator) (typeTag friendly : String) :
    Except IdentityError ActorId × Allocator :=
  if ids.counter = maxWord then (.error (.overflow ids.generation), ids)
  else
    let label := if friendly = "" then typeTag else friendly
    (.ok ⟨ids.counter, "", typeTag, s!"{label}({ids.counter})", ids.generation⟩,
      { ids with counter := ids.counter + 1 })

/-- A named identity if `useName`, and the next numbered one otherwise. -/
def create (ids : Allocator) (typeTag friendly : String) (useName : Bool) :
    Except IdentityError ActorId × Allocator :=
  if useName then (ids.named typeTag friendly, ids) else ids.numbered typeTag friendly

/-- Allocation never changes the generation. -/
theorem generation_create (ids : Allocator) (typeTag friendly : String) (useName : Bool) :
    (ids.create typeTag friendly useName).2.generation = ids.generation := by
  unfold create numbered
  split
  · rfl
  · split <;> rfl

end Allocator

end SteeredActors
