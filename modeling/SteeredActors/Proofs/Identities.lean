import Mathlib.Data.List.Perm.Basic
import SteeredActors.ActorId

/-!
# The order of identities

Sameness of identities is an equivalence that a hash table can follow, two identities compare equal
exactly when they are the same, and either order of comparison says the same. What decides between
different identities is the display name first, and sameness does not look at that: an identity that
stands under two names among the ones compared is on both sides of those between them. So the order is
transitive, and sorting is determined, where every identity is *labelled* in one way. The identities
that one allocator hands out over its generations are.
-/

set_option autoImplicit false
set_option relaxedAutoImplicit false

namespace SteeredActors

namespace ActorId

variable {a b c : ActorId} {ids : List ActorId}

/-- The order of different identities: by display name, generation, kind of key, number and key name. -/
def byLabel : ActorId → ActorId → Ordering :=
  compareLex (compareOn name) <| compareLex (compareOn generation) <| compareLex (compareOn isNamed) <|
    compareLex (compareOn value) (compareOn keyName)

/-- The identity without its type tag, which no comparison looks at. -/
def untagged (a : ActorId) : ActorId := { a with typeTag := "" }

/-- A linear preorder decides between different identities. -/
instance : Std.TransCmp byLabel :=
  inferInstanceAs (Std.TransCmp (compareLex (compareOn name) <| compareLex (compareOn generation) <|
    compareLex (compareOn isNamed) <| compareLex (compareOn value) (compareOn keyName)))

/-- It tells apart what differs in more than the type tag. -/
theorem byLabel_eq_iff : byLabel a b = .eq ↔ a.untagged = b.untagged := by
  simp only [byLabel, compareLex_eq_eq, compareOn, Std.LawfulEqOrd.compare_eq_iff_eq, untagged,
    isNamed, mk.injEq]
  constructor
  · rintro ⟨names, generations, -, values, keys⟩
    exact ⟨values, keys, trivial, names, generations⟩
  · rintro ⟨values, keys, -, names, generations⟩
    exact ⟨names, generations, by rw [keys], values, keys⟩

/-- The order of identities is that one, but for the ones that are the same. -/
theorem order_eq (a b : ActorId) : a.order b = if a.same b then .eq else byLabel a b := rfl

/-- What does not differ is the same. -/
theorem same_of_byLabel (level : byLabel a b = .eq) : a.same b = true := by
  have agree := byLabel_eq_iff.1 level
  simp only [untagged, mk.injEq] at agree
  simp [same, isNamed, agree]

/-- The key of a named identity. -/
theorem key_of_named (named : a.isNamed = true) : a.key = (true, a.keyName, 0, a.generation) :=
  if_pos named

/-- The key of a numbered identity. -/
theorem key_of_numbered (numbered : a.isNamed = false) :
    a.key = (false, "", a.value, a.generation) :=
  if_neg (by simp [numbered])

/-- Sameness is an equivalence: agreement of the keys is one. -/
theorem same_equivalence : Equivalence fun a b : ActorId => a.same b = true where
  refl _ := (same_iff_key _ _).2 rfl
  symm agree := (same_iff_key _ _).2 ((same_iff_key _ _).1 agree).symm
  trans first second :=
    (same_iff_key _ _).2 (((same_iff_key _ _).1 first).trans ((same_iff_key _ _).1 second))

/-- Either way of asking gives the same answer. -/
theorem same_comm (a b : ActorId) : a.same b = b.same a :=
  Bool.eq_iff_iff.2 ⟨same_equivalence.symm, same_equivalence.symm⟩

/-- Two identities compare equal exactly when they are the same. -/
theorem order_eq_eq_iff : a.order b = .eq ↔ a.same b = true := by
  rw [order_eq]
  split
  · simp_all
  · next differ => exact ⟨same_of_byLabel, fun agree => absurd agree differ⟩

/-- Compared the other way round, two identities are in the reverse order. -/
theorem order_swap (a b : ActorId) : a.order b = (b.order a).swap := by
  rw [order_eq, order_eq, same_comm]
  split
  · rfl
  · exact Std.OrientedCmp.eq_swap

/-- Among the given identities, the same one stands under one name only (and with one number and one key
name, of which its key is one). -/
def Labelled (ids : List ActorId) : Prop :=
  ∀ a ∈ ids, ∀ b ∈ ids, a.same b = true → a.untagged = b.untagged

instance (ids : List ActorId) : Decidable (Labelled ids) :=
  inferInstanceAs (Decidable (∀ a ∈ ids, ∀ b ∈ ids, a.same b = true → a.untagged = b.untagged))

namespace Labelled

/-- What is labelled stays so when some are left out. -/
theorem of_subset {others : List ActorId} (labelled : Labelled ids) (within : others ⊆ ids) :
    Labelled others :=
  fun a ha b hb => labelled a (within ha) b (within hb)

/-- So the order of labelled identities is a linear preorder. -/
theorem order_eq_byLabel (labelled : Labelled ids) (ha : a ∈ ids) (hb : b ∈ ids) :
    a.order b = byLabel a b := by
  rw [order_eq]
  split
  · next agree => exact (byLabel_eq_iff.2 (labelled a ha b hb agree)).symm
  · rfl

/-- What stands before something stands before what that precedes. -/
theorem order_trans (labelled : Labelled ids) (ha : a ∈ ids) (hb : b ∈ ids) (hc : c ∈ ids)
    (first : (a.order b).isLE) (second : (b.order c).isLE) : (a.order c).isLE := by
  rw [labelled.order_eq_byLabel ha hb] at first
  rw [labelled.order_eq_byLabel hb hc] at second
  rw [labelled.order_eq_byLabel ha hc]
  exact Std.TransCmp.isLE_trans first second

/-- Labelled identities that stand before each other differ in their type tags only. -/
theorem untagged_eq (labelled : Labelled ids) (ha : a ∈ ids) (hb : b ∈ ids)
    (first : (a.order b).isLE) (second : (b.order a).isLE) : a.untagged = b.untagged := by
  rw [labelled.order_eq_byLabel ha hb] at first
  rw [labelled.order_eq_byLabel hb ha] at second
  exact byLabel_eq_iff.1 (Std.OrientedCmp.isLE_antisymm first second)

end Labelled

/-- Insertion adds the identity and changes nothing else. -/
theorem insertBackwards_perm (a : ActorId) (backwards : List ActorId) :
    (insertBackwards a backwards).Perm (a :: backwards) := by
  induction backwards with
  | nil => exact .refl _
  | cons b rest ih =>
    rw [insertBackwards]
    split
    · exact (ih.cons b).trans (.swap a b rest)
    · exact .refl _

/-- The identities a list has been built up from stand in order, the last one first. -/
def Descends (backwards : List ActorId) : Prop := backwards.Pairwise fun b a => (a.order b).isLE

/-- Insertion into a list in order leaves one in order. -/
theorem Descends.insertBackwards {backwards : List ActorId} (descends : Descends backwards)
    (labelled : Labelled (a :: backwards)) : Descends (insertBackwards a backwards) := by
  induction backwards with
  | nil => exact List.pairwise_singleton _ _
  | cons b rest ih =>
    obtain ⟨below, descends⟩ := List.pairwise_cons.1 descends
    rw [ActorId.insertBackwards]
    split
    · next precedes =>
      refine List.pairwise_cons.2 ⟨fun c hc => ?_, ih descends (labelled.of_subset (by simp))⟩
      rcases List.mem_cons.1 ((insertBackwards_perm a rest).subset hc) with rfl | hc
      · rw [precedes]; rfl
      · exact below c hc
    · next stays =>
      have follows : (b.order a).isLE := by
        rw [order_swap, Ordering.isLE_swap]
        cases h : a.order b <;> simp_all
      refine List.pairwise_cons.2 ⟨fun c hc => ?_, List.pairwise_cons.2 ⟨below, descends⟩⟩
      rcases List.mem_cons.1 hc with rfl | hc
      · exact follows
      · exact labelled.order_trans (by simp [hc]) (by simp) (by simp) (below c hc) follows

/-- Sorting keeps the identities. -/
theorem sort_perm (ids : List ActorId) : (sort ids).Perm ids := by
  suffices ∀ backwards : List ActorId,
      (ids.foldl (fun backwards a => insertBackwards a backwards) backwards).Perm (backwards ++ ids) from
    (List.reverse_perm _).trans (this [])
  induction ids with
  | nil => simp
  | cons a rest ih =>
    intro backwards
    refine (ih _).trans (((insertBackwards_perm a backwards).append_right rest).trans ?_)
    exact List.perm_middle.symm

/-- Sorting labelled identities puts them in order. -/
theorem Labelled.sort_sorted (labelled : Labelled ids) :
    (sort ids).Pairwise fun a b => (a.order b).isLE := by
  suffices ∀ backwards : List ActorId, Descends backwards → Labelled (backwards ++ ids) →
      Descends (ids.foldl (fun backwards a => insertBackwards a backwards) backwards) from
    List.pairwise_reverse.2 (this [] .nil labelled)
  clear labelled
  induction ids with
  | nil => exact fun _ descends _ => descends
  | cons a rest ih =>
    intro backwards descends labelled
    refine ih _ (descends.insertBackwards (labelled.of_subset ?_)) (labelled.of_subset ?_)
    · intro b hb
      have := List.mem_cons.1 hb
      grind
    · intro b hb
      have := (insertBackwards_perm a backwards).mem_iff (a := b)
      grind

/-- Whatever way labelled identities have been put in order, the result is that of sorting, up to type
tags, which no comparison looks at. -/
theorem Labelled.sort_unique {others : List ActorId} (labelled : Labelled ids)
    (kept : others.Perm ids) (sorted : others.Pairwise fun a b => (a.order b).isLE) :
    others.map untagged = (sort ids).map untagged := by
  have byLabel_sorted : ∀ {list : List ActorId}, list.Perm ids →
      list.Pairwise (fun a b => (a.order b).isLE) →
      (list.map untagged).Pairwise fun a b => (byLabel a b).isLE := by
    intro list kept sorted
    refine List.pairwise_map.2 (sorted.imp_of_mem fun ha hb stand => ?_)
    rwa [labelled.order_eq_byLabel (kept.subset ha) (kept.subset hb)] at stand
  refine List.Perm.eq_of_pairwise ?_ (byLabel_sorted kept sorted)
    (byLabel_sorted (sort_perm ids) labelled.sort_sorted)
    ((kept.trans (sort_perm ids).symm).map untagged)
  intro _ _ ha hb first second
  obtain ⟨a, -, rfl⟩ := List.mem_map.1 ha
  obtain ⟨b, -, rfl⟩ := List.mem_map.1 hb
  exact byLabel_eq_iff.1 (Std.OrientedCmp.isLE_antisymm first second)

end ActorId

namespace Allocator

/-- The identities an allocator has handed out until it stands as it does, the last one first. Between
them it may have begun new generations. -/
inductive Issues (start : Allocator) : Allocator → List ActorId → Prop where
  | nothing : Issues start start []
  | one {ids issued a} (typeTag friendly : String) (useName : Bool) : Issues start ids issued →
      (ids.create typeTag friendly useName).1 = .ok a →
      Issues start (ids.create typeTag friendly useName).2 (a :: issued)
  | begun {ids issued} : Issues start ids issued → Issues start ids.nextGeneration issued

/-- A named identity has its key for a name. A numbered one has a number that is not to come any more. -/
def Accounts (ids : Allocator) (a : ActorId) : Prop :=
  if a.isNamed then a.value = 0 ∧ a.name = a.keyName
  else a.generation < ids.generation ∨ a.generation = ids.generation ∧ a.value < ids.counter

variable {start ids : Allocator} {issued : List ActorId} {a b : ActorId}

/-- What an allocator accounts for stays accounted for when it hands out another identity. -/
theorem Accounts.create (accounts : ids.Accounts a) (typeTag friendly : String) (useName : Bool) :
    (ids.create typeTag friendly useName).2.Accounts a := by
  unfold Accounts at *
  split
  · simp_all
  · next unnamed =>
    rw [if_neg unnamed] at accounts
    unfold Allocator.create numbered
    split
    · exact accounts
    · split
      · exact accounts
      · simp only; omega

/-- An identity that is handed out is accounted for, and is different from those that were before, but
for a name that is asked for once more. -/
theorem accounts_create {typeTag friendly : String} {useName : Bool}
    (handed : (ids.create typeTag friendly useName).1 = .ok a) :
    (ids.create typeTag friendly useName).2.Accounts a ∧
      ∀ b, ids.Accounts b → a.same b = true → a.untagged = b.untagged := by
  unfold Allocator.create at *
  cases useName with
  | true =>
    simp only [if_true, named] at handed ⊢
    split at handed
    · contradiction
    · next nonempty =>
      cases handed
      refine ⟨by simp [Accounts, ActorId.isNamed, nonempty], fun b known agree => ?_⟩
      have keys := (ActorId.same_iff_key _ _).1 agree
      rw [ActorId.key_of_named (by simp [ActorId.isNamed, nonempty])] at keys
      cases kind : b.isNamed with
      | true =>
        rw [ActorId.key_of_named kind] at keys
        rw [Accounts, if_pos kind] at known
        simp_all [ActorId.untagged]
      | false => simp [ActorId.key_of_numbered kind] at keys
  | false =>
    simp only [Bool.false_eq_true, if_false, numbered] at handed ⊢
    split at handed
    · contradiction
    · next room =>
      cases handed
      rw [if_neg room]
      refine ⟨by simp [Accounts, ActorId.isNamed], fun b known agree => ?_⟩
      have keys := (ActorId.same_iff_key _ _).1 agree
      rw [ActorId.key_of_numbered (by simp [ActorId.isNamed])] at keys
      cases kind : b.isNamed with
      | true => simp [ActorId.key_of_named kind] at keys
      | false =>
        -- An earlier number of this generation is below the counter.
        rw [ActorId.key_of_numbered kind] at keys
        rw [Accounts, if_neg (by simp [kind])] at known
        simp only [Prod.mk.injEq, true_and] at keys
        omega

/-- The identities that one allocator hands out are labelled, over however many generations. -/
theorem Issues.labelled (issues : Issues start ids issued) :
    ActorId.Labelled issued ∧ ∀ a ∈ issued, ids.Accounts a := by
  induction issues with
  | nothing => exact ⟨by simp [ActorId.Labelled], by simp⟩
  | begun _ ih =>
    refine ⟨ih.1, fun a ha => ?_⟩
    have := ih.2 a ha
    unfold Accounts at *
    split
    · simp_all
    · next numbered =>
      rw [if_neg numbered] at this
      simp only [nextGeneration]
      omega
  | @one ids issued a typeTag friendly useName _ handed ih =>
    obtain ⟨accounts, apart⟩ := accounts_create handed
    refine ⟨?_, ?_⟩
    · intro b hb c hc agree
      rw [List.mem_cons] at hb hc
      obtain rfl | hb := hb <;> obtain rfl | hc := hc
      · rfl
      · exact apart c (ih.2 c hc) agree
      · exact (apart b (ih.2 b hb) (by rwa [ActorId.same_comm])).symm
      · exact ih.1 b hb c hc agree
    · intro b hb
      rcases List.mem_cons.1 hb with rfl | hb
      · exact accounts
      · exact (ih.2 b hb).create typeTag friendly useName

end Allocator

namespace ActorId

/-- Sameness is an equivalence that keys follow, and comparison agrees with it and with itself the other
way round. Among identities that are labelled comparison is transitive, and sorting gives the one list
in order. What one allocator hands out is labelled. -/
theorem order_lawful (ids : List ActorId) :
    (Equivalence fun a b : ActorId => a.same b = true) ∧
    (∀ a b : ActorId, a.same b = true ↔ a.key = b.key) ∧
    (∀ a b : ActorId, a.order b = .eq ↔ a.same b = true) ∧
    (∀ a b : ActorId, a.order b = (b.order a).swap) ∧
    (Labelled ids →
      (∀ a ∈ ids, ∀ b ∈ ids, ∀ c ∈ ids,
        (a.order b).isLE → (b.order c).isLE → (a.order c).isLE) ∧
      (sort ids).Perm ids ∧ ((sort ids).Pairwise fun a b => (a.order b).isLE) ∧
      ∀ others : List ActorId, others.Perm ids → (others.Pairwise fun a b => (a.order b).isLE) →
        others.map untagged = (sort ids).map untagged) ∧
    ∀ start last : Allocator, start.Issues last ids → Labelled ids :=
  ⟨same_equivalence, same_iff_key, fun _ _ => order_eq_eq_iff, order_swap,
    fun labelled =>
      ⟨fun _ ha _ hb _ hc => labelled.order_trans ha hb hc, sort_perm ids, labelled.sort_sorted,
        fun _ => labelled.sort_unique⟩,
    fun _ _ issues => issues.labelled.1⟩

/-- Identities of two generations with keys of either kind have one order, also one that stands there
twice with different type tags. -/
theorem order_lawful_mixed :
    Labelled [⟨1, "", "T", "b(1)", 0⟩, ⟨0, "a", "T", "a", 1⟩, ⟨1, "", "U", "b(1)", 0⟩] ∧
      (sort [⟨1, "", "T", "b(1)", 0⟩, ⟨0, "a", "T", "a", 1⟩, ⟨1, "", "U", "b(1)", 0⟩]).Pairwise
        fun a b => (a.order b).isLE := by
  have labelled :
      Labelled [⟨1, "", "T", "b(1)", 0⟩, ⟨0, "a", "T", "a", 1⟩, ⟨1, "", "U", "b(1)", 0⟩] := by decide
  exact ⟨labelled, ((order_lawful _).2.2.2.2.1 labelled).2.2.1⟩

/-- An identity that stands under two names is on both sides of one between them. -/
example : (ActorId.mk 0 "" "T" "x" 0).order ⟨0, "" , "T", "a", 0⟩ = .eq ∧
    (ActorId.mk 0 "" "T" "a" 0).order ⟨1, "", "T", "m", 0⟩ = .lt ∧
    (ActorId.mk 0 "" "T" "x" 0).order ⟨1, "", "T", "m", 0⟩ = .gt := by decide

end ActorId

end SteeredActors
