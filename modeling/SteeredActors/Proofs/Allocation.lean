import Mathlib.Data.List.Induction
import SteeredActors.Proofs.Identities
import SteeredActors.Proofs.World.Notices

/-!
# Identities do not repeat

An allocator is asked for identities and told to begin generations, in any order. The numbers of a
generation come in order and without gaps, whatever names are asked for in between, and end before the
largest word. So two identities of one history are the same only where a name was asked for again in its
generation. An exploration begins a generation with every iteration, and within one it refuses names
that are taken: no two of its actors have the same identity.
-/

set_option autoImplicit false
set_option relaxedAutoImplicit false

namespace SteeredActors

variable {σ : Type}

namespace Allocator

/-- What an allocator is told to do. -/
inductive Call where
  | create (typeTag friendly : String) (useName : Bool)
  | nextGeneration
deriving DecidableEq, Repr

/-- The allocator after a call. -/
def perform (ids : Allocator) : Call → Allocator
  | .create typeTag friendly useName => (ids.create typeTag friendly useName).2
  | .nextGeneration => ids.nextGeneration

/-- The identity that a call hands out, if it hands out one. -/
def handed? (ids : Allocator) : Call → Option ActorId
  | .create typeTag friendly useName => (ids.create typeTag friendly useName).1.toOption
  | .nextGeneration => none

/-- The allocator after some calls. -/
def after (ids : Allocator) (calls : List Call) : Allocator := calls.foldl perform ids

/-- The identities that some calls hand out, in order. -/
def issued (ids : Allocator) : List Call → List ActorId
  | [] => []
  | call :: calls => (ids.handed? call).toList ++ (ids.perform call).issued calls

@[simp] theorem after_nil (ids : Allocator) : ids.after [] = ids := rfl

@[simp] theorem after_concat (ids : Allocator) (calls : List Call) (call : Call) :
    ids.after (calls ++ [call]) = (ids.after calls).perform call := by
  simp [after]

theorem issued_concat (ids : Allocator) (calls : List Call) (call : Call) :
    ids.issued (calls ++ [call]) = ids.issued calls ++ ((ids.after calls).handed? call).toList := by
  induction calls generalizing ids with
  | nil => simp [issued]
  | cons first calls ih =>
    rw [List.cons_append, issued, ih, issued, List.append_assoc]
    rfl

/-- The numbers under which identities of a generation were handed out, in order. -/
def numbers (generation : Nat) (issued : List ActorId) : List Nat :=
  (issued.filter fun a => !a.isNamed && a.generation == generation).map (·.value)

@[simp] theorem numbers_append (generation : Nat) (issued more : List ActorId) :
    numbers generation (issued ++ more) = numbers generation issued ++ numbers generation more := by
  simp [numbers]

/-! ## One call -/

/-- The display name of the actor with a number. -/
def numberedName (label : String) (n : Nat) : String := s!"{label}({n})"

section Calls

variable (ids : Allocator) (typeTag friendly : String)

/-- The next number is handed out unless it is the largest word. -/
theorem create_numbered : ids.create typeTag friendly false =
    if ids.counter = maxWord then (.error (.overflow ids.generation), ids)
    else (.ok ⟨ids.counter, "", typeTag,
        numberedName (if friendly = "" then typeTag else friendly) ids.counter, ids.generation⟩,
      { ids with counter := ids.counter + 1 }) := rfl

/-- A name is handed out unless it is empty, and no number is used up. -/
theorem create_named : ids.create typeTag friendly true =
    (if friendly = "" then .error (.nameRequired typeTag)
      else .ok ⟨0, friendly, typeTag, friendly, ids.generation⟩, ids) := rfl

variable {ids} {a : ActorId} {useName : Bool}

/-- Names are asked for as such. -/
theorem isNamed_of_create (handed : (ids.create typeTag friendly useName).1 = .ok a) :
    a.isNamed = useName := by
  cases useName with
  | false =>
    rw [create_numbered] at handed
    split at handed <;> cases handed
    rfl
  | true =>
    rw [create_named] at handed
    split at handed
    · cases handed
    · next nonempty =>
      cases handed
      simpa [ActorId.isNamed] using nonempty

end Calls

/-! ## Histories -/

/-- How many numbers of each generation were handed out when an allocator stands as it does. -/
structure Counts (ids : Allocator) (issued : List ActorId) : Prop where
  /-- The numbers of a generation are the first ones, in order, and none is the largest word. -/
  first : ∀ generation, ∃ n ≤ maxWord, numbers generation issued = List.range n
  current : numbers ids.generation issued = List.range ids.counter
  later : ∀ generation, ids.generation < generation → numbers generation issued = []
  /-- A named identity is shown under its key. -/
  named : ∀ a ∈ issued, a.isNamed = true → a.name = a.keyName

variable {ids : Allocator} {issued : List ActorId}

/-- The counter never passes the largest word. -/
theorem Counts.counter_le (counts : ids.Counts issued) : ids.counter ≤ maxWord := by
  obtain ⟨n, le, first⟩ := counts.first ids.generation
  have same := congrArg List.length (first.symm.trans counts.current)
  simp only [List.length_range] at same
  omega

/-- A call that hands out no number leaves the numbers as they are. -/
theorem Counts.of_numberless {more : List ActorId} (counts : ids.Counts issued)
    (numberless : ∀ a ∈ more, a.isNamed = true ∧ a.name = a.keyName) : ids.Counts (issued ++ more) := by
  have none : ∀ generation, numbers generation more = [] := by
    intro generation
    rw [numbers, List.map_eq_nil_iff, List.filter_eq_nil_iff]
    intro a mem
    simp [(numberless a mem).1]
  refine ⟨fun generation => ?_, ?_, fun generation later => ?_, fun a mem kind => ?_⟩
  · simpa [none] using counts.first generation
  · simpa [none] using counts.current
  · simpa [none] using counts.later generation later
  · rcases List.mem_append.1 mem with old | new
    · exact counts.named a old kind
    · exact (numberless a new).2

theorem numbers_singleton {a : ActorId} (numbered : a.isNamed = false) (generation : Nat) :
    numbers generation [a] = if a.generation = generation then [a.value] else [] := by
  by_cases own : a.generation = generation <;> simp [numbers, numbered, own]

/-- With the next number the numbers of its generation go on. -/
theorem Counts.of_number {a : ActorId} (counts : ids.Counts issued) (room : ids.counter ≠ maxWord)
    (numbered : a.isNamed = false) (value : a.value = ids.counter)
    (own : a.generation = ids.generation) :
    Counts { ids with counter := ids.counter + 1 } (issued ++ [a]) := by
  have fits : ids.counter + 1 ≤ maxWord := by
    have := counts.counter_le
    omega
  have current : numbers ids.generation (issued ++ [a]) = List.range (ids.counter + 1) := by
    rw [numbers_append, numbers_singleton numbered, if_pos own, counts.current, value,
      List.range_succ]
  refine ⟨fun generation => ?_, current, fun generation later => ?_, fun b mem kind => ?_⟩
  · by_cases here : ids.generation = generation
    · exact ⟨ids.counter + 1, fits, here ▸ current⟩
    · rw [numbers_append, numbers_singleton numbered, own, if_neg here, List.append_nil]
      exact counts.first generation
  · rw [numbers_append, numbers_singleton numbered, own, if_neg (Nat.ne_of_lt later),
      List.append_nil]
    exact counts.later generation later
  · rcases List.mem_append.1 mem with old | new
    · exact counts.named b old kind
    · obtain rfl := List.mem_singleton.1 new
      cases numbered.symm.trans kind

/-- Every call keeps count. -/
theorem Counts.perform (counts : ids.Counts issued) (call : Call) :
    (ids.perform call).Counts (issued ++ (ids.handed? call).toList) := by
  cases call with
  | nextGeneration =>
    refine ⟨fun generation => ?_, ?_, fun generation later => ?_, fun a mem => ?_⟩
    · simpa [handed?] using counts.first generation
    · simpa [handed?, Allocator.perform, nextGeneration] using counts.later _ (Nat.lt_succ_self _)
    · have before : ids.generation < generation := Nat.lt_of_succ_lt later
      simpa [handed?] using counts.later generation before
    · simpa [handed?] using counts.named a (by simpa [handed?] using mem)
  | create typeTag friendly useName =>
    cases useName with
    | true =>
      simp only [Allocator.perform, handed?, create_named]
      refine counts.of_numberless fun a mem => ?_
      split at mem
      · cases mem
      · next nonempty =>
        obtain rfl := List.mem_singleton.1 mem
        exact ⟨by simpa [ActorId.isNamed] using nonempty, rfl⟩
    | false =>
      simp only [Allocator.perform, handed?, create_numbered]
      split
      · exact counts.of_numberless fun a mem => absurd mem List.not_mem_nil
      · next room => exact counts.of_number room rfl rfl rfl

/-- So does every history of a new allocator. -/
theorem counts_after (generation : Nat) (calls : List Call) :
    ((ofGeneration generation).after calls).Counts ((ofGeneration generation).issued calls) := by
  induction calls using List.reverseRecOn with
  | nil =>
    exact ⟨fun _ => ⟨0, Nat.zero_le _, rfl⟩, rfl, fun _ _ => rfl, fun _ mem => absurd mem List.not_mem_nil⟩
  | append_singleton calls call ih =>
    rw [after_concat, issued_concat]
    exact ih.perform call

/-- The numbers of one generation differ, and so do numbered identities of two generations. -/
theorem Counts.pairwise_numbered (counts : ids.Counts issued) :
    (issued.filter fun a => !a.isNamed).Pairwise fun a b => a.same b = false := by
  rw [List.pairwise_iff_forall_sublist]
  intro a b both
  have numbered : ∀ c ∈ [a, b], c.isNamed = false := by
    intro c mem
    simpa using (List.mem_filter.1 (both.subset mem)).2
  have ha := numbered a (by simp)
  have hb := numbered b (by simp)
  by_contra agree
  have keys := (ActorId.same_iff_key a b).1 (by simpa using agree)
  rw [ActorId.key_of_numbered ha, ActorId.key_of_numbered hb] at keys
  simp only [Prod.mk.injEq, true_and] at keys
  obtain ⟨n, _, first⟩ := counts.first a.generation
  have nodup : (numbers a.generation issued).Nodup := first ▸ List.nodup_range
  have within : [a.value, b.value].Sublist (numbers a.generation issued) := by
    have kept := (both.filter fun c => c.generation == a.generation).map (·.value)
    simpa [numbers, List.filter_filter, keys.2, Bool.and_comm] using kept
  exact (List.pairwise_iff_forall_sublist.1 nodup within) keys.1

/-- An allocator without numbers keeps none until the next generation. -/
theorem counter_after {later : List Call} (same : Call.nextGeneration ∉ later)
    (exhausted : ids.counter = maxWord) : ids.after later = ids := by
  induction later with
  | nil => rfl
  | cons call later ih =>
    have unchanged : ids.perform call = ids := by
      cases call with
      | nextGeneration => simp at same
      | create typeTag friendly useName =>
        cases useName with
        | true => rfl
        | false => simp [perform, create_numbered, exhausted]
    have rest := ih (List.not_mem_of_not_mem_cons same)
    rw [after, List.foldl_cons, unchanged]
    exact rest

theorem generation_after (ids : Allocator) (calls : List Call) :
    (ids.after calls).generation = ids.generation + calls.count .nextGeneration := by
  induction calls using List.reverseRecOn with
  | nil => rfl
  | append_singleton calls call ih =>
    rw [after_concat, List.count_append]
    cases call with
    | nextGeneration =>
      simp only [perform, nextGeneration, ih, List.count_singleton_self]
      omega
    | create typeTag friendly useName =>
      rw [perform, generation_create, ih]
      simp

/-- What a history of calls tells about identities. -/
structure Unrepeating (start : Allocator) (calls : List Call) : Prop where
  /-- The numbers of a generation are the first ones, in order; the largest word is none of them. -/
  first : ∀ generation, ∃ n ≤ maxWord, numbers generation (start.issued calls) = List.range n
  /-- The next number is that of those handed out in this generation, until they are used up. -/
  next : ∀ typeTag friendly,
    let last := start.after calls
    let n := (numbers last.generation (start.issued calls)).length
    (last.create typeTag friendly false).1 =
      if n = maxWord then .error (.overflow last.generation)
      else .ok ⟨n, "", typeTag, numberedName (if friendly = "" then typeTag else friendly) n,
        last.generation⟩
  /-- Once they are used up they are so until the next generation, -/
  exhausted : ∀ typeTag friendly generation,
    ((start.after calls).create typeTag friendly false).1 = .error (.overflow generation) →
      ∀ later, Call.nextGeneration ∉ later → ∀ typeTag friendly,
        ((start.after (calls ++ later)).create typeTag friendly false).1 =
          .error (.overflow generation)
  /-- which begins with zero. -/
  renewed : ∀ typeTag friendly, ∃ a : ActorId, a.value = 0 ∧ a.isNamed = false ∧
    ((start.after (calls ++ [.nextGeneration])).create typeTag friendly false).1 = .ok a
  generation : (start.after calls).generation = start.generation + calls.count .nextGeneration
  /-- An identity is named if its name was asked for as the key. -/
  kind : ∀ typeTag friendly useName a,
    ((start.after calls).create typeTag friendly useName).1 = .ok a → a.isNamed = useName
  /-- Numbered identities are different, -/
  numbered : ((start.issued calls).filter fun a => !a.isNamed).Pairwise fun a b => a.same b = false
  /-- numbered ones differ from named ones, -/
  mixed : ∀ a ∈ start.issued calls, ∀ b ∈ start.issued calls, a.isNamed = false → b.isNamed = true →
    a.same b = false
  /-- and named ones are the same if their names and generations are. -/
  named : ∀ a ∈ start.issued calls, ∀ b ∈ start.issued calls, a.isNamed = true → b.isNamed = true →
    (a.same b = true ↔ a.name = b.name ∧ a.generation = b.generation)

theorem unrepeating (generation : Nat) (calls : List Call) :
    (ofGeneration generation).Unrepeating calls := by
  have counts := counts_after generation calls
  have current := congrArg List.length counts.current
  rw [List.length_range] at current
  refine ⟨counts.first, fun typeTag friendly => ?_, fun typeTag friendly g spent later same _ _ => ?_,
    fun typeTag friendly => ?_, generation_after _ calls, fun _ _ _ _ => isNamed_of_create _ _,
    counts.pairwise_numbered, fun a _ b _ ha hb => ?_, fun a memA b memB ha hb => ?_⟩
  · simp only [current, create_numbered]
    split <;> rfl
  · rw [create_numbered] at spent
    split at spent
    · next exhausted =>
      cases spent
      have unchanged := counter_after same exhausted
      rw [after, List.foldl_append]
      change (((((ofGeneration generation).after calls).after later)).create _ _ false).1 = _
      rw [unchanged, create_numbered, if_pos exhausted]
    · cases spent
  · rw [after_concat]
    exact ⟨_, rfl, rfl, rfl⟩
  · by_contra agree
    have keys := (ActorId.same_iff_key a b).1 (by simpa using agree)
    rw [ActorId.key_of_numbered ha, ActorId.key_of_named hb] at keys
    simp at keys
  · rw [ActorId.same_iff_key, ActorId.key_of_named ha, ActorId.key_of_named hb,
      counts.named a memA ha, counts.named b memB hb]
    simp

end Allocator

/-! ## Explorations -/

/-- Actors that are found by their identities have different ones. -/
theorem World.Named.pairwise {w : World σ} (named : w.Named) :
    (w.actors.map (·.core.id)).Pairwise fun a b => a.same b = false := by
  rw [List.pairwise_map, List.pairwise_iff_getElem]
  intro i j hi hj before
  by_contra agree
  have found : ∀ k (inside : k < w.actors.length), w.core? (.actor k) = some w.actors[k].core := by
    intro k inside
    simp [World.core?, inside]
  have := named.unique (found i hi) (found j hj) (by simpa using agree)
  omega

namespace Experiment

variable [Strategy σ] (e : Experiment)

/-- The identities of all actors that an exploration creates, iteration after iteration. -/
def identities (fuel : Nat) (strategy : σ) (ids : Allocator) (iterations : Nat) : List ActorId :=
  (e.worlds fuel strategy ids 0 iterations).flatMap fun w => w.actors.map (·.core.id)

/-- Actors have identities of the generation of their iteration. -/
private theorem generation_of_mem (accepted : e.registry.Accepted) {ids : Allocator} {s : σ} {n : Nat}
    {id : ActorId} (mem : id ∈ (e.iterate n ids s).actors.map (·.core.id)) :
    id.generation = (e.iterate n ids s).ids.generation := by
  obtain ⟨a, here, rfl⟩ := List.mem_map.1 mem
  obtain ⟨i, found⟩ := List.mem_iff_getElem?.1 here
  have actor : (e.iterate n ids s).core? (.actor i) = some a.core := by simp [World.core?, found]
  exact e.generation_of_actor accepted actor (World.same_self _)

/-- Within an iteration actors are found by their identities, and iterations have generations of their
own. -/
theorem pairwise_identities (accepted : e.registry.Accepted) (fuel : Nat) (strategy : σ)
    (ids : Allocator) (iterations : Nat) :
    (e.identities fuel strategy ids iterations).Pairwise fun a b => a.same b = false := by
  obtain ⟨iterates, ascend⟩ := e.worlds_ascend accepted fuel strategy ids 0 iterations
  refine List.pairwise_flatMap.2 ⟨fun w mem => ?_, ascend.imp_of_mem ?_⟩
  · obtain ⟨ids, s, rfl⟩ := (iterates w mem).2
    exact (e.named accepted ids s fuel).pairwise
  · intro w w' mem mem' before a ha b hb
    obtain ⟨_, _, rfl⟩ := (iterates w mem).2
    obtain ⟨_, _, rfl⟩ := (iterates w' mem').2
    have here := e.generation_of_mem accepted ha
    have there := e.generation_of_mem accepted hb
    by_contra agree
    have keys := (ActorId.same_iff_key a b).1 (by simpa using agree)
    have generations : a.generation = b.generation := by
      unfold ActorId.key at keys
      split at keys <;> split at keys <;> simp_all
    omega

/-- In no history of calls does an allocator repeat an identity unless a name is asked for again, and no
two actors that an exploration creates in any of its iterations have the same identity. -/
theorem identities_never_repeat (accepted : e.registry.Accepted) (generation : Nat)
    (calls : List Allocator.Call) (fuel : Nat) (strategy : σ) (iterations : Nat) :
    (Allocator.ofGeneration generation).Unrepeating calls ∧
      (e.identities fuel strategy (.ofGeneration e.settings.runtime.generation) iterations).Pairwise
        fun a b => a.same b = false :=
  ⟨Allocator.unrepeating generation calls, e.pairwise_identities accepted fuel strategy _ iterations⟩

private def dozes : StateDescriptor := ⟨"Init", true, none, none, none, []⟩

private def node : Declaration :=
  { typeTag := "Node", kind := .machine, inherited := [], observes := [], derived := [dozes] }

private def nodeDescriptor : Descriptor := ⟨"Node", .machine, [dozes], dozes, []⟩

/-- The test creates machines with and without a name, the name being asked for twice. -/
def naming : Experiment where
  settings := .exploration
  registry := ⟨Timer.descriptors ++ [nodeDescriptor]⟩
  test :=
    .ask .own (.create "Node" none none false) fun _ =>
      .ask .own (.create "Node" (some "root") none false) fun _ =>
        .ask .own (.create "Node" (some "root") none false) fun _ =>
          .ask .own (.create "Node" none none false) fun _ => .finish {} .ok

/-- The driver goes first, then every machine in turn, in each of two iterations. -/
private def turnsOfNaming : ScriptedStrategy :=
  .ofAnswers ((List.replicate 2 [0, 0, 0, 1, 2, 3]).flatten.map .ok)

private theorem accepted_naming : naming.registry.Accepted := by
  have built : node.build = .ok nodeDescriptor :=
    Declaration.build_of_plain (by decide) rfl rfl rfl rfl rfl
  exact ⟨[nodeDescriptor], by simpa using ⟨node, built⟩, rfl⟩

/-- What an allocator is asked for in two generations, in vain where there is no name. -/
private def mixedCalls : List Allocator.Call :=
  [.create "Node" "" false, .create "Node" "" true, .create "Node" "root" true,
    .create "Node" "leaf" false, .nextGeneration, .create "Node" "root" true, .create "Node" "" false]

/-- Each generation has its numbers and its root, also in an exploration of two iterations. -/
theorem identities_never_repeat_naming :
    (Allocator.ofGeneration 7).issued mixedCalls =
        [⟨0, "", "Node", "Node(0)", 7⟩, ⟨0, "root", "Node", "root", 7⟩, ⟨1, "", "Node", "leaf(1)", 7⟩,
          ⟨0, "root", "Node", "root", 8⟩, ⟨0, "", "Node", "Node(0)", 8⟩] ∧
      (Allocator.ofGeneration 7).Unrepeating mixedCalls ∧
      naming.identities 60 turnsOfNaming (.ofGeneration 0) 2 =
        [⟨0, "", "Node", "Node(0)", 0⟩, ⟨0, "root", "Node", "root", 0⟩, ⟨1, "", "Node", "Node(1)", 0⟩,
          ⟨0, "", "Node", "Node(0)", 1⟩, ⟨0, "root", "Node", "root", 1⟩, ⟨1, "", "Node", "Node(1)", 1⟩] ∧
      (naming.identities 60 turnsOfNaming (.ofGeneration 0) 2).Pairwise fun a b => a.same b = false := by
  obtain ⟨unrepeating, apart⟩ :=
    identities_never_repeat naming accepted_naming 7 mixedCalls 60 turnsOfNaming 2
  exact ⟨by decide +kernel, unrepeating, by decide +kernel, apart⟩

end Experiment

end SteeredActors
