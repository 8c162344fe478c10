import SteeredActors.Proofs.Sequential
import SteeredActors.Proofs.World.Accesses

/-!
# Shared objects are linearizable

In every explored run, after its end as before it, accesses to shared objects take effect one at a
time, in the order in which their scheduling points let them go on. What they answer and what they
leave is what the same operations do to plain objects one after the other.
-/

set_option autoImplicit false
set_option relaxedAutoImplicit false

namespace SteeredActors

variable {σ : Type} [Strategy σ]

namespace World

/-- What the next step is to shared objects: one is made, or the scheduling point of an access lets
it go on. -/
def sharing? (w : World σ) : Option SharedEvent :=
  w.step?.bind fun _ => w.mover?.bind fun t => (w.thread? t).bind fun thread =>
    match thread.tasks with
    | .perform _ (.ask _ (.newObject object) _) :: _ => some (.made object)
    | .turn :: .touch object operation :: _ =>
      if w.isOver then none else some (.accessed object operation)
    | _ => none

variable {w w' : World σ} {t : ThreadId}

/-- An access has been let go on and has not taken effect yet. -/
def Granted (w : World σ) (t : ThreadId) (a : Access) : Prop :=
  ∃ outside, w.thread? t = some ⟨a.tasks .granted, outside⟩

private theorem sharing?_eq (moves : w.mover? = some t) (moved : w.step? = some w')
    {thread : Thread} (found : w.thread? t = some thread) :
    w.sharing? = match thread.tasks with
      | .perform _ (.ask _ (.newObject object) _) :: _ => some (.made object)
      | .turn :: .touch object operation :: _ =>
        if w.isOver then none else some (.accessed object operation)
      | _ => none := by
  simp only [sharing?, moved, moves, found, Option.bind_some]

/-- Only the holder of the turn has a granted access, and only in a run that goes on. -/
theorem Tended.granted (tended : w.Tended) {a : Access} (granted : w.Granted t a) :
    w.isOver = false ∧ w.mover? = some t := by
  obtain ⟨outside, found⟩ := granted
  cases tended.threads t _ found with
  | rests untouched =>
    have touches := untouched _ List.mem_cons_self
    cases touches
  | accesses b stage tasks below known granted =>
    have same : a.tasks .granted = b.tasks stage := tasks
    obtain ⟨rfl, rfl⟩ := Access.tasks_inj same
    obtain ⟨running, turn⟩ := granted rfl
    exact ⟨running, by rw [mover?_of_running tended.explores running, turn]⟩

/-- At most one access is granted. -/
theorem Tended.granted_unique (tended : w.Tended) {u : ThreadId} {a b : Access}
    (one : w.Granted t a) (other : w.Granted u b) : t = u ∧ a = b := by
  obtain rfl : t = u :=
    Option.some.inj ((tended.granted one).2.symm.trans (tended.granted other).2)
  obtain ⟨_, found⟩ := one
  obtain ⟨_, found'⟩ := other
  have same : a.tasks .granted = b.tasks .granted :=
    congrArg Thread.tasks (Option.some.inj (found.symm.trans found'))
  exact ⟨rfl, (Access.tasks_inj same).1⟩

/-- An access that is granted after a step has waited for that. -/
theorem Tended.granted_inv (tended : w.Tended) (orderly : w.Orderly) (moves : w.mover? = some t)
    (moved : w.stepThread? t = some w') {u : ThreadId} {b : Access} (granted : w'.Granted u b) :
    u = t ∧ w.isOver = false ∧ ∃ outside, w.thread? t = some ⟨b.tasks .waits, outside⟩ ∧
      w' = w.setThread t ⟨b.tasks .granted, outside⟩ := by
  have shares := tended.shares moved
  obtain ⟨outside, now⟩ := granted
  have mine : u = t := by
    by_contra other
    rcases orderly.bystander moved other now with ⟨old, was, _⟩ | ⟨_, k, fresh | fresh⟩
    · obtain rfl := Option.some.inj (now.symm.trans (shares.others other was))
      have turn := (tended.granted ⟨outside, was⟩).2
      exact other (Option.some.inj (turn.symm.trans moves))
    all_goals cases fresh
  subst mine
  refine ⟨rfl, ?_⟩
  cases shares with
  | rests _ untouched _ leaves =>
    rcases arrives_of_leaves (leaves _ now) (List.forall_mem_cons.1 untouched).2 with
      untouched | ⟨a, tasks, _⟩
    · cases untouched _ List.mem_cons_self
    · have same : b.tasks .granted = a.tasks .arrives := tasks
      cases (Access.tasks_inj same).2
  | refuses _ _ _ _ goes =>
    subst goes
    cases eq_of_thread?_setThread _ now
  | @proceeds a stage outside' c found early below known decides running goes =>
    subst goes
    have same : b.tasks .granted = a.tasks stage.next :=
      congrArg Thread.tasks (eq_of_thread?_setThread _ now)
    obtain ⟨rfl, last⟩ := Access.tasks_inj same
    have waited : stage = .waits := by
      cases stage <;> first | rfl | exact absurd rfl early | cases last
    subst waited
    obtain rfl := decides nofun
    exact ⟨running rfl, outside', found, rfl⟩
  | @lands a outside' found below running effect void =>
    cases there : w.objects[a.object]? with
    | some o =>
      rw [effect o there] at now
      cases eq_of_thread?_setThread _ now
    | none =>
      rw [void there] at now
      cases eq_of_thread?_setThread _ now

/-- A granted access does not wait. -/
theorem Tended.moves_of_granted (tended : w.Tended) {a : Access} (granted : w.Granted t a) :
    ∃ w', w.step? = some w' := by
  obtain ⟨running, moves⟩ := tended.granted granted
  obtain ⟨outside, found⟩ := granted
  rw [mover?_of_running tended.explores running] at moves
  rw [step?_of_running tended.explores running, Option.some.inj moves]
  cases there : w.objects[a.object]? with
  | some o => exact ⟨_, by rw [stepThread?_cons found, exec, there]⟩
  | none => exact ⟨_, by rw [stepThread?_cons found, exec, there]⟩

/-- What a step is to shared objects. -/
inductive SharingStep (w w' : World σ) : Prop where
  | rests (objects : w'.objects = w.objects) (none : w.sharing? = none)
      (idle : ∀ t a, ¬w.Granted t a) (idle' : ∀ t a, ¬w'.Granted t a)
  | makes {object : SharedObject} (objects : w'.objects = w.objects ++ [object])
      (made : w.sharing? = some (.made object))
      (idle : ∀ t a, ¬w.Granted t a) (idle' : ∀ t a, ¬w'.Granted t a)
  /-- The scheduling point of an access lets it go on. -/
  | grants {t : ThreadId} {a : Access} {outside : Bool} (moves : w.mover? = some t)
      (waits : w.thread? t = some ⟨a.tasks .waits, outside⟩)
      (goes : w' = w.setThread t ⟨a.tasks .granted, outside⟩)
      (accessed : w.sharing? = some (.accessed a.object a.operation))
      (idle : ∀ t a, ¬w.Granted t a)
  /-- An access takes effect. -/
  | lands {t : ThreadId} {a : Access} (granted : w.Granted t a) (none : w.sharing? = none)
      (idle' : ∀ t a, ¬w'.Granted t a)
      (effect : ∀ o, w.objects[a.object]? = some o →
        w' = World.setThread
          { w with objects := w.objects.set a.object (a.operation.apply w.objects o).2 } t
          (a.answered (a.operation.apply w.objects o).1))
      (void : w.objects[a.object]? = Option.none →
        w' = w.setThread t (a.answered (.error SharedOperation.unsupported)))

/-- A step that leaves an access neither before nor after. -/
private theorem sharing?_of_untouched {x : Task} {rest : List Task} {outside : Bool}
    (moves : w.mover? = some t) (moved : w.step? = some w')
    (found : w.thread? t = some ⟨x :: rest, outside⟩)
    (untouched : ∀ y ∈ x :: rest, y.isTouch = false) :
    w.sharing? = x.makes?.map .made := by
  rw [sharing?_eq moves moved found]
  split
  · next tasks => cases tasks; rfl
  · next tasks =>
    cases tasks
    have touches := untouched _ (List.mem_cons_of_mem _ List.mem_cons_self)
    cases touches
  · next unmade _ =>
    cases made : x.makes? with
    | none => rfl
    | some object =>
      exfalso
      unfold Task.makes? at made
      split at made
      · exact unmade _ _ _ _ _ rfl
      · cases made

theorem Tended.sharingStep (tended : w.Tended) (orderly : w.Orderly) (moved : w.step? = some w') :
    w.SharingStep w' := by
  rcases of_step? moved with ⟨t, moves, does⟩ | ⟨unmoved, clock, rfl⟩
  · have shares := tended.shares does
    have grants := fun {u b} => tended.granted_inv orderly moves does (u := u) (b := b)
    -- whoever has a granted access moves
    have mine : ∀ {u a}, w.Granted u a → u = t := fun granted =>
      Option.some.inj ((tended.granted granted).2.symm.trans moves)
    have idle : ∀ {a : Access} {stage : Access.Stage} {outside : Bool}, stage ≠ .granted →
        w.thread? t = some ⟨a.tasks stage, outside⟩ → ∀ u b, ¬w.Granted u b := by
      intro a stage outside early found u b granted
      obtain rfl := mine granted
      obtain ⟨outside', same⟩ := granted
      have alike := congrArg Thread.tasks (Option.some.inj (found.symm.trans same))
      exact early (Access.tasks_inj alike).2
    cases shares with
    | @rests x rest outside found untouched makes _ =>
      have idle : ∀ u a, ¬w.Granted u a := by
        intro u a granted
        obtain rfl := mine granted
        obtain ⟨outside', same⟩ := granted
        obtain ⟨⟨rfl, rfl⟩, _⟩ : (x = _ ∧ rest = _) ∧ _ := by
          simpa [Access.tasks] using found.symm.trans same
        cases untouched _ List.mem_cons_self
      have idle' : ∀ u a, ¬w'.Granted u a := by
        intro u a granted
        obtain ⟨rfl, _, outside', same, _⟩ := grants granted
        obtain ⟨⟨rfl, rfl⟩, _⟩ : (x = _ ∧ rest = _) ∧ _ := by
          simpa [Access.tasks] using found.symm.trans same
        cases untouched _ (List.mem_cons_of_mem _ List.mem_cons_self)
      have event := sharing?_of_untouched moves moved found untouched
      have objects := makes.objects
      cases made : x.makes? with
      | none =>
        rw [made] at objects event
        exact .rests (by simpa using objects) event idle idle'
      | some object =>
        rw [made] at objects event
        exact .makes objects event idle idle'
    | @refuses a stage outside r found early _ ended goes =>
      refine .rests (by rw [goes, objects_setThread]) ?_ (idle early found) fun u b granted => ?_
      · rw [sharing?_eq moves moved found]
        cases stage with
        | arrives | passes => rfl
        | waits => exact if_pos (ended rfl)
        | granted => exact absurd rfl early
      · obtain ⟨rfl, _, _⟩ := grants granted
        obtain ⟨_, now⟩ := granted
        rw [goes] at now
        cases eq_of_thread?_setThread _ now
    | @proceeds a stage outside c found early _ _ decides running goes =>
      have event := sharing?_eq moves moved found
      by_cases waits : stage = .waits
      · subst waits
        obtain rfl := decides nofun
        refine .grants moves found goes (event.trans (if_neg ?_)) (idle early found)
        rw [running rfl]
        exact Bool.false_ne_true
      · refine .rests (by rw [goes, objects_setThread]) ?_ (idle early found) fun u b granted => ?_
        · rw [event]
          cases stage with
          | arrives | passes => rfl
          | waits => exact absurd rfl waits
          | granted => exact absurd rfl early
        · obtain ⟨rfl, _, outside', same, _⟩ := grants granted
          have alike := congrArg Thread.tasks (Option.some.inj (found.symm.trans same))
          cases stage <;> first | cases alike | exact waits rfl
    | @lands a outside found _ running effect void =>
      refine .lands ⟨outside, found⟩ ?_ ?_ effect void
      · rw [sharing?_eq moves moved found]
        rfl
      · intro u b granted
        obtain ⟨rfl, _, outside', same, _⟩ := grants granted
        cases found.symm.trans same
  · have stays : ∀ u, thread? { w with clock } u = w.thread? u := fun u => by cases u <;> rfl
    have idle : ∀ u a, ¬w.Granted u a := by
      intro u a granted
      rw [(tended.granted granted).2] at unmoved
      cases unmoved
    refine .rests rfl ?_ idle fun u a granted => ?_
    · simp [sharing?, unmoved]
    · obtain ⟨outside, found⟩ := granted
      exact idle u a ⟨outside, (stays u).symm.trans found⟩

end World

namespace Experiment

/-- What happened to shared objects in the first steps of an iteration. -/
def sharing (e : Experiment) (ids : Allocator) (s : σ) (n : Nat) : List SharedEvent :=
  (List.range n).filterMap fun k => (e.iterate k ids s).sharing?

variable (e : Experiment) (ids : Allocator) (s : σ)

theorem sharing_succ (n : Nat) :
    e.sharing ids s (n + 1) = e.sharing ids s n ++ (e.iterate n ids s).sharing?.toList :=
  filterMap_range_succ _ n

theorem sharing_succ_of_none {n : Nat} (none : (e.iterate n ids s).sharing? = none) :
    e.sharing ids s (n + 1) = e.sharing ids s n := by
  rw [sharing_succ, none, Option.toList_none, List.append_nil]

theorem sharing_succ_of_some {n : Nat} {event : SharedEvent}
    (some : (e.iterate n ids s).sharing? = some event) :
    e.sharing ids s (n + 1) = e.sharing ids s n ++ [event] := by
  rw [sharing_succ, some, Option.toList_some]

/-- How shared objects stand after some steps of an iteration. -/
private structure Settled (n : Nat) : Prop where
  distinct : ∀ o ∈ (e.iterate n ids s).objects, o.Distinct
  contents : (∀ t a, ¬(e.iterate n ids s).Granted t a) →
    (e.iterate n ids s).objects.map (·.plain) = SharedEvent.after (e.sharing ids s n)
  granted : ∀ t a, (e.iterate n ids s).Granted t a → ∃ m outside, n = m + 1 ∧
    (e.iterate m ids s).thread? t = some ⟨a.tasks .waits, outside⟩ ∧
    (e.iterate m ids s).sharing? = some (.accessed a.object a.operation) ∧
    (e.iterate n ids s).objects = (e.iterate m ids s).objects ∧
    (e.iterate m ids s).objects.map (·.plain) = SharedEvent.after (e.sharing ids s m)

variable {e ids s}

private theorem Settled.step {n : Nat} (settled : e.Settled ids s n)
    (tended : (e.iterate (n + 1) ids s).Tended)
    (step : (e.iterate n ids s).SharingStep (e.iterate (n + 1) ids s))
    (distinct : ∀ object, (e.iterate n ids s).sharing? = some (.made object) → object.Distinct)
    (inRange : ∀ m object operation o, (e.iterate m ids s).sharing? =
      some (.accessed object operation) → (e.iterate m ids s).objects[object]? = some o →
        operation.InRange o) : e.Settled ids s (n + 1) := by
  cases step with
  | rests objects none idle idle' =>
    refine ⟨?_, fun _ => ?_, fun t a granted => absurd granted (idle' t a)⟩
    · rw [objects]
      exact settled.distinct
    · rw [objects, settled.contents idle, e.sharing_succ_of_none ids s none]
  | @makes object objects made idle idle' =>
    refine ⟨?_, fun _ => ?_, fun t a granted => absurd granted (idle' t a)⟩
    · rw [objects]
      exact List.forall_mem_append.2
        ⟨settled.distinct, List.forall_mem_singleton.2 (distinct object made)⟩
    · rw [objects, List.map_append, settled.contents idle, e.sharing_succ_of_some ids s made,
        SharedEvent.after_concat]
      rfl
  | @grants t a outside _ waits goes accessed idle =>
    have objects : (e.iterate (n + 1) ids s).objects = (e.iterate n ids s).objects := by
      rw [goes, World.objects_setThread]
    have granted : (e.iterate (n + 1) ids s).Granted t a :=
      ⟨outside, by rw [goes]; exact World.thread?_setThread _ waits _⟩
    refine ⟨?_, fun idle' => absurd granted (idle' t a), fun u b granted' => ?_⟩
    · rw [objects]
      exact settled.distinct
    · obtain ⟨rfl, rfl⟩ := tended.granted_unique granted granted'
      exact ⟨n, outside, rfl, waits, accessed, objects, settled.contents idle⟩
  | @lands t a granted none idle' effect void =>
    obtain ⟨m, outside, rfl, waits, accessed, objects, contents⟩ := settled.granted t a granted
    have history := e.sharing_succ_of_some ids s accessed
    rw [← e.sharing_succ_of_none ids s none] at history
    refine ⟨?_, fun _ => ?_, fun t a granted => absurd granted (idle' t a)⟩
    · cases there : (e.iterate (m + 1) ids s).objects[a.object]? with
      | none =>
        rw [void there, World.objects_setThread]
        exact settled.distinct
      | some o =>
        rw [effect o there, World.objects_setThread]
        intro o' mem
        rcases List.mem_or_eq_of_mem_set mem with old | rfl
        · exact settled.distinct o' old
        · exact a.operation.distinct_apply _ (settled.distinct o (List.mem_of_getElem? there))
    · rw [history, SharedEvent.after_concat, ← contents, ← objects, SharedEvent.apply]
      cases there : (e.iterate (m + 1) ids s).objects[a.object]? with
      | none => rw [void there, World.objects_setThread, a.operation.onPlains_of_none there]
      | some o =>
        rw [effect o there, World.objects_setThread, a.operation.onPlains_of_some there
          (settled.distinct o (List.mem_of_getElem? there))
          (inRange m _ _ o accessed (objects ▸ there))]

/-- A step of an iteration, or nothing moves any more. -/
private theorem sharingStep_or_stuck (accepted : e.registry.Accepted) (ids : Allocator) (s : σ)
    (n : Nat) :
    (e.iterate n ids s).SharingStep (e.iterate (n + 1) ids s) ∨
      (e.iterate n ids s).step? = none ∧ e.iterate (n + 1) ids s = e.iterate n ids s := by
  cases moved : (e.iterate n ids s).step? with
  | none => exact .inr ⟨rfl, by rw [e.iterate_succ, moved, Option.getD_none]⟩
  | some w =>
    rw [e.iterate_succ, moved, Option.getD_some]
    exact .inl ((e.tended accepted ids s n).sharingStep ((e.reached n ids s).orderly accepted) moved)

private theorem settled (accepted : e.registry.Accepted)
    (distinct : ∀ n object, (e.iterate n ids s).sharing? = some (.made object) → object.Distinct)
    (inRange : ∀ n object operation o, (e.iterate n ids s).sharing? =
      some (.accessed object operation) → (e.iterate n ids s).objects[object]? = some o →
        operation.InRange o) (n : Nat) : e.Settled ids s n := by
  induction n with
  | zero =>
    have rests : ∀ t a, ¬(e.iterate 0 ids s).Granted t a := by
      rintro t a ⟨outside, found⟩
      cases t <;> cases found
    refine ⟨?_, fun _ => rfl, fun t a granted => absurd granted (rests t a)⟩
    exact fun o mem => absurd mem List.not_mem_nil
  | succ n ih =>
    rcases e.sharingStep_or_stuck accepted ids s n with step | ⟨stuck, same⟩
    · exact ih.step (e.tended accepted ids s (n + 1)) step (distinct n) inRange
    · have still : (e.iterate n ids s).sharing? = none := by
        rw [World.sharing?, stuck, Option.bind_none]
      refine ⟨by rw [same]; exact ih.distinct, fun idle => ?_, fun t a granted => ?_⟩
      · rw [same] at idle ⊢
        rw [ih.contents idle, e.sharing_succ_of_none ids s still]
      · rw [same] at granted
        obtain ⟨w, moved⟩ := (e.tended accepted ids s n).moves_of_granted granted
        rw [moved] at stuck
        cases stuck

/-! ## Linearizability -/

/-- A thread takes the step after the first `n` steps. -/
def Takes (e : Experiment) (ids : Allocator) (s : σ) (n : Nat) (t : ThreadId) : Prop :=
  (e.iterate n ids s).mover? = some t ∧
    (e.iterate n ids s).step? = some (e.iterate (n + 1) ids s)

private theorem step?_of_moved {n : Nat} {w : World σ}
    (moved : (e.iterate n ids s).step? = some w) :
    (e.iterate n ids s).step? = some (e.iterate (n + 1) ids s) := by
  rw [e.iterate_succ, moved, Option.getD_some]

private theorem Takes.does {n : Nat} {t : ThreadId} (takes : e.Takes ids s n t) :
    (e.iterate n ids s).stepThread? t = some (e.iterate (n + 1) ids s) := by
  rcases World.of_step? takes.2 with ⟨u, moves, does⟩ | ⟨unmoved, _⟩
  · obtain rfl := Option.some.inj (moves.symm.trans takes.1)
    exact does
  · rw [takes.1] at unmoved
    cases unmoved

/-- A granted access takes effect in the next step, on what the step that granted it found. -/
private theorem Settled.answers (accepted : e.registry.Accepted) {n : Nat}
    (settled : e.Settled ids s n)
    (inRange : ∀ n object operation o, (e.iterate n ids s).sharing? =
      some (.accessed object operation) → (e.iterate n ids s).objects[object]? = some o →
        operation.InRange o) {t : ThreadId} {a : Access}
    (granted : (e.iterate n ids s).Granted t a) : ∃ m, n = m + 1 ∧ e.Takes ids s n t ∧
    (e.iterate m ids s).sharing? = some (.accessed a.object a.operation) ∧
    (e.iterate n ids s).objects = (e.iterate m ids s).objects ∧
    (e.iterate (n + 1) ids s).thread? t = some (a.answered
      (a.operation.onPlains a.object (SharedEvent.after (e.sharing ids s m))).1) := by
  have tended := e.tended accepted ids s n
  obtain ⟨m, _, rfl, _, accessed, objects, contents⟩ := settled.granted t a granted
  obtain ⟨w, moved⟩ := tended.moves_of_granted granted
  have steps := step?_of_moved moved
  refine ⟨m, rfl, ⟨(tended.granted granted).2, steps⟩, accessed, objects, ?_⟩
  cases tended.sharingStep ((e.reached (m + 1) ids s).orderly accepted) steps with
  | rests _ _ idle | makes _ _ idle | grants _ _ _ _ idle => exact absurd granted (idle t a)
  | @lands u b granted' _ _ effect void =>
    obtain ⟨rfl, rfl⟩ := tended.granted_unique granted granted'
    obtain ⟨_, found⟩ := granted
    cases there : (e.iterate (m + 1) ids s).objects[a.object]? with
    | none =>
      rw [void there, World.thread?_setThread _ found, ← contents, ← objects,
        a.operation.onPlains_of_none there]
    | some o =>
      rw [effect o there,
        World.thread?_setThread _ ((World.thread?_setObjects _ _ _).trans found), ← contents,
        ← objects, a.operation.onPlains_of_some there
          (settled.distinct o (List.mem_of_getElem? there))
          (inRange m _ _ o accessed (objects ▸ there))]

end Experiment

end SteeredActors
