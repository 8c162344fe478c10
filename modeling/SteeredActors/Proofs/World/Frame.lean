import SteeredActors.Proofs.World.Finality
import SteeredActors.Proofs.World.Tasks

/-!
# What most tasks leave alone

All but a few tasks touch neither mailboxes nor statuses nor rendezvous nor threads: they change
monitors, shared objects and records, and of actors only the stack of the running one and what it
raises and remembers.
-/

set_option autoImplicit false
set_option relaxedAutoImplicit false

namespace SteeredActors

variable {σ : Type}

/-- An interpreter without its stack and what its actions raise and remember. -/
def Core.outer (c : Core) : Core := { c with stack := [], raised := none, memory := {} }

/-- An actor without its stack and what its actions raise and remember. -/
def Actor.outer (a : Actor) : Actor := { a with core := a.core.outer }

/-- One world comes from another by work in a thread that concerns nobody else. -/
structure Frame (t : ThreadId) (w w' : World σ) : Prop where
  controller : w.controller.SameTurn w'.controller
  registry : w'.registry = w.registry
  policy : w'.policy = w.policy
  rendezvous : w'.rendezvous = w.rendezvous
  driver : w'.test.thread = w.test.thread
  others : ∀ j, t ≠ .actor j → w'.actors[j]? = w.actors[j]?
  outer : w'.actors.map Actor.outer = w.actors.map Actor.outer

/-- Besides, the stacks are the same. -/
structure Still (t : ThreadId) (w w' : World σ) : Prop extends Frame t w w' where
  towers : w'.actors.map (·.core.stack) = w.actors.map (·.core.stack)

namespace Frame

variable {t : ThreadId} {w w₁ w₂ : World σ}

theorem refl (t : ThreadId) (w : World σ) : Frame t w w :=
  ⟨.refl _, rfl, rfl, rfl, rfl, fun _ _ => rfl, rfl⟩

theorem trans (h : Frame t w w₁) (k : Frame t w₁ w₂) : Frame t w w₂ :=
  ⟨h.controller.trans k.controller, k.registry.trans h.registry, k.policy.trans h.policy,
    k.rendezvous.trans h.rendezvous, k.driver.trans h.driver,
    fun j hj => (k.others j hj).trans (h.others j hj), k.outer.trans h.outer⟩

/-- The interpreter of the actor whose thread it is may change its stack, raise and remember. -/
theorem modifyActor (w : World σ) (i : Nat) {f : Core → Core}
    (kept : ∀ core, (f core).outer = core.outer) :
    Frame (.actor i) w (w.modifyCore (.actor i) f) := by
  refine ⟨.refl _, rfl, rfl, rfl, rfl, ?_, ?_⟩
  · intro j hj
    have ne : i ≠ j := fun e => hj (congrArg ThreadId.actor e)
    simp [World.modifyCore, World.modifyActor, ne]
  · apply List.ext_getElem?
    intro j
    simp only [World.modifyCore, World.modifyActor, List.getElem?_map, List.getElem?_modify]
    cases w.actors[j]? with
    | none => rfl
    | some a =>
      by_cases h : i = j
      · simp [h, Actor.outer, kept a.core]
      · simp [h]

theorem setStack (w : World σ) (i : Nat) (stack : List ActiveState) :
    Frame (.actor i) w (w.setStack (.actor i) stack) := modifyActor w i fun _ => rfl

/-! ## Consequences -/

theorem length_actors (h : Frame t w w₁) : w₁.actors.length = w.actors.length := by
  simpa using congrArg List.length h.outer

theorem mode (h : Frame t w w₁) : w₁.controller.mode = w.controller.mode := h.controller.mode

theorem explores (h : Frame t w w₁) : w₁.explores = w.explores := by
  simp [World.explores, Controller.explores, h.mode]

/-- Outside its own interpreter an actor is as it was. -/
theorem actor (h : Frame t w w₁) {j : Nat} {a : Actor} (found : w.actors[j]? = some a) :
    ∃ b, w₁.actors[j]? = some b ∧ b.outer = a.outer := by
  have same := congrArg (·[j]?) h.outer
  simp only [List.getElem?_map, found, Option.map_some] at same
  obtain ⟨b, hb, outer⟩ := Option.map_eq_some_iff.1 same
  exact ⟨b, hb, outer⟩

/-- No thread but that of a sleeper has changed. -/
theorem thread? (h : Frame t w w₁) {u : ThreadId} (known : ∀ j, u ≠ .sleeper j) :
    w₁.thread? u = w.thread? u := by
  cases u with
  | driver => simp [World.thread?, h.driver]
  | sleeper j => exact absurd rfl (known j)
  | actor i =>
    have same := congrArg (·[i]?) h.outer
    simp only [List.getElem?_map] at same
    have thread : ∀ w₀ : World σ, w₀.thread? (.actor i) =
        (w₀.actors[i]?.map Actor.outer).map (·.thread) := by
      intro w₀
      simp [World.thread?, Option.map_map, Function.comp_def, Actor.outer]
    rw [thread, thread, same]

end Frame

namespace Still

variable {t : ThreadId} {w w₁ w₂ : World σ}

theorem refl (t : ThreadId) (w : World σ) : Still t w w := ⟨.refl t w, rfl⟩

theorem trans (h : Still t w w₁) (k : Still t w₁ w₂) : Still t w w₂ :=
  ⟨h.toFrame.trans k.toFrame, k.towers.trans h.towers⟩

/-- Monitors, objects, sleepers, records and what the test remembers concern no thread. -/
theorem of_parts (controller : w₁.controller = w.controller) (registry : w₁.registry = w.registry)
    (policy : w₁.policy = w.policy) (rendezvous : w₁.rendezvous = w.rendezvous)
    (driver : w₁.test.thread = w.test.thread) (actors : w₁.actors = w.actors) :
    Still t w w₁ := by
  refine ⟨⟨?_, registry, policy, rendezvous, driver, ?_, ?_⟩, ?_⟩
  · rw [controller]
    exact .refl _
  · intro j _
    rw [actors]
  · rw [actors]
  · rw [actors]

/-- The same holder of the turn. -/
theorem of_controller (w : World σ) {c : Controller σ} (same : w.controller.SameTurn c) :
    Still t w { w with controller := c } :=
  ⟨⟨same, rfl, rfl, rfl, rfl, fun _ _ => rfl, rfl⟩, rfl⟩

theorem report (w : World σ) (report : BugReport) : Still t w (w.report report) :=
  of_controller w (.finish _ (.bugFound report))

theorem note (w : World σ) (who text : String) : Still t w (w.note who text) := by
  unfold World.note
  split
  · exact refl t w
  · exact of_parts rfl rfl rfl rfl rfl rfl

theorem observe (w : World σ) (event : LifecycleEvent) : Still t w (w.observe event) := by
  unfold World.observe
  split
  · exact refl t w
  · exact of_parts rfl rfl rfl rfl rfl rfl

theorem modifyMonitor (w : World σ) (m : Nat) (f : Monitor → Monitor) :
    Still t w (w.modifyMonitor m f) := of_parts rfl rfl rfl rfl rfl rfl

/-- An interpreter that belongs to the thread may raise and remember. -/
theorem modifyCore (w : World σ) {c : Subject} {below : Bool} (mine : c.OwnedBy t.own? below)
    {f : Core → Core} (kept : ∀ core, (f core).outer = core.outer)
    (stack : ∀ core, (f core).stack = core.stack) : Still t w (w.modifyCore c f) := by
  cases c with
  | monitor m => exact modifyMonitor w m _
  | actor i =>
    obtain rfl : t = .actor i := by
      cases t with
      | actor j => exact congrArg ThreadId.actor (Option.some.inj mine.1)
      | driver | sleeper => cases mine.1
    refine ⟨.modifyActor w i kept, ?_⟩
    apply List.ext_getElem?
    intro j
    simp only [World.modifyCore, World.modifyActor, List.getElem?_map, List.getElem?_modify]
    cases w.actors[j]? with
    | none => rfl
    | some a =>
      by_cases h : i = j
      · simp [h, stack a.core]
      · simp [h]

theorem setStack_monitor (w : World σ) (m : Nat) (stack : List ActiveState) :
    Still t w (w.setStack (.monitor m) stack) := modifyMonitor w m _

theorem halt_monitor (w : World σ) (m : Nat) : Still t w (w.halt (.monitor m)) := by
  unfold World.halt
  split
  · exact refl t w
  · split
    · exact refl t w
    · exact (modifyMonitor w m _).trans (observe _ _)

theorem stopSleeper (w : World σ) (core : Option Core) : Still t w (w.stopSleeper core) := by
  cases core with
  | none => exact refl t w
  | some c => exact of_parts rfl rfl rfl rfl rfl rfl

end Still

end SteeredActors
