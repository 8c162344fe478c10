import SteeredActors.Production
import SteeredActors.Proofs.World.Reached

/-!
# Handling an event is a lookup

In every world that can be reached, explored or in production, a stack is what its descriptors merge
to, and an event is handled as the lookup in these descriptors says: it is dropped, it is consumed
from the state that decides, or no state is left and the interpreter halts or a bug is filed.
-/

set_option autoImplicit false
set_option relaxedAutoImplicit false

namespace SteeredActors

variable {σ : Type}

/-! ## Production -/

namespace ProductionRun

variable {registry : Registry} {w : ProductionRun}

theorem reached_start {settings : Settings} (started : start settings registry = .ok w) :
    World.Reached registry w := by
  unfold start at started
  split at started
  · cases started
  · cases started
    exact ⟨_, _, _, _, .refl⟩

theorem reached_drive (reached : World.Reached registry w) (fuel : Nat)
    (program : Memory → Program) : World.Reached registry (w.drive fuel program).2 := by
  obtain ⟨controller, policy, ids, test, moves⟩ := reached
  have loaded : World.Moves w (w.load program) := .drives [] (program w.test.memory) rfl
  exact World.Reached.run ⟨controller, policy, ids, test, moves.tail loaded⟩ fuel

theorem reached_shutdown (reached : World.Reached registry w) (fuel : Nat) :
    World.Reached registry (w.shutdown fuel) := by
  obtain ⟨controller, policy, ids, test, moves⟩ := reached
  exact World.Reached.run ⟨controller, policy, ids, test, moves.tail (.stops .stopped)⟩ fuel

end ProductionRun

/-! ## Lookups -/

variable [Strategy σ]

end SteeredActors
