import SteeredActors.Descriptor.Build
import SteeredActors.Timer

/-!
# Registries

The table of all types that a run can make actors of. A type tag stands for one type, machine or
monitor. The built-in timers are always there.
-/

set_option autoImplicit false
set_option relaxedAutoImplicit false

namespace SteeredActors

/-- A table of descriptors with distinct type tags. -/
structure Registry where
  descriptors : List Descriptor

namespace Registry

/-- The descriptor of a type and kind. -/
def find? (r : Registry) (kind : ActorKind) (typeTag : String) : Option Descriptor :=
  r.descriptors.find? fun d => d.kind == kind && d.typeTag == typeTag

/-- The descriptor of a type of machines. -/
def machine? (r : Registry) (typeTag : String) : Option Descriptor := r.find? .machine typeTag

/-- The descriptor of a type of monitors. -/
def monitor? (r : Registry) (typeTag : String) : Option Descriptor := r.find? .monitor typeTag

/-- The type tags of a kind, in order. -/
def types (r : Registry) (kind : ActorKind) : List String :=
  ((r.descriptors.filter (·.kind == kind)).map (·.typeTag)).mergeSort

/-- The registry of the built-in machines and the given types. -/
def build (descriptors : List Descriptor) : Except ConfigurationError Registry :=
  let all := Timer.descriptors ++ descriptors
  match repeated [] (all.map (·.typeTag)) with
  | typeTag :: _ => .error (.duplicateType typeTag)
  | [] => .ok ⟨all⟩

end Registry

end SteeredActors
