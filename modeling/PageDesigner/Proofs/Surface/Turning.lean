import PageDesigner.Control.Registry
import PageDesigner.Proofs.Surface.Restoring

/-!
# Turns of a surface

Whatever is done in a session, a surface changes by turns of five kinds (`Surface.Turn`): a
control is sited, a component is altered, destroyed or renamed together with the selection,
or components are selected.  What holds of an arranged surface and is kept by every turn
(`Surface.Durable`) is kept by everything that consists of turns.
-/

namespace PageDesigner

/-- Every type of the registry is regular. -/
def Registry.Regular (registry : Registry) : Prop :=
  ∀ controlType ∈ registry.all, controlType.Regular

instance (registry : Registry) : Decidable registry.Regular :=
  inferInstanceAs (Decidable (∀ controlType ∈ registry.all, controlType.Regular))

namespace Surface

/-- What one turn makes of a surface. -/
inductive Turn (registry : Registry) (surface : Surface) : Surface → Prop
  | sited {controlType : ControlType} {component : Component} {name : Text}
      (listed : controlType ∈ registry.all)
      (alters : (Component.fresh controlType).Alters component)
      (free : surface.container.site? name = none) (valid : Naming.isValid name = true) :
      Turn registry surface (surface.place name component)
  | altered {name : Text} {component changed : Component}
      (found : surface.container.get? name = some component)
      (alters : component.Alters changed) :
      Turn registry surface
        { surface with container := surface.container.update name fun _ => changed }
  | destroyed {name stored : Text} {after : Surface}
      (done : surface.destroy? name = some (stored, after)) : Turn registry surface after
  | renamed {name newName previous : Text} {after : Surface}
      (done : surface.rename name newName = .ok (previous, after)) :
      Turn registry surface { after with selection := after.selection.rename previous newName }
  | selected (names : List Text) (primary : Nat) :
      Turn registry surface (surface.select (surface.known names) primary)

/-- What holds of arranged surfaces only, and stays so at every turn. -/
structure Durable (registry : Registry) (holds : Surface → Prop) : Prop where
  arranged : ∀ surface, holds surface → surface.Arranged
  turned : ∀ surface after, holds surface → surface.Turn registry after → holds after

variable {registry : Registry} {surface after : Surface}

/-- Surfaces stay orderly at every turn, as long as the types are regular. -/
theorem durable_orderly (regular : registry.Regular) : Durable registry Orderly := by
  refine ⟨fun _ orderly => orderly.arranged, fun surface after orderly turn => ?_⟩
  cases turn with
  | sited listed alters free valid =>
      exact orderly.place free valid
        ((Component.regular_fresh (regular _ listed)).version alters).regular
  | altered found alters =>
      exact orderly.replace found ((orderly.regular_of_get? found).version alters)
  | destroyed done => exact orderly.destroy? done
  | renamed done => exact (orderly.rename done).withSelection _
  | selected => exact orderly.withSelection _

/-- The stored name of the root is that of the root itself. -/
theorem Arranged.known_root (arranged : surface.Arranged) {root : Text}
    (rooted : surface.root? = some root) : surface.known [root] = [root] := by
  obtain ⟨site, sited, rfl⟩ := List.mem_map.mp (arranged.rooted root rooted)
  unfold known Container.storedName?
  rw [List.filterMap_cons,
    Container.site?_of_mem arranged.distinct sited (Text.sameName_refl site.name)]
  rfl

/-- The root can always be selected. -/
theorem Arranged.turn_root (arranged : surface.Arranged) {root : Text}
    (rooted : surface.root? = some root) : surface.Turn registry (surface.select [root] 0) := by
  have turn : surface.Turn registry (surface.select (surface.known [root]) 0) := .selected _ _
  rw [arranged.known_root rooted] at turn
  exact turn

end Surface

end PageDesigner
