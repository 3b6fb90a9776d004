import PageDesigner.Proofs.Host.Reachable
import PageDesigner.Proofs.Host.Settling
import PageDesigner.Proofs.Surface.Consistent

/-!
# The tables of a host

Whatever is asked of a host, the names of the components, the list of the root page and the
selection of its document fit together (`consistent_runAll`).  This takes no more of the
registry than identifiers for the names of its types.
-/

namespace PageDesigner.Host

variable {registry : Registry} {designers : DesignerRegistry} {options : Options}

/-- A root page that is alone lists nothing. -/
theorem consistent_rootSurface (registry : Registry) :
    (rootSurface registry).Consistent (pageType registry) := by
  have arranged := arranged_rootSurface registry
  refine ⟨arranged.valid, arranged.distinct, fun root rooted => ?_, Selection.fits_empty _⟩
  obtain rfl := Option.some.inj rooted
  refine ⟨_, List.mem_singleton_self _, rfl, fun _ => ?_⟩
  have names : (rootSurface registry).container.names = [rootName registry] := rfl
  rw [names, List.filter_singleton]
  simp [Component.fresh]

theorem lasting_consistent
    (named : ∀ controlType ∈ registry.all, Naming.isValid controlType.name = true) :
    Lasting registry (Surface.Consistent (pageType registry)) :=
  ⟨Surface.durable_consistent registry (pageType registry), consistent_rootSurface registry, named⟩

end PageDesigner.Host
