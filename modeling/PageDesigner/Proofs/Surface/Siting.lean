import PageDesigner.Proofs.Surface.Container
import PageDesigner.Surface.Basic

/-!
# Controls on a surface

Siting and destroying a control change what its own name stands for and the list of
children of the root page.  What any other name stands for is left alone, unless it is
the name of the root, and all names stay distinct.
-/

namespace PageDesigner

namespace Surface

/-! ## The children of the root -/

@[simp]
theorem root?_updateChildren (surface : Surface) (change : List Text → List Text) :
    (surface.updateChildren change).root? = surface.root? := by
  unfold updateChildren
  split <;> simp_all

@[simp]
theorem names_updateChildren (surface : Surface) (change : List Text → List Text) :
    (surface.updateChildren change).container.names = surface.container.names := by
  unfold updateChildren
  split <;> simp

theorem site?_updateChildren {surface : Surface} {name : Text}
    (notRoot : surface.isRoot name = false) (change : List Text → List Text) :
    (surface.updateChildren change).container.site? name = surface.container.site? name := by
  unfold updateChildren
  split
  · rfl
  · next root rooted =>
      rw [Container.site?_update_of_ne]
      simpa [isRoot, rooted] using notRoot

theorem distinct_updateChildren {surface : Surface} (distinct : surface.container.Distinct)
    (change : List Text → List Text) : (surface.updateChildren change).container.Distinct := by
  unfold Container.Distinct
  rw [names_updateChildren]
  exact distinct

/-- What is selected does not matter for the names. -/
theorem distinct_detached {surface : Surface} (distinct : surface.container.Distinct)
    (selection : Selection) (change : List Text → List Text) :
    ({ surface with selection }.updateChildren change).container.Distinct :=
  @distinct_updateChildren { surface with selection } distinct change

theorem isRoot_congr {surface : Surface} {name name' : Text}
    (same : name.sameName name' = true) : surface.isRoot name = surface.isRoot name' := by
  unfold isRoot
  congr
  funext root
  simp only [Text.sameName, Text.sameName_iff.mp same]

@[simp]
theorem isRoot_selection (surface : Surface) (selection : Selection) (name : Text) :
    { surface with selection }.isRoot name = surface.isRoot name := rfl

/-! ## Siting a control -/

/-- The surface with a control under a name that was free. -/
def place (surface : Surface) (name : Text) (component : Component) : Surface :=
  { surface with container := surface.container.extended name component }.updateChildren
    (· ++ [name])

theorem siteControl_eq {surface : Surface} {name : Text} (valid : Naming.isValid name = true)
    (free : surface.container.site? name = none) (component : Component) :
    surface.siteControl (some name) component = .ok (name, surface.place name component) := by
  simp only [siteControl, Container.add_eq valid free, place]

@[simp]
theorem root?_place (surface : Surface) (name : Text) (component : Component) :
    (surface.place name component).root? = surface.root? := by
  simp [place]

@[simp]
theorem names_place (surface : Surface) (name : Text) (component : Component) :
    (surface.place name component).container.names = surface.container.names ++ [name] := by
  rw [place, names_updateChildren]
  simp [Container.names, Container.extended]

theorem distinct_place {surface : Surface} (distinct : surface.container.Distinct) {name : Text}
    (free : surface.container.site? name = none) (component : Component) :
    (surface.place name component).container.Distinct :=
  distinct_updateChildren (distinct.extended free component) _

theorem get?_place_self {surface : Surface} {name : Text}
    (free : surface.container.site? name = none) (notRoot : surface.isRoot name = false)
    (component : Component) :
    (surface.place name component).container.get? name = some component := by
  have here := Container.get?_extended_self free component
  unfold Container.get? at *
  rw [place, site?_updateChildren]
  · exact here
  · exact notRoot

theorem get?_place_of_ne {surface : Surface} {name other : Text}
    (differs : name.sameName other = false) (notRoot : surface.isRoot other = false)
    (component : Component) :
    (surface.place name component).container.get? other = surface.container.get? other := by
  unfold Container.get?
  rw [place, site?_updateChildren]
  · rw [Container.site?_extended_of_ne differs]
  · exact notRoot

/-! ## Destroying a control -/

/-- The surface without the control under a name. -/
def withoutControl (surface : Surface) (name : Text) : Surface :=
  let detached := { surface with selection := surface.selection.without name }.updateChildren
    (·.filter fun child => !child.sameName name)
  { detached with container := detached.container.without name }

theorem destroy?_eq {surface : Surface} {name : Text} (notRoot : surface.isRoot name = false) :
    surface.destroy? name = (surface.container.site? name).map fun site =>
      (site.name, surface.withoutControl site.name) := by
  unfold destroy? Container.storedName?
  cases found : surface.container.site? name with
  | none => rfl
  | some site =>
      have same := Container.sameName_of_site? found
      have stays : surface.isRoot site.name = false := by rw [isRoot_congr same, notRoot]
      have detached : { surface with selection := surface.selection.without site.name }.detach
          site.name = { surface with selection := surface.selection.without site.name
            }.updateChildren (·.filter fun child => !child.sameName site.name) := by
        unfold detach
        rw [if_neg]
        rw [isRoot_selection, stays]
        exact Bool.false_ne_true
      have there : surface.container.site? site.name = some site := by
        rw [Container.site?_congr same, found]
      dsimp only [Option.map_some]
      rw [detached, Container.remove?_eq, site?_updateChildren (by rw [isRoot_selection, stays]),
        there]
      rfl

@[simp]
theorem root?_withoutControl (surface : Surface) (name : Text) :
    (surface.withoutControl name).root? = surface.root? := by
  simp [withoutControl]

theorem isRoot_withoutControl (surface : Surface) (name other : Text) :
    (surface.withoutControl name).isRoot other = surface.isRoot other := by
  unfold isRoot
  rw [root?_withoutControl]

theorem distinct_withoutControl {surface : Surface} (distinct : surface.container.Distinct)
    (name : Text) : (surface.withoutControl name).container.Distinct :=
  Container.Distinct.without (distinct_detached distinct _ _) name

theorem site?_withoutControl_self {surface : Surface} (distinct : surface.container.Distinct)
    (name : Text) : (surface.withoutControl name).container.site? name = none :=
  Container.site?_without_self (distinct_detached distinct _ _) name

theorem site?_withoutControl_of_ne {surface : Surface} {name other : Text}
    (differs : name.sameName other = false) (notRoot : surface.isRoot other = false) :
    (surface.withoutControl name).container.site? other = surface.container.site? other := by
  unfold withoutControl
  dsimp only
  rw [Container.site?_without_of_ne differs, site?_updateChildren]
  exact notRoot

theorem mem_names_withoutControl {surface : Surface} {name other : Text}
    (member : other ∈ (surface.withoutControl name).container.names) :
    other ∈ surface.container.names := by
  have kept := Container.mem_names_without member
  rw [names_updateChildren] at kept
  exact kept

/-! ## Distinct names -/

theorem distinct_siteRoot {surface rooted : Surface} {page : Component} {name : Text}
    (distinct : surface.container.Distinct)
    (done : surface.siteRoot page = .ok (name, rooted)) : rooted.container.Distinct := by
  unfold siteRoot at done
  split at done
  · cases done
  next stored container added =>
  obtain ⟨rfl, rfl⟩ := Prod.mk.inj (Except.ok.inj done)
  obtain ⟨free, rfl⟩ := Container.add_inv added
  exact distinct.extended free page

theorem distinct_siteControl {surface sited : Surface} {component : Component}
    {name? : Option Text} {name : Text} (distinct : surface.container.Distinct)
    (done : surface.siteControl name? component = .ok (name, sited)) :
    sited.container.Distinct := by
  unfold siteControl at done
  split at done
  · cases done
  next stored container added =>
  obtain ⟨rfl, rfl⟩ := Prod.mk.inj (Except.ok.inj done)
  obtain ⟨free, rfl⟩ := Container.add_inv added
  exact @distinct_updateChildren { surface with container := _ }
    (distinct.extended free component) _

theorem distinct_rename {surface renamed : Surface} {name newName previous : Text}
    (distinct : surface.container.Distinct)
    (done : surface.rename name newName = .ok (previous, renamed)) :
    renamed.container.Distinct := by
  unfold rename at done
  split at done
  · cases done
  split at done
  · cases done
  next stored container changed =>
  obtain ⟨rfl, rfl⟩ := Prod.mk.inj (Except.ok.inj done)
  exact @distinct_updateChildren { surface with container := _ }
    (distinct.rename changed) _

theorem distinct_destroy? {surface left : Surface} {name stored : Text}
    (distinct : surface.container.Distinct)
    (done : surface.destroy? name = some (stored, left)) : left.container.Distinct := by
  unfold destroy? at done
  split at done
  · cases done
  dsimp only at done
  rw [Container.remove?_eq, Option.map_map] at done
  obtain ⟨site, _, same⟩ := Option.map_eq_some_iff.mp done
  obtain ⟨rfl, rfl⟩ := Prod.mk.inj same
  refine Container.Distinct.without ?_ _
  unfold detach
  split
  · exact distinct
  · exact distinct_detached distinct _ _

end Surface

end PageDesigner
