import Mathlib.Data.List.Forall2
import PageDesigner.Proofs.Control.Rereading
import PageDesigner.Proofs.Surface.Siting

/-!
# Surfaces that look alike

Containers with the same names in the same order are compared component by component
(`Container.Related`).  Two surfaces are alike when they have the same root and the same
selection, and nothing tells their components apart (`Surface.Alike`).  Changing one
component into one that is alike does not show (`Container.alike_update`).
-/

namespace PageDesigner

namespace Container

/-- The same names in the same order, for components that are related one by one. -/
def Related (related : Component → Component → Prop) (container other : Container) : Prop :=
  List.Forall₂ (fun site site' => site'.name = site.name ∧ related site.component site'.component)
    container.sites other.sites

section

variable {related : Component → Component → Prop}

theorem Related.refl (reflexive : ∀ component, related component component)
    (container : Container) : Related related container container :=
  List.forall₂_same.mpr fun site _ => ⟨rfl, reflexive site.component⟩

theorem Related.trans
    (transitive : ∀ first second third, related first second → related second third →
      related first third) {first second third : Container}
    (relates : Related related first second) (relates' : Related related second third) :
    Related related first third := by
  obtain ⟨sites⟩ := first
  obtain ⟨sites'⟩ := second
  obtain ⟨sites''⟩ := third
  unfold Related at *
  dsimp only at *
  induction relates generalizing sites'' with
  | nil => exact relates'
  | cons here _ ih =>
      cases relates' with
      | cons here' later' =>
          exact .cons ⟨here'.1.trans here.1, transitive _ _ _ here.2 here'.2⟩ (ih _ later')

theorem Related.names_eq {container other : Container} (relates : Related related container other) :
    other.names = container.names := by
  obtain ⟨sites⟩ := container
  obtain ⟨sites'⟩ := other
  unfold Related names at *
  dsimp only at *
  induction relates with
  | nil => rfl
  | cons here _ ih => rw [List.map_cons, List.map_cons, here.1, ih]

/-- What a name stands for in the other container is related. -/
theorem Related.get? {container other : Container} (relates : Related related container other)
    (name : Text) : Option.Rel related (container.get? name) (other.get? name) := by
  obtain ⟨sites⟩ := container
  obtain ⟨sites'⟩ := other
  unfold Related Container.get? site? at *
  dsimp only at *
  induction relates with
  | nil => exact .none
  | @cons site site' _ _ here _ ih =>
      rw [List.find?_cons, List.find?_cons, here.1]
      cases site.name.sameName name with
      | true => exact .some here.2
      | false => exact ih

theorem Related.of_get? {container other : Container} (relates : Related related container other)
    {name : Text} {component : Component} (found : container.get? name = some component) :
    ∃ component', other.get? name = some component' ∧ related component component' := by
  have relates' := relates.get? name
  rw [found] at relates'
  generalize there : other.get? name = component?' at relates'
  cases relates' with
  | some relates' => exact ⟨_, rfl, relates'⟩

theorem Related.get?_eq_none {container other : Container}
    (relates : Related related container other) {name : Text}
    (absent : container.get? name = none) : other.get? name = none := by
  have relates' := relates.get? name
  rw [absent] at relates'
  generalize other.get? name = component?' at relates'
  cases relates' with
  | none => rfl

theorem related_update (reflexive : ∀ component, related component component)
    {container : Container} {name : Text} {change : Component → Component}
    (changes : ∀ component, container.get? name = some component →
      related component (change component)) :
    Related related container (container.update name change) := by
  obtain ⟨sites⟩ := container
  induction sites with
  | nil => exact .refl reflexive _
  | cons site rest ih =>
      rw [update_cons]
      by_cases same : site.name.sameName name = true
      · rw [if_pos same]
        have found : Container.get? ⟨site :: rest⟩ name = some site.component := by
          simp [Container.get?, site?, same]
        exact .cons ⟨rfl, changes _ found⟩ (Related.refl reflexive ⟨rest⟩)
      · rw [if_neg same]
        refine .cons ⟨rfl, reflexive _⟩ (ih fun component found => changes component ?_)
        simpa [Container.get?, site?, same] using found

end

/-- If each component declares every name in one spelling, nothing tells similar components
apart. -/
theorem Related.alike {container other : Container}
    (similar : Related Component.Similar container other)
    (spelled : ∀ site ∈ container.sites, site.component.controlType.SpelledOnce) :
    Related Component.Alike container other := by
  obtain ⟨sites⟩ := container
  obtain ⟨sites'⟩ := other
  unfold Related at *
  dsimp only at *
  induction similar with
  | nil => exact .nil
  | @cons site _ rest _ here _ ih =>
      exact .cons ⟨here.1, here.2.alike (spelled site List.mem_cons_self)⟩
        (ih fun other member => spelled other (List.mem_cons_of_mem _ member))

/-- The same names in the same order, for components that nothing tells apart. -/
def Alike (container other : Container) : Prop := Related Component.Alike container other

theorem Alike.refl (container : Container) : container.Alike container :=
  Related.refl Component.Alike.refl container

theorem Alike.trans {first second third : Container} (alike : first.Alike second)
    (alike' : second.Alike third) : first.Alike third :=
  @Related.trans Component.Alike (fun _ _ _ => Component.Alike.trans) _ _ _ alike alike'

/-- The value of a property of a component that a name stands for. -/
theorem Alike.value_eq {container other : Container} (alike : container.Alike other)
    (name property : Text) :
    (other.get? name).bind (·.get? property) = (container.get? name).bind (·.get? property) := by
  cases found : container.get? name with
  | none => rw [Related.get?_eq_none alike found]
  | some component =>
      obtain ⟨component', there, same⟩ := Related.of_get? alike found
      rw [there, Option.bind_some, Option.bind_some, same.properties]

theorem alike_update {container : Container} {name : Text} {change : Component → Component}
    (changes : ∀ component, container.get? name = some component →
      component.Alike (change component)) : container.Alike (container.update name change) :=
  related_update Component.Alike.refl changes

end Container

namespace Surface

/-- Two surfaces that nothing tells apart. -/
structure Alike (surface other : Surface) : Prop where
  container : surface.container.Alike other.container
  root_eq : other.root? = surface.root?
  selection_eq : other.selection = surface.selection

theorem Alike.refl (surface : Surface) : surface.Alike surface := ⟨.refl _, rfl, rfl⟩

theorem Alike.trans {first second third : Surface} (alike : first.Alike second)
    (alike' : second.Alike third) : first.Alike third :=
  ⟨alike.container.trans alike'.container, alike'.root_eq.trans alike.root_eq,
    alike'.selection_eq.trans alike.selection_eq⟩

end Surface

end PageDesigner
