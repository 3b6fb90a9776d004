import PageDesigner.Proofs.Surface.Alike
import PageDesigner.Proofs.Surface.Removing
import PageDesigner.Proofs.Surface.Restoring

/-!
# The table of components

The table of a container lists each name with the name of its type, in the order of siting
(`Container.table`).  Siting a control adds an entry behind the others, destroying one
takes its entry out, renaming one changes the name in its entry, and nothing else that is
done to a surface shows in the table.
-/

namespace PageDesigner

namespace Container

/-- The names of the components with the names of their types, in the order of siting. -/
def table (container : Container) : List (Text × Text) :=
  container.sites.map fun site => (site.name, site.component.controlType.name)

theorem names_eq_table (container : Container) :
    container.names = container.table.map Prod.fst := by
  unfold names table
  rw [List.map_map]
  rfl

/-- Two components have a type of the same name. -/
def SameType (component other : Component) : Prop :=
  other.controlType.name = component.controlType.name

theorem Related.table_eq {container other : Container}
    (relates : Related SameType container other) : other.table = container.table := by
  obtain ⟨sites⟩ := container
  obtain ⟨sites'⟩ := other
  unfold Related table at *
  dsimp only at *
  induction relates with
  | nil => rfl
  | cons here _ ih => rw [List.map_cons, List.map_cons, here.1, here.2, ih]

/-- Changing a component does not show in the table unless its type changes. -/
theorem table_update {container : Container} {name : Text} {change : Component → Component}
    (keeps : ∀ component, container.get? name = some component →
      (change component).controlType = component.controlType) :
    (container.update name change).table = container.table :=
  Related.table_eq (@related_update SameType (fun _ => rfl) _ _ _ fun component found =>
    congrArg ControlType.name (keeps component found))

theorem table_extended (container : Container) (name : Text) (component : Component) :
    (container.extended name component).table =
      container.table ++ [(name, component.controlType.name)] := List.map_append

/-- With distinct names, a stored name is met in no other entry. -/
theorem sameName_eq_of_mem {container : Container} (distinct : container.Distinct) {name : Text}
    (stored : name ∈ container.names) {entry : Text × Text} (member : entry ∈ container.table) :
    entry.1.sameName name = decide (entry.1 = name) := by
  obtain ⟨site, sited, rfl⟩ := List.mem_map.mp stored
  obtain ⟨other, sited', rfl⟩ := List.mem_map.mp member
  rw [Bool.eq_iff_iff, decide_eq_true_iff]
  constructor
  · intro same
    rw [eq_of_sameName distinct sited' sited same]
  · intro same
    rw [same]
    exact Text.sameName_refl _

/-- With distinct names, the entry of a component has its type. -/
theorem type_of_mem_table {container : Container} (distinct : container.Distinct) {site : Site}
    (sited : site ∈ container.sites) {type : Text}
    (member : (site.name, type) ∈ container.table) : type = site.component.controlType.name := by
  obtain ⟨other, sited', same⟩ := List.mem_map.mp member
  obtain ⟨name, rfl⟩ := Prod.mk.inj same
  rw [eq_of_sameName distinct sited' sited (by rw [name]; exact Text.sameName_refl _)]

/-- Names are distinct when the table has no name twice. -/
theorem distinct_iff_table {container : Container} :
    container.Distinct ↔ (container.table.map fun entry => entry.1.lower).Nodup := by
  unfold Distinct
  rw [names_eq_table, List.map_map]
  rfl

/-- Replacing a component by one of the type in its entry does not show in the table. -/
theorem table_put {container : Container} (distinct : container.Distinct) {name : Text}
    {component : Component} (listed : (name, component.controlType.name) ∈ container.table) :
    (container.update name fun _ => component).table = container.table := by
  refine Related.table_eq (@related_update SameType (fun _ => rfl) _ _ _ fun former found => ?_)
  obtain ⟨site, there, rfl⟩ := Option.map_eq_some_iff.mp found
  obtain ⟨other, sited, same⟩ := List.mem_map.mp listed
  obtain ⟨rfl, type⟩ := Prod.mk.inj same
  have here := site?_of_mem distinct sited (Text.sameName_refl other.name)
  rw [there] at here
  obtain rfl := Option.some.inj here
  exact type.symm

/-- Taking a component out takes its entry out. -/
theorem table_without {container : Container} (distinct : container.Distinct) {name : Text}
    (stored : name ∈ container.names) :
    (container.without name).table = container.table.filter (·.1 ≠ name) := by
  have entries : (container.without name).table =
      container.table.filter (!·.1.sameName name) := by
    unfold table
    rw [without_eq_filter distinct, List.filter_map]
    rfl
  rw [entries]
  refine List.filter_congr fun entry member => ?_
  rw [sameName_eq_of_mem distinct stored member, decide_not]

end Container

namespace Surface

theorem table_updateChildren (surface : Surface) (change : List Text → List Text) :
    (surface.updateChildren change).container.table = surface.container.table := by
  unfold updateChildren
  split
  · rfl
  · refine Container.table_update fun component _ => ?_
    split <;> rfl

/-- Siting a control adds an entry behind the others. -/
theorem table_place (surface : Surface) (name : Text) (component : Component) :
    (surface.place name component).container.table =
      surface.container.table ++ [(name, component.controlType.name)] := by
  unfold place
  rw [table_updateChildren]
  exact Container.table_extended _ _ _

theorem table_withoutControl {surface : Surface} (distinct : surface.container.Distinct)
    {name : Text} (stored : name ∈ surface.container.names) :
    (surface.withoutControl name).container.table =
      surface.container.table.filter (·.1 ≠ name) := by
  unfold withoutControl
  dsimp only
  rw [Container.table_without (distinct_detached distinct _ _), table_updateChildren]
  rw [names_updateChildren]
  exact stored

/-- Destroying a component takes its entry out. -/
theorem table_destroy? {surface after : Surface} (distinct : surface.container.Distinct)
    {name stored : Text} (done : surface.destroy? name = some (stored, after)) :
    after.container.table = surface.container.table.filter (·.1 ≠ stored) := by
  obtain ⟨site, found, rfl, outcome⟩ := destroy?_cases done
  have named : site.name ∈ surface.container.names :=
    List.mem_map_of_mem (Container.mem_of_site? found)
  rcases outcome with ⟨-, rfl⟩ | ⟨-, rfl⟩
  · exact table_withoutControl distinct named
  · exact Container.table_without distinct named

/-- Giving a component another name changes its entry. -/
theorem table_rename {surface after : Surface} (distinct : surface.container.Distinct)
    {name newName previous : Text} (done : surface.rename name newName = .ok (previous, after)) :
    after.container.table = surface.container.table.map fun entry =>
      (if entry.1 = previous then newName else entry.1, entry.2) := by
  obtain ⟨site, sited, rfl, -, -, -, rfl⟩ := rename_inv distinct done
  unfold relabelled
  unfold Container.table
  rw [List.map_map, List.map_map]
  refine List.map_congr_left fun other member => ?_
  have entry : (other.name, other.component.controlType.name) ∈ surface.container.table :=
    List.mem_map.mpr ⟨other, member, rfl⟩
  have alike := Container.sameName_eq_of_mem distinct (List.mem_map_of_mem sited) entry
  have type : (surface.relabelledSite site.name newName other).component.controlType =
      other.component.controlType := by
    unfold relabelledSite relisted
    split <;> rfl
  dsimp only [Function.comp] at alike ⊢
  rw [name_relabelledSite, type, Text.renamed, alike]
  simp only [decide_eq_true_eq]

/-- A name that is sited can be destroyed, and no other one can. -/
theorem missing_or_destroyed {surface : Surface} (distinct : surface.container.Distinct) (name : Text) :
    (surface.container.site? name = none ∧ surface.destroy? name = none) ∨
      ∃ site after, surface.container.site? name = some site ∧
        surface.destroy? name = some (site.name, after) ∧ after.container.Distinct ∧
        after.container.table = surface.container.table.filter (·.1 ≠ site.name) := by
  cases found : surface.container.site? name with
  | none =>
      refine .inl ⟨rfl, ?_⟩
      unfold destroy? Container.storedName?
      rw [found]
      rfl
  | some site =>
      obtain ⟨after, gone, -⟩ := exists_destroyed distinct found
      have stored : surface.destroy? name = surface.destroy? site.name := by
        unfold destroy? Container.storedName?
        rw [found, Container.site?_congr (Container.sameName_of_site? found), found]
      exact .inr ⟨site, after, rfl, stored.trans gone, distinct_destroy? distinct gone,
        table_destroy? distinct gone⟩

/-- A name that is sited and listed is destroyed with the others. -/
theorem mem_destroyAll {surface : Surface} (distinct : surface.container.Distinct)
    {names : List Text} {name : Text} (sited : name ∈ surface.container.names)
    (member : name ∈ names) : name ∈ (surface.destroyAll names).1 := by
  induction names generalizing surface with
  | nil => cases member
  | cons head rest ih =>
      obtain ⟨own, listed, rfl⟩ := List.mem_map.mp sited
      have here := Container.site?_of_mem distinct listed (Text.sameName_refl own.name)
      unfold destroyAll
      rcases missing_or_destroyed distinct head with
        ⟨missing, gone⟩ | ⟨site, after, found, gone, distinct', table⟩
      · rw [gone]
        refine ih distinct sited ((List.mem_cons.mp member).resolve_left ?_)
        rintro rfl
        rw [missing] at here
        cases here
      · rw [gone]
        by_cases same : own.name = site.name
        · rw [same]
          exact List.mem_cons_self
        · refine List.mem_cons_of_mem _ (ih distinct' ?_ ((List.mem_cons.mp member).resolve_left ?_))
          · rw [Container.names_eq_table] at sited ⊢
            obtain ⟨entry, member', named⟩ := List.mem_map.mp sited
            rw [table]
            refine List.mem_map.mpr ⟨entry, List.mem_filter.mpr ⟨member', ?_⟩, named⟩
            rw [named]
            exact decide_eq_true same
          · rintro rfl
            rw [found] at here
            obtain rfl := Option.some.inj here
            exact same rfl

/-- Clearing an orderly surface destroys every component. -/
theorem Orderly.mem_clear {surface : Surface} (orderly : surface.Orderly) {name : Text}
    (sited : name ∈ surface.container.names) : name ∈ surface.clear.1 := by
  refine mem_destroyAll orderly.distinct sited ?_
  unfold removalOrder
  cases rooted : surface.root? with
  | none => exact List.mem_reverse.mpr sited
  | some root =>
      cases same : name.sameName root with
      | false =>
          refine List.mem_append_left _ (List.mem_filter.mpr ⟨List.mem_reverse.mpr sited, ?_⟩)
          rw [same]
          rfl
      | true =>
          obtain ⟨site, listed, rfl⟩ := List.mem_map.mp sited
          obtain ⟨other, listed', rfl⟩ := List.mem_map.mp (orderly.rooted root rooted)
          rw [Container.eq_of_sameName orderly.distinct listed listed' same]
          exact List.mem_append_right _ (List.mem_singleton_self _)

end Surface

end PageDesigner
