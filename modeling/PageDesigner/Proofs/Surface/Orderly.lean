import PageDesigner.Proofs.Control.Regular
import PageDesigner.Proofs.Surface.Mapping

/-!
# Orderly surfaces

On an arranged surface names are distinct identifiers, the root is one of the components,
and the root page lists none but sited controls (`Surface.Arranged`).  On an orderly surface
values also are of the kind of their property (`Surface.Orderly`).  Siting, changing,
renaming and destroying components keep a surface arranged, and orderly.
-/

namespace PageDesigner

namespace Surface

/-- Whether the site is the root page, which lists the controls. -/
def lists (surface : Surface) (site : Site) : Bool :=
  surface.isRoot site.name && site.component.isPage

/-- The site with the list of controls changed, if it is the root page. -/
def relisted (surface : Surface) (change : List Text → List Text) (site : Site) : Site :=
  if surface.lists site then
    { site with
      component := { site.component with children := change site.component.children } }
  else site

@[simp]
theorem name_relisted (surface : Surface) (change : List Text → List Text) (site : Site) :
    (surface.relisted change site).name = site.name := by
  unfold relisted
  split <;> rfl

theorem relisted_of_lists {surface : Surface} {site : Site} (lists : surface.lists site = true)
    (change : List Text → List Text) :
    surface.relisted change site =
      { site with
        component := { site.component with children := change site.component.children } } := by
  unfold relisted
  rw [if_pos lists]

theorem relisted_of_not_lists {surface : Surface} {site : Site}
    (lists : surface.lists site = false) (change : List Text → List Text) :
    surface.relisted change site = site := by
  unfold relisted
  rw [lists, if_neg Bool.false_ne_true]

theorem updateChildren_eq_map (surface : Surface) (distinct : surface.container.Distinct)
    (change : List Text → List Text) :
    surface.updateChildren change =
      { surface with container := ⟨surface.container.sites.map (surface.relisted change)⟩ } := by
  obtain ⟨container, root?, selection⟩ := surface
  unfold updateChildren
  cases root? with
  | none =>
      have same : container.sites.map (relisted ⟨container, none, selection⟩ change) =
          container.sites :=
        (List.map_congr_left fun site _ => relisted_of_not_lists rfl change).trans (List.map_id _)
      rw [same]
  | some root =>
      dsimp only
      rw [Container.update_eq_map distinct]
      congr 2
      refine List.map_congr_left fun site _ => ?_
      unfold relisted lists isRoot
      rw [Option.any_some, Text.sameName_comm root]
      cases site.name.sameName root with
      | true => cases site.component.isPage <;> simp
      | false => rfl

/-- Names are distinct identifiers, and the root is sited and lists sited controls only. -/
structure Arranged (surface : Surface) : Prop where
  distinct : surface.container.Distinct
  valid : ∀ name ∈ surface.container.names, Naming.isValid name = true
  rooted : ∀ root, surface.root? = some root → root ∈ surface.container.names
  listed : ∀ site ∈ surface.container.sites, surface.lists site = true →
    site.component.children ⊆ surface.container.names

/-- Names are distinct identifiers, the root is sited and lists sited controls only, and values are
of the kind of their property. -/
structure Orderly (surface : Surface) : Prop where
  distinct : surface.container.Distinct
  valid : ∀ name ∈ surface.container.names, Naming.isValid name = true
  rooted : ∀ root, surface.root? = some root → root ∈ surface.container.names
  listed : ∀ site ∈ surface.container.sites, surface.lists site = true →
    site.component.children ⊆ surface.container.names
  regular : ∀ site ∈ surface.container.sites, site.component.Regular

theorem Orderly.arranged {surface : Surface} (orderly : surface.Orderly) : surface.Arranged :=
  ⟨orderly.distinct, orderly.valid, orderly.rooted, orderly.listed⟩

theorem Arranged.orderly {surface : Surface} (arranged : surface.Arranged)
    (regular : ∀ site ∈ surface.container.sites, site.component.Regular) : surface.Orderly :=
  ⟨arranged.distinct, arranged.valid, arranged.rooted, arranged.listed, regular⟩

namespace Arranged

variable {surface : Surface}

/-- A name that no component has is not that of the root. -/
theorem isRoot_of_free (arranged : surface.Arranged) {name : Text}
    (free : surface.container.site? name = none) : surface.isRoot name = false := by
  unfold isRoot
  cases rooted : surface.root? with
  | none => rfl
  | some root =>
      rw [Option.any_some, Bool.eq_false_iff]
      intro same
      refine Container.site?_eq_none.mp free ?_
      rw [← Text.sameName_iff.mp same]
      exact List.mem_map_of_mem (arranged.rooted root rooted)

/-- The root and the children of the root page are among the names. -/
theorem child_not_free (arranged : surface.Arranged) {name : Text}
    (free : surface.container.site? name = none) {site : Site}
    (member : site ∈ surface.container.sites) (lists : surface.lists site = true) {child : Text}
    (listed : child ∈ site.component.children) : child.sameName name = false := by
  rw [Bool.eq_false_iff]
  intro same
  refine Container.site?_eq_none.mp free ?_
  rw [← Text.sameName_iff.mp same]
  exact List.mem_map_of_mem (arranged.listed site member lists listed)

theorem withSelection (arranged : surface.Arranged) (selection : Selection) :
    { surface with selection }.Arranged :=
  ⟨arranged.distinct, arranged.valid, arranged.rooted, arranged.listed⟩

end Arranged

/-! ## Siting -/

section Siting

variable {surface : Surface}

theorem valid_of_add {container added : Container} {name? : Option Text} {component : Component}
    {name : Text} (named : Naming.isValid component.controlType.name = true)
    (done : container.add name? component = .ok (name, added)) : Naming.isValid name = true := by
  unfold Container.add at done
  split at done
  · cases done
  next chosen chooses =>
  obtain ⟨rfl, rfl⟩ := Prod.mk.inj (Except.ok.inj done)
  unfold Container.nameFor at chooses
  split at chooses
  · rw [← Except.ok.inj chooses]
    exact Naming.isValid_unused named container.names
  · split at chooses
    · cases chooses
    next given =>
      split at chooses
      · cases chooses
      · rw [← Except.ok.inj chooses]
        simpa using given

/-- A control is sited under a name that is free and valid. -/
theorem siteControl_inv {surface after : Surface} {name? : Option Text} {component : Component}
    {name : Text} (named : Naming.isValid component.controlType.name = true)
    (done : surface.siteControl name? component = .ok (name, after)) :
    surface.container.site? name = none ∧ Naming.isValid name = true ∧
      after = surface.place name component := by
  unfold siteControl at done
  split at done
  · cases done
  next stored container added =>
  obtain ⟨rfl, rfl⟩ := Prod.mk.inj (Except.ok.inj done)
  have valid := valid_of_add named added
  obtain ⟨free, rfl⟩ := Container.add_inv added
  exact ⟨free, valid, rfl⟩

theorem lists_relisted (site : Site) (change : List Text → List Text) :
    surface.lists (surface.relisted change site) = surface.lists site := by
  unfold lists relisted Component.isPage
  split <;> rfl

/-- The root page lists what `change` makes of its list, if that is among the given names. -/
theorem listed_relisted {site : Site} {names : List Text} {change : List Text → List Text}
    (within : surface.lists site = true → change site.component.children ⊆ names)
    (lists : surface.lists (surface.relisted change site) = true) :
    (surface.relisted change site).component.children ⊆ names := by
  rw [lists_relisted] at lists
  rw [relisted_of_lists lists]
  exact within lists

/-- Changing the list of the root page keeps its values. -/
theorem regular_relisted {site : Site} (regular : site.component.Regular)
    (change : List Text → List Text) : (surface.relisted change site).component.Regular := by
  unfold relisted
  split
  · exact regular.congr rfl rfl
  · exact regular

theorem Arranged.place_eq_map (arranged : surface.Arranged) {name : Text}
    (free : surface.container.site? name = none) (component : Component) :
    surface.place name component =
      { surface with
        container := ⟨surface.container.sites.map (surface.relisted (· ++ [name])) ++
          [⟨name, component⟩]⟩ } := by
  unfold place
  rw [updateChildren_eq_map
    { surface with container := surface.container.extended name component }
    (arranged.distinct.extended free component)]
  have alone : surface.lists ⟨name, component⟩ = false := by
    unfold lists
    rw [arranged.isRoot_of_free free, Bool.false_and]
  have last : relisted { surface with container := surface.container.extended name component }
      (· ++ [name]) ⟨name, component⟩ = ⟨name, component⟩ :=
    (@relisted_of_not_lists surface _ alone (· ++ [name]) :)
  unfold Container.extended at *
  dsimp only
  rw [List.map_append, List.map_singleton, last]
  rfl

theorem Arranged.place (arranged : surface.Arranged) {name : Text}
    (free : surface.container.site? name = none) (valid : Naming.isValid name = true)
    (component : Component) : (surface.place name component).Arranged := by
  have names := names_place surface name component
  have shape := arranged.place_eq_map free component
  have root := root?_place surface name component
  have listing : ∀ site, (surface.place name component).lists site = surface.lists site := by
    intro site
    unfold lists isRoot
    rw [root]
  refine ⟨distinct_place arranged.distinct free component, ?_, ?_, ?_⟩
  · intro other member
    rw [names] at member
    rcases List.mem_append.mp member with former | last
    · exact arranged.valid other former
    · rw [List.mem_singleton.mp last]
      exact valid
  · intro root' rooted
    rw [root] at rooted
    rw [names]
    exact List.mem_append_left _ (arranged.rooted root' rooted)
  · intro site member lists
    rw [listing] at lists
    rw [names]
    rw [shape] at member
    rcases List.mem_append.mp member with former | last
    · obtain ⟨site, sited, rfl⟩ := List.mem_map.mp former
      refine listed_relisted (fun lists => ?_) lists
      intro child listed
      rcases List.mem_append.mp listed with before | new
      · exact List.mem_append_left _ (arranged.listed site sited lists before)
      · exact List.mem_append_right _ new
    · rw [List.mem_singleton.mp last] at lists
      unfold Surface.lists at lists
      rw [arranged.isRoot_of_free free, Bool.false_and] at lists
      cases lists

namespace Orderly

theorem isRoot_of_free (orderly : surface.Orderly) {name : Text}
    (free : surface.container.site? name = none) : surface.isRoot name = false :=
  orderly.arranged.isRoot_of_free free

theorem withSelection (orderly : surface.Orderly) (selection : Selection) :
    { surface with selection }.Orderly :=
  (orderly.arranged.withSelection selection).orderly orderly.regular

theorem place (orderly : surface.Orderly) {name : Text}
    (free : surface.container.site? name = none) (valid : Naming.isValid name = true)
    {component : Component} (regular : component.Regular) :
    (surface.place name component).Orderly := by
  refine (orderly.arranged.place free valid component).orderly fun site member => ?_
  rw [orderly.arranged.place_eq_map free component] at member
  rcases List.mem_append.mp member with former | last
  · obtain ⟨site, sited, rfl⟩ := List.mem_map.mp former
    exact regular_relisted (orderly.regular site sited) _
  · rw [List.mem_singleton.mp last]
    exact regular

end Orderly

end Siting

/-! ## Changing a component -/

section Changing

variable {surface : Surface}

/-- A component may be changed as long as its type and its list of controls stay. -/
theorem Arranged.update (arranged : surface.Arranged) {name : Text}
    {change : Component → Component}
    (changes : ∀ site ∈ surface.container.sites, site.name.sameName name = true →
      (change site.component).controlType = site.component.controlType ∧
        (change site.component).children = site.component.children) :
    { surface with container := surface.container.update name change }.Arranged := by
  have shape := Container.update_eq_map arranged.distinct name change
  refine ⟨arranged.distinct.update name change, ?_, ?_, ?_⟩
  · rw [Container.names_update]
    exact arranged.valid
  · rw [Container.names_update]
    exact arranged.rooted
  · rw [Container.names_update]
    intro site member lists
    dsimp only at member
    rw [shape] at member
    obtain ⟨former, sited, rfl⟩ := List.mem_map.mp member
    by_cases same : former.name.sameName name = true
    · obtain ⟨type, children⟩ := changes former sited same
      simp only [same, if_true] at lists ⊢
      rw [children]
      refine arranged.listed former sited ?_
      unfold Surface.lists Component.isPage at lists ⊢
      rw [type] at lists
      exact lists
    · rw [if_neg same] at lists ⊢
      exact arranged.listed former sited lists

/-- With distinct names, only one component has a name. -/
theorem component_of_get? (distinct : surface.container.Distinct) {name : Text}
    {component : Component} (found : surface.container.get? name = some component) {site : Site}
    (member : site ∈ surface.container.sites) (same : site.name.sameName name = true) :
    site.component = component := by
  have there : surface.container.get? name = some site.component := by
    unfold Container.get?
    rw [Container.site?_of_mem distinct member same]
    rfl
  rw [there] at found
  exact Option.some.inj found

/-- The component with a name may be replaced by one of the same type and with the same list. -/
theorem Arranged.replace (arranged : surface.Arranged) {name : Text}
    {component changed : Component} (found : surface.container.get? name = some component)
    (type : changed.controlType = component.controlType)
    (children : changed.children = component.children) :
    { surface with container := surface.container.update name fun _ => changed }.Arranged := by
  refine arranged.update fun site member same => ?_
  rw [component_of_get? arranged.distinct found member same]
  exact ⟨type, children⟩

namespace Orderly

/-- The component with a name may be replaced by another version of it. -/
theorem replace (orderly : surface.Orderly) {name : Text} {component changed : Component}
    (found : surface.container.get? name = some component) (version : component.Version changed) :
    { surface with container := surface.container.update name fun _ => changed }.Orderly := by
  refine (orderly.arranged.replace found version.type_eq version.children_eq).orderly ?_
  intro site member
  dsimp only at member
  rw [Container.update_eq_map orderly.distinct] at member
  obtain ⟨former, sited, rfl⟩ := List.mem_map.mp member
  split
  · exact version.regular
  · exact orderly.regular former sited

/-- The component with a name is regular. -/
theorem regular_of_get? (orderly : surface.Orderly) {name : Text} {component : Component}
    (found : surface.container.get? name = some component) : component.Regular := by
  obtain ⟨site, there, rfl⟩ := Option.map_eq_some_iff.mp found
  exact orderly.regular site (Container.mem_of_site? there)

end Orderly

end Changing

/-! ## Destroying -/

theorem withoutControl_eq_filter (surface : Surface) (distinct : surface.container.Distinct)
    (name : Text) :
    surface.withoutControl name =
      { surface with
        selection := surface.selection.without name
        container := ⟨(surface.container.sites.map
          (surface.relisted (·.filter fun child => !child.sameName name))).filter
            fun site => !site.name.sameName name⟩ } := by
  unfold withoutControl
  dsimp only
  rw [Container.without_eq_filter (distinct_detached distinct _ _),
    updateChildren_eq_map { surface with selection := surface.selection.without name } distinct]
  rfl

theorem names_withoutControl {surface : Surface} (distinct : surface.container.Distinct)
    (name : Text) :
    (surface.withoutControl name).container.names =
      surface.container.names.filter fun other => !other.sameName name := by
  rw [withoutControl_eq_filter surface distinct]
  unfold Container.names
  dsimp only
  rw [List.filter_map, List.filter_map, List.map_map]
  have named : (·.name) ∘ surface.relisted (·.filter fun child => !child.sameName name) =
      Site.name := funext fun site => name_relisted _ _ _
  rw [named]
  refine congrArg (List.map Site.name) (List.filter_congr fun site _ => ?_)
  simp only [Function.comp, name_relisted]

theorem Arranged.withoutControl {surface : Surface} (arranged : surface.Arranged) {name : Text}
    (notRoot : surface.isRoot name = false) : (surface.withoutControl name).Arranged := by
  have shape := withoutControl_eq_filter surface arranged.distinct name
  have names : ∀ other ∈ surface.container.names, other.sameName name = false →
      other ∈ (surface.withoutControl name).container.names := by
    intro other member differs
    rw [names_withoutControl arranged.distinct]
    exact List.mem_filter.mpr ⟨member, by rw [differs]; rfl⟩
  have root := root?_withoutControl surface name
  refine ⟨distinct_withoutControl arranged.distinct name, ?_, ?_, ?_⟩
  · intro other member
    exact arranged.valid other (mem_names_withoutControl member)
  · intro root' rooted
    rw [root] at rooted
    refine names root' (arranged.rooted root' rooted) ?_
    unfold isRoot at notRoot
    rw [rooted] at notRoot
    exact notRoot
  · intro site member lists
    have lists' : surface.lists site = true := by
      unfold Surface.lists isRoot at lists ⊢
      rw [root] at lists
      exact lists
    rw [shape] at member
    obtain ⟨former, sited, rfl⟩ := List.mem_map.mp (List.mem_filter.mp member).1
    refine listed_relisted (fun lists => ?_) lists'
    intro child listed
    obtain ⟨listed', differs⟩ := List.mem_filter.mp listed
    exact names child (arranged.listed former sited lists listed') (by simpa using differs)

/-- Destroying takes out a control, or the root itself. -/
theorem destroy?_cases {surface after : Surface} {name stored : Text}
    (done : surface.destroy? name = some (stored, after)) :
    ∃ site, surface.container.site? name = some site ∧ stored = site.name ∧
      ((surface.isRoot stored = false ∧ after = surface.withoutControl stored) ∨
        (surface.isRoot stored = true ∧
          after = ⟨surface.container.without stored, none, surface.selection.without stored⟩)) := by
  by_cases root : surface.isRoot name = true
  · unfold destroy? at done
    split at done
    · cases done
    next found =>
    obtain ⟨site, there, rfl⟩ := Option.map_eq_some_iff.mp found
    have same := Container.sameName_of_site? there
    have rooted : surface.isRoot site.name = true := by rw [isRoot_congr same, root]
    unfold detach at done
    rw [if_pos (by rw [isRoot_selection]; exact rooted)] at done
    dsimp only at done
    rw [Container.remove?_eq, Option.map_map] at done
    obtain ⟨_, _, outcome⟩ := Option.map_eq_some_iff.mp done
    obtain ⟨rfl, rfl⟩ := Prod.mk.inj outcome
    exact ⟨site, there, rfl, .inr ⟨rooted, rfl⟩⟩
  · have notRoot : surface.isRoot name = false := by simpa using root
    rw [destroy?_eq notRoot] at done
    obtain ⟨site, there, outcome⟩ := Option.map_eq_some_iff.mp done
    obtain ⟨rfl, rfl⟩ := Prod.mk.inj outcome
    refine ⟨site, there, rfl, .inl ⟨?_, rfl⟩⟩
    rw [isRoot_congr (Container.sameName_of_site? there), notRoot]

/-- What is left without its root is arranged as well. -/
theorem Arranged.withoutRoot {surface : Surface} (arranged : surface.Arranged) (name : Text)
    (selection : Selection) :
    (Surface.mk (surface.container.without name) none selection).Arranged :=
  ⟨arranged.distinct.without name,
    fun other member => arranged.valid other (Container.mem_names_without member),
    fun _ rooted => (nomatch rooted), fun _ _ lists => nomatch lists⟩

theorem Arranged.destroy? {surface after : Surface} (arranged : surface.Arranged)
    {name stored : Text} (done : surface.destroy? name = some (stored, after)) :
    after.Arranged := by
  obtain ⟨site, _, _, ⟨notRoot, rfl⟩ | ⟨_, rfl⟩⟩ := destroy?_cases done
  · exact arranged.withoutControl notRoot
  · exact arranged.withoutRoot _ _

theorem Orderly.destroy? {surface after : Surface} (orderly : surface.Orderly)
    {name stored : Text} (done : surface.destroy? name = some (stored, after)) :
    after.Orderly := by
  refine (orderly.arranged.destroy? done).orderly fun site member => ?_
  obtain ⟨_, _, _, ⟨_, rfl⟩ | ⟨_, rfl⟩⟩ := destroy?_cases done
  · rw [withoutControl_eq_filter surface orderly.distinct] at member
    obtain ⟨former, sited, rfl⟩ := List.mem_map.mp (List.mem_filter.mp member).1
    exact regular_relisted (orderly.regular former sited) _
  · exact orderly.regular site (List.eraseP_sublist.subset member)

end Surface

end PageDesigner
