import Mathlib.Data.List.Induction
import PageDesigner.Proofs.Surface.Turning

/-!
# Consistent surfaces

The names of the components, the list of the root page, the name of the root and the
selection are kept apart, and no operation looks at all of them.  On a consistent surface
they fit together (`Surface.Consistent`): names are distinct identifiers, the root page
lists all others in the order of siting, and what is selected is sited.  Every turn keeps a
surface consistent (`Surface.Consistent.turned`).
-/

namespace PageDesigner

/-! ## Selections -/

namespace Selection

/-- The selected names are among the given ones and none of them is repeated, and the primary one
is among the selected ones if there are any. -/
structure Fits (selection : Selection) (names : List Text) : Prop where
  known : selection.names ⊆ names
  unrepeated : selection.names.Nodup
  primary : ∀ name, selection.primary? = some name → name ∈ selection.names
  empty_iff : selection.primary? = none ↔ selection.names = []

variable {selection : Selection} {names names' : List Text}

theorem fits_empty (names : List Text) : empty.Fits names :=
  ⟨List.nil_subset names, List.nodup_nil, nofun, iff_of_true rfl rfl⟩

theorem Fits.mono (fits : selection.Fits names) (known : selection.names ⊆ names') :
    selection.Fits names' :=
  ⟨known, fits.unrepeated, fits.primary, fits.empty_iff⟩

theorem distinct_snoc (names : List Text) (name : Text) :
    distinct (names ++ [name]) =
      if Naming.isTaken (distinct names) name then distinct names
      else distinct names ++ [name] := by
  unfold distinct
  rw [List.foldl_append]
  rfl

theorem distinct_subset (names : List Text) : distinct names ⊆ names := by
  induction names using List.reverseRecOn with
  | nil => exact List.nil_subset _
  | append_singleton former last ih =>
      rw [distinct_snoc]
      split
      · exact List.Subset.trans ih (List.subset_append_left _ _)
      · exact List.append_subset.mpr
          ⟨List.Subset.trans ih (List.subset_append_left _ _), List.subset_append_right _ _⟩

theorem nodup_distinct (names : List Text) : (distinct names).Nodup := by
  induction names using List.reverseRecOn with
  | nil => exact List.nodup_nil
  | append_singleton former last ih =>
      rw [distinct_snoc]
      split
      · exact ih
      next free =>
        refine List.nodup_append.mpr ⟨ih, List.nodup_singleton _, ?_⟩
        rintro name member _ here rfl
        rw [List.mem_singleton.mp here] at member
        exact free (Naming.isTaken_iff.mpr (List.mem_map_of_mem member))

/-- Names that are selected at once fit those that they are among. -/
theorem fits_ofNames (known : names ⊆ names') (primary : Nat) :
    (ofNames names primary).Fits names' := by
  refine ⟨List.Subset.trans (distinct_subset names) known, nodup_distinct names,
    fun name first => List.mem_of_getElem? first, ?_⟩
  unfold ofNames
  dsimp only
  rw [List.getElem?_eq_none_iff, ← List.length_eq_zero_iff]
  omega

/-- A selection from which a name is taken fits the other names. -/
theorem Fits.without (fits : selection.Fits names) (name : Text) :
    (selection.without name).Fits (names.filter fun other => !other.sameName name) := by
  unfold Selection.without
  split
  · refine fits_ofNames (fun other member => ?_) 0
    obtain ⟨selected, differs⟩ := List.mem_filter.mp member
    exact List.mem_filter.mpr ⟨fits.known selected, differs⟩
  next absent =>
    refine fits.mono fun other selected => List.mem_filter.mpr ⟨fits.known selected, ?_⟩
    rw [Bool.not_eq_true', Bool.eq_false_iff]
    exact fun same => absent (List.any_eq_true.mpr ⟨other, selected, same⟩)

/-- A selection in which a name is replaced fits the names in which it is replaced. -/
theorem Fits.rename (fits : selection.Fits names) {name newName : Text}
    (apart : ∀ first ∈ names, ∀ second ∈ names,
      Text.renamed name newName first = Text.renamed name newName second → first = second) :
    (selection.rename name newName).Fits (names.map (Text.renamed name newName)) := by
  refine ⟨List.map_subset _ fits.known, ?_, ?_, ?_⟩
  · exact fits.unrepeated.map_on fun first selected second selected' =>
      apart first (fits.known selected) second (fits.known selected')
  · intro other first
    obtain ⟨former, primary, rfl⟩ := Option.map_eq_some_iff.mp first
    exact List.mem_map_of_mem (fits.primary former primary)
  · unfold Selection.rename
    dsimp only
    rw [Option.map_eq_none_iff, List.map_eq_nil_iff]
    exact fits.empty_iff

end Selection

/-! ## Surfaces -/

namespace Surface

/--
Everything that stands for the components of a surface fits together.  The type of the root is
given; only a page keeps a list.
-/
structure Consistent (page : ControlType) (surface : Surface) : Prop where
  valid : ∀ name ∈ surface.container.names, Naming.isValid name = true
  distinct : surface.container.Distinct
  rooted : ∀ root, surface.root? = some root → ∃ component,
    ⟨root, component⟩ ∈ surface.container.sites ∧ component.controlType = page ∧
      (component.isPage = true → component.children = surface.container.names.filter (· ≠ root))
  selected : surface.selection.Fits surface.container.names

variable {registry : Registry} {page : ControlType} {surface after : Surface} {name root : Text}

theorem isRoot_of_root? (rooted : surface.root? = some root) (name : Text) :
    surface.isRoot name = root.sameName name := by
  unfold isRoot
  rw [rooted]
  rfl

/-- What is sited under the name of the root is the root. -/
theorem eq_root (distinct : surface.container.Distinct) (rooted : surface.root? = some root)
    {component : Component} (sited : ⟨root, component⟩ ∈ surface.container.sites) {site : Site}
    (member : site ∈ surface.container.sites) (isRoot : surface.isRoot site.name = true) :
    site = ⟨root, component⟩ := by
  rw [isRoot_of_root? rooted, Text.sameName_comm] at isRoot
  exact Container.eq_of_sameName distinct member sited isRoot

/-- Names that differ up to letter case are not equal. -/
theorem ne_of_sameName {first second : Text} (differs : first.sameName second = false) :
    first ≠ second := by
  rintro rfl
  rw [Text.sameName_refl] at differs
  cases differs

/-- The root page, with its list changed if it has one. -/
theorem relisted_root (rooted : surface.root? = some root) (component : Component)
    (change : List Text → List Text) :
    ∃ component', surface.relisted change ⟨root, component⟩ = ⟨root, component'⟩ ∧
      component'.controlType = component.controlType ∧
      (component'.isPage = true →
        component.isPage = true ∧ component'.children = change component.children) := by
  have itself : surface.isRoot root = true := by
    rw [isRoot_of_root? rooted, Text.sameName_refl]
  by_cases isPage : component.isPage = true
  · have lists : surface.lists ⟨root, component⟩ = true :=
      Bool.and_eq_true_iff.mpr ⟨itself, isPage⟩
    exact ⟨_, relisted_of_lists lists change, rfl, fun _ => ⟨isPage, rfl⟩⟩
  · have silent : surface.lists ⟨root, component⟩ = false := by
      unfold lists
      rw [itself, Bool.true_and]
      exact Bool.eq_false_iff.mpr isPage
    exact ⟨_, relisted_of_not_lists silent change, rfl, fun isPage' => absurd isPage' isPage⟩

theorem names_relabelled (surface : Surface) (previous newName : Text) :
    (surface.relabelled previous newName).container.names =
      surface.container.names.map (Text.renamed previous newName) := by
  unfold relabelled Container.names
  dsimp only
  rw [List.map_map, List.map_map]
  exact List.map_congr_left fun site _ => name_relabelledSite surface previous newName site

/-- Names stay different when one of them is replaced by a name that is free for it. -/
theorem renamed_injective (distinct : surface.container.Distinct) {site : Site}
    (sited : site ∈ surface.container.sites) {newName : Text}
    (free : surface.container.FreeFor newName site) {first second : Text}
    (named : first ∈ surface.container.names) (named' : second ∈ surface.container.names)
    (same : Text.renamed site.name newName first = Text.renamed site.name newName second) :
    first = second := by
  obtain ⟨one, member, rfl⟩ := List.mem_map.mp named
  obtain ⟨other, member', rfl⟩ := List.mem_map.mp named'
  unfold Text.renamed at same
  split at same
  next here =>
    obtain rfl := Container.eq_of_sameName distinct member sited here
    split at same
    next there => rw [Container.eq_of_sameName distinct member' sited there]
    · rw [free other member' (by rw [← same]; exact Text.sameName_refl _)]
  next elsewhere =>
    split at same
    · rw [free one member (by rw [same]; exact Text.sameName_refl _)] at elsewhere
      exact absurd (Text.sameName_refl _) elsewhere
    · exact same

/-- The names that are known are those of components. -/
theorem known_subset (surface : Surface) (names : List Text) :
    surface.known names ⊆ surface.container.names := by
  intro name member
  obtain ⟨_, _, found⟩ := List.mem_filterMap.mp member
  obtain ⟨site, there, rfl⟩ := Option.map_eq_some_iff.mp found
  exact List.mem_map_of_mem (Container.mem_of_site? there)

namespace Consistent

theorem arranged (consistent : surface.Consistent page) : surface.Arranged := by
  refine ⟨consistent.distinct, consistent.valid, fun root rooted => ?_,
    fun site member lists => ?_⟩
  · obtain ⟨component, sited, -⟩ := consistent.rooted root rooted
    exact List.mem_map_of_mem sited
  · obtain ⟨isRoot, isPage⟩ := Bool.and_eq_true_iff.mp lists
    cases rooted : surface.root? with
    | none =>
        unfold Surface.isRoot at isRoot
        rw [rooted] at isRoot
        cases isRoot
    | some root =>
        obtain ⟨component, sited, -, children⟩ := consistent.rooted root rooted
        obtain rfl := eq_root consistent.distinct rooted sited member isRoot
        rw [children isPage]
        exact List.filter_subset_self _

theorem place (consistent : surface.Consistent page) (free : surface.container.site? name = none)
    (valid : Naming.isValid name = true) (component : Component) :
    (surface.place name component).Consistent page := by
  have arranged := consistent.arranged.place free valid component
  have shape := consistent.arranged.place_eq_map free component
  have selection : (surface.place name component).selection = surface.selection := by rw [shape]
  refine ⟨arranged.valid, arranged.distinct, fun root rooted => ?_, ?_⟩
  · rw [root?_place] at rooted
    obtain ⟨page, sited, type, children⟩ := consistent.rooted root rooted
    obtain ⟨page', relisted, type', children'⟩ :=
      relisted_root rooted page (· ++ [name])
    refine ⟨page', ?_, type'.trans type, fun isPage => ?_⟩
    · rw [shape, ← relisted]
      exact List.mem_append_left _ (List.mem_map_of_mem sited)
    · obtain ⟨isPage, listed⟩ := children' isPage
      have apart := consistent.arranged.isRoot_of_free free
      rw [isRoot_of_root? rooted] at apart
      rw [listed, children isPage, names_place, List.filter_append, List.filter_singleton,
        decide_eq_true (ne_of_sameName apart).symm]
      rfl
  · rw [selection, names_place]
    exact consistent.selected.mono
      (List.Subset.trans consistent.selected.known (List.subset_append_left _ _))

theorem replace (consistent : surface.Consistent page) {component changed : Component}
    (found : surface.container.get? name = some component)
    (type : changed.controlType = component.controlType)
    (children : changed.children = component.children) :
    { surface with container := surface.container.update name fun _ => changed }.Consistent
      page := by
  have arranged := consistent.arranged.replace found type children
  refine ⟨arranged.valid, arranged.distinct, fun root rooted => ?_, ?_⟩
  · obtain ⟨former, sited, type', children'⟩ := consistent.rooted root rooted
    rw [Container.names_update]
    dsimp only
    rw [Container.update_eq_map consistent.distinct]
    by_cases same : root.sameName name = true
    · obtain rfl := component_of_get? consistent.distinct found sited same
      refine ⟨changed, List.mem_map.mpr ⟨_, sited, if_pos same⟩, type.trans type', ?_⟩
      unfold Component.isPage at children' ⊢
      rw [type, children]
      exact children'
    · exact ⟨former, List.mem_map.mpr ⟨_, sited, if_neg same⟩, type', children'⟩
  · rw [Container.names_update]
    exact consistent.selected

theorem withoutControl (consistent : surface.Consistent page)
    (notRoot : surface.isRoot name = false) : (surface.withoutControl name).Consistent page := by
  have arranged := consistent.arranged.withoutControl notRoot
  have names := names_withoutControl consistent.distinct name
  have shape := withoutControl_eq_filter surface consistent.distinct name
  have selection : (surface.withoutControl name).selection = surface.selection.without name := by
    rw [shape]
  refine ⟨arranged.valid, arranged.distinct, fun root rooted => ?_, ?_⟩
  · rw [root?_withoutControl] at rooted
    obtain ⟨page, sited, type, children⟩ := consistent.rooted root rooted
    obtain ⟨page', relisted, type', children'⟩ :=
      relisted_root rooted page (·.filter fun child => !child.sameName name)
    rw [isRoot_of_root? rooted] at notRoot
    refine ⟨page', ?_, type'.trans type, fun isPage => ?_⟩
    · rw [shape, ← relisted]
      refine List.mem_filter.mpr ⟨List.mem_map_of_mem sited, ?_⟩
      rw [name_relisted, notRoot]
      rfl
    · obtain ⟨isPage, listed⟩ := children' isPage
      rw [listed, children isPage, names, List.filter_filter, List.filter_filter]
      simp only [Bool.and_comm]
  · rw [selection, names]
    exact consistent.selected.without name

theorem destroy? (consistent : surface.Consistent page) {stored : Text}
    (done : surface.destroy? name = some (stored, after)) : after.Consistent page := by
  obtain ⟨site, -, -, ⟨notRoot, rfl⟩ | ⟨-, rfl⟩⟩ := destroy?_cases done
  · exact consistent.withoutControl notRoot
  · have arranged := consistent.arranged.withoutRoot stored (surface.selection.without stored)
    refine ⟨arranged.valid, arranged.distinct, nofun, ?_⟩
    have names : (surface.container.without stored).names =
        surface.container.names.filter fun other => !other.sameName stored := by
      rw [Container.without_eq_filter consistent.distinct]
      unfold Container.names
      rw [List.filter_map]
      rfl
    rw [names]
    exact consistent.selected.without stored

/-- A component is renamed, and the selection follows it. -/
theorem rename (consistent : surface.Consistent page) {newName previous : Text}
    (done : surface.rename name newName = .ok (previous, after)) :
    { after with selection := after.selection.rename previous newName }.Consistent page := by
  have arranged := consistent.arranged.rename done
  obtain ⟨site, sited, rfl, notRoot, -, free, rfl⟩ := rename_inv consistent.distinct done
  have apart := consistent.arranged.isRoot_newName sited notRoot free
  refine ⟨arranged.valid, arranged.distinct, fun root rooted => ?_, ?_⟩
  · have rooted : surface.root? = some root := rooted
    rw [isRoot_of_root? rooted] at notRoot apart
    have stays : Text.renamed site.name newName root = root :=
      if_neg (by rw [notRoot]; exact Bool.false_ne_true)
    obtain ⟨page, sited', type, children⟩ := consistent.rooted root rooted
    obtain ⟨page', relisted, type', children'⟩ :=
      relisted_root rooted page (List.map (Text.renamed site.name newName))
    refine ⟨page', List.mem_map.mpr ⟨_, sited', ?_⟩, type'.trans type, fun isPage => ?_⟩
    · unfold relabelledSite
      rw [stays]
      exact relisted
    · obtain ⟨isPage, listed⟩ := children' isPage
      rw [listed, children isPage]
      dsimp only
      rw [names_relabelled, List.filter_map]
      refine congrArg _ (List.filter_congr fun other named => decide_eq_decide.mpr ?_)
      refine not_congr ⟨fun same => by rw [same, stays], fun same => ?_⟩
      by_cases here : other.sameName site.name = true
      · rw [Text.renamed, if_pos here] at same
        exact absurd same.symm (ne_of_sameName apart)
      · rw [Text.renamed, if_neg here] at same
        exact same
  · dsimp only
    rw [names_relabelled]
    exact consistent.selected.rename fun first named second named' =>
      renamed_injective consistent.distinct sited free named named'

theorem select (consistent : surface.Consistent page) (names : List Text) (primary : Nat) :
    (surface.select (surface.known names) primary).Consistent page :=
  ⟨consistent.valid, consistent.distinct, consistent.rooted,
    Selection.fits_ofNames (known_subset surface names) primary⟩

/-- Every turn keeps a surface consistent. -/
theorem turned (consistent : surface.Consistent page) (turn : surface.Turn registry after) :
    after.Consistent page := by
  cases turn with
  | sited _ _ free valid => exact consistent.place free valid _
  | altered found alters => exact consistent.replace found alters.frame.1 alters.frame.2
  | destroyed done => exact consistent.destroy? done
  | renamed done => exact consistent.rename done
  | selected names primary => exact consistent.select names primary

end Consistent

theorem durable_consistent (registry : Registry) (page : ControlType) :
    Durable registry (Consistent page) :=
  ⟨fun _ consistent => consistent.arranged, fun _ _ consistent turn => consistent.turned turn⟩

end Surface

end PageDesigner
