import PageDesigner.Proofs.Surface.Alike
import PageDesigner.Proofs.Surface.Orderly

/-!
# Taking changes of a surface back

On an arranged surface a control that was sited and is destroyed again leaves no trace but
in the selection (`withoutControl_update_place`), and a component that was renamed and gets
its former name again leaves none at all (`rename_back`).
-/

namespace PageDesigner

namespace Surface

/-! ## Siting and destroying again -/

theorem Arranged.apart_of_free {surface : Surface} (arranged : surface.Arranged) {name : Text}
    (free : surface.container.site? name = none) :
    ∀ site ∈ surface.container.sites, site.name.sameName name = false := by
  intro site member
  rw [Bool.eq_false_iff]
  intro same
  rw [Container.site?_of_mem arranged.distinct member same] at free
  cases free

/-- A control that was sited and changed stands behind the others, and the root lists it. -/
theorem Arranged.update_place {surface : Surface} (arranged : surface.Arranged) {name : Text}
    (free : surface.container.site? name = none) (component : Component)
    (change : Component → Component) :
    (surface.place name component).container.update name change =
      ⟨surface.container.sites.map (surface.relisted (· ++ [name])) ++
        [⟨name, change component⟩]⟩ := by
  rw [Container.update_eq_map (distinct_place arranged.distinct free component),
    arranged.place_eq_map free component, List.map_append, List.map_singleton,
    if_pos (Text.sameName_refl name)]
  refine congrArg (fun sites => Container.mk (sites ++ _)) ?_
  refine (List.map_congr_left fun site member => ?_).trans (List.map_id _)
  obtain ⟨former, sited, rfl⟩ := List.mem_map.mp member
  rw [name_relisted, arranged.apart_of_free free former sited, if_neg Bool.false_ne_true]
  rfl

/-- A control that was sited, changed and destroyed again only loses its place in the selection. -/
theorem Arranged.withoutControl_update_place {surface : Surface} (arranged : surface.Arranged)
    {name : Text} (free : surface.container.site? name = none) (component : Component)
    (change : Component → Component) :
    ({ surface.place name component with
        container := (surface.place name component).container.update name change
      } : Surface).withoutControl name =
      { surface with selection := surface.selection.without name } := by
  have distinct := distinct_place arranged.distinct free component
  have shape := arranged.place_eq_map free component
  have alone : surface.lists ⟨name, change component⟩ = false := by
    unfold lists
    rw [arranged.isRoot_of_free free, Bool.false_and]
  have apart := arranged.apart_of_free free
  have updated := arranged.update_place free component change
  have distinct' := distinct.update name change
  rw [updated] at distinct' ⊢
  rw [shape]
  rw [withoutControl_eq_filter { surface with
    container := ⟨surface.container.sites.map (surface.relisted (· ++ [name])) ++
      [Site.mk name (change component)]⟩ } distinct']
  have back : ∀ site ∈ surface.container.sites,
      surface.relisted (·.filter fun child => !child.sameName name)
        (surface.relisted (· ++ [name]) site) = site := by
    intro site member
    by_cases lists : surface.lists site = true
    · have kept : site.component.children.filter (fun child => !child.sameName name) =
          site.component.children := by
        refine List.filter_eq_self.mpr fun child listed => ?_
        rw [arranged.child_not_free free member lists listed]
        rfl
      have again : surface.lists (surface.relisted (· ++ [name]) site) = true := by
        rw [lists_relisted, lists]
      rw [relisted_of_lists again, relisted_of_lists lists]
      simp only [List.filter_append, kept, List.filter_singleton, Text.sameName_refl]
      simp
    · have silent : surface.lists site = false := by simpa using lists
      rw [relisted_of_not_lists silent, relisted_of_not_lists silent]
  have last : surface.relisted (·.filter fun child => !child.sameName name)
      ⟨name, change component⟩ = ⟨name, change component⟩ := relisted_of_not_lists alone _
  have former : (surface.container.sites.map (surface.relisted (· ++ [name]))).map
      (surface.relisted (·.filter fun child => !child.sameName name)) =
      surface.container.sites := by
    rw [List.map_map]
    exact (List.map_congr_left back).trans (List.map_id _)
  have kept : surface.container.sites.filter (fun site => !site.name.sameName name) =
      surface.container.sites := by
    refine List.filter_eq_self.mpr fun site member => ?_
    rw [apart site member]
    rfl
  have sites : ((surface.container.sites.map (surface.relisted (· ++ [name])) ++
      [Site.mk name (change component)]).map
        (surface.relisted (·.filter fun child => !child.sameName name))).filter
          (fun site => !site.name.sameName name) = surface.container.sites := by
    rw [List.map_append, former, List.map_singleton, last, List.filter_append, kept,
      List.filter_singleton, Text.sameName_refl]
    exact List.append_nil _
  exact congrArg
    (fun sites : List Site =>
      Surface.mk ⟨sites⟩ surface.root? (surface.selection.without name)) sites

/-! ## Renaming and renaming back -/

/-- The site under another name, with the list of controls changed if it is the root page. -/
def relabelledSite (surface : Surface) (previous newName : Text) (site : Site) : Site :=
  surface.relisted (List.map (Text.renamed previous newName))
    { site with name := Text.renamed previous newName site.name }

/-- The surface with a component under another name. -/
def relabelled (surface : Surface) (previous newName : Text) : Surface :=
  { surface with
    container := ⟨surface.container.sites.map (surface.relabelledSite previous newName)⟩ }

theorem renamed_congr {name name' : Text} (same : name.sameName name' = true) (newName : Text) :
    Text.renamed name newName = Text.renamed name' newName := by
  funext text
  unfold Text.renamed Text.sameName
  rw [Text.sameName_iff.mp same]

/-- A renamed site is of the new name, all others keep their name. -/
theorem name_relabelledSite (surface : Surface) (previous newName : Text) (site : Site) :
    (surface.relabelledSite previous newName site).name =
      Text.renamed previous newName site.name := name_relisted _ _ _

theorem rename_inv {surface after : Surface} (distinct : surface.container.Distinct)
    {name newName previous : Text}
    (done : surface.rename name newName = .ok (previous, after)) :
    ∃ site ∈ surface.container.sites, previous = site.name ∧ surface.isRoot previous = false ∧
      Naming.isValid newName = true ∧ surface.container.FreeFor newName site ∧
      after = surface.relabelled previous newName := by
  unfold rename at done
  split at done
  · cases done
  next notRoot =>
  split at done
  · cases done
  next stored container renamed =>
  obtain ⟨rfl, rfl⟩ := Prod.mk.inj (Except.ok.inj done)
  have distinct' := distinct.rename renamed
  obtain ⟨site, found, rfl, valid, free, rfl⟩ := Container.rename_inv distinct renamed
  have same := Container.sameName_of_site? found
  refine ⟨site, Container.mem_of_site? found, rfl, ?_, valid, free, ?_⟩
  · rw [isRoot_congr same]
    simpa using notRoot
  · rw [updateChildren_eq_map { surface with
      container := surface.container.relabelled name newName } distinct']
    unfold Container.relabelled relabelled
    dsimp only
    rw [List.map_map, ← renamed_congr same]
    rfl

theorem rename_eq {surface : Surface} (distinct : surface.container.Distinct) {newName : Text}
    {site : Site} (member : site ∈ surface.container.sites)
    (notRoot : surface.isRoot site.name = false) (valid : Naming.isValid newName = true)
    (free : surface.container.FreeFor newName site) :
    surface.rename site.name newName =
      .ok (site.name, surface.relabelled site.name newName) := by
  have found := Container.site?_of_mem distinct member (Text.sameName_refl site.name)
  have renamed := Container.rename_eq distinct found valid free
  have distinct' := distinct.rename renamed
  unfold rename
  simp only [notRoot, Bool.false_eq_true, if_false, renamed]
  rw [updateChildren_eq_map { surface with
    container := surface.container.relabelled site.name newName } distinct']
  unfold Container.relabelled relabelled
  dsimp only
  rw [List.map_map]
  rfl

namespace Arranged

variable {surface : Surface} {site : Site} {newName : Text}

/-- The new name of a control is not that of the root. -/
theorem isRoot_newName (arranged : surface.Arranged) (member : site ∈ surface.container.sites)
    (notRoot : surface.isRoot site.name = false)
    (free : surface.container.FreeFor newName site) : surface.isRoot newName = false := by
  unfold isRoot
  cases rooted : surface.root? with
  | none => rfl
  | some root =>
      rw [Option.any_some, Bool.eq_false_iff]
      intro same
      obtain ⟨other, sited, rfl⟩ := List.mem_map.mp (arranged.rooted root rooted)
      obtain rfl := free other sited same
      unfold isRoot at notRoot
      rw [rooted, Option.any_some, Text.sameName_refl] at notRoot
      cases notRoot

theorem mem_names_relabelled (previous newName : Text) {name : Text}
    (member : name ∈ surface.container.names) :
    Text.renamed previous newName name ∈ (surface.relabelled previous newName).container.names := by
  obtain ⟨other, sited, rfl⟩ := List.mem_map.mp member
  exact List.mem_map.mpr ⟨_, List.mem_map_of_mem sited, name_relabelledSite _ _ _ _⟩

/-- A renamed component leaves the surface arranged. -/
theorem rename (arranged : surface.Arranged) {name previous : Text} {after : Surface}
    (done : surface.rename name newName = .ok (previous, after)) : after.Arranged := by
  have distinct := distinct_rename arranged.distinct done
  obtain ⟨site, sited, rfl, notRoot, valid, free, rfl⟩ := rename_inv arranged.distinct done
  have renamed_of_ne : ∀ other : Text, other.sameName site.name = false →
      Text.renamed site.name newName other = other := by
    intro other differs
    unfold Text.renamed
    rw [if_neg (by rw [differs]; exact Bool.false_ne_true)]
  refine ⟨distinct, ?_, ?_, ?_⟩
  · intro other member
    obtain ⟨_, changed, rfl⟩ := List.mem_map.mp member
    obtain ⟨former, sited', rfl⟩ := List.mem_map.mp changed
    rw [name_relabelledSite]
    unfold Text.renamed
    split
    · exact valid
    · exact arranged.valid _ (List.mem_map_of_mem sited')
  · intro root rooted
    have stays := mem_names_relabelled site.name newName (arranged.rooted root rooted)
    rw [renamed_of_ne] at stays
    · exact stays
    · have rooted' : surface.root? = some root := rooted
      unfold isRoot at notRoot
      rw [rooted'] at notRoot
      exact notRoot
  · intro changed member lists
    obtain ⟨former, sited', rfl⟩ := List.mem_map.mp member
    have within : surface.lists { former with
        name := Text.renamed site.name newName former.name } = true →
        former.component.children.map (Text.renamed site.name newName) ⊆
          (surface.relabelled site.name newName).container.names := by
      intro lists child listed
      obtain ⟨before, listed', rfl⟩ := List.mem_map.mp listed
      refine mem_names_relabelled _ _ (arranged.listed former sited' ?_ listed')
      unfold Surface.lists at lists ⊢
      by_cases same : former.name.sameName site.name = true
      · have now : Text.renamed site.name newName former.name = newName := if_pos same
        rw [now, arranged.isRoot_newName sited notRoot free, Bool.false_and] at lists
        cases lists
      · rw [renamed_of_ne _ (by simpa using same)] at lists
        exact lists
    exact listed_relisted within lists

/-- A component that gets its former name again leaves the surface as it was. -/
theorem relabelled_back (arranged : surface.Arranged) (member : site ∈ surface.container.sites)
    (notRoot : surface.isRoot site.name = false)
    (free : surface.container.FreeFor newName site) :
    (surface.relabelled site.name newName).relabelled newName site.name = surface := by
  have back : ∀ name ∈ surface.container.names,
      Text.renamed newName site.name (Text.renamed site.name newName name) = name := by
    intro name named
    obtain ⟨other, sited, rfl⟩ := List.mem_map.mp named
    by_cases same : other.name.sameName site.name = true
    · obtain rfl := Container.eq_of_sameName arranged.distinct sited member same
      rw [Text.renamed, if_pos (by rw [Text.renamed, if_pos same]; exact Text.sameName_refl _)]
    · rw [Text.renamed, Text.renamed, if_neg same, if_neg]
      intro taken
      obtain rfl := free other sited taken
      exact same (Text.sameName_refl _)
  have lists_renamed : ∀ other ∈ surface.container.sites,
      surface.lists { other with name := Text.renamed site.name newName other.name } =
        surface.lists other := by
    intro other sited
    unfold lists
    by_cases same : other.name.sameName site.name = true
    · rw [Text.renamed, if_pos same, arranged.isRoot_newName member notRoot free,
        isRoot_congr same, notRoot]
    · rw [Text.renamed, if_neg same]
  have sites : ∀ other ∈ surface.container.sites,
      surface.relabelledSite newName site.name
        (surface.relabelledSite site.name newName other) = other := by
    intro other sited
    have name := back other.name (List.mem_map_of_mem sited)
    have lists := lists_renamed other sited
    by_cases root : surface.lists other = true
    · have children : (other.component.children.map (Text.renamed site.name newName)).map
          (Text.renamed newName site.name) = other.component.children := by
        rw [List.map_map]
        refine (List.map_congr_left fun child listed => ?_).trans (List.map_id _)
        exact back child (arranged.listed other sited root listed)
      unfold relabelledSite
      rw [relisted_of_lists (lists.trans root)]
      dsimp only
      rw [name]
      refine (@relisted_of_lists surface { other with component := { other.component with
        children := other.component.children.map (Text.renamed site.name newName) } }
          root _).trans ?_
      rw [children]
    · have silent : surface.lists other = false := by simpa using root
      unfold relabelledSite
      rw [relisted_of_not_lists (lists.trans silent)]
      dsimp only
      rw [name]
      exact relisted_of_not_lists silent _
  unfold relabelled
  dsimp only
  rw [List.map_map]
  have all : surface.container.sites.map ((relabelledSite
      { surface with container := ⟨surface.container.sites.map
        (surface.relabelledSite site.name newName)⟩ } newName site.name) ∘
          surface.relabelledSite site.name newName) = surface.container.sites :=
    (List.map_congr_left sites).trans (List.map_id _)
  rw [all]

/-- A rename can be taken back: the component gets its former name again. -/
theorem rename_back (arranged : surface.Arranged) {name previous : Text} {after : Surface}
    (done : surface.rename name newName = .ok (previous, after)) :
    after.rename newName previous = .ok (newName, surface) := by
  have distinct := distinct_rename arranged.distinct done
  obtain ⟨site, sited, rfl, notRoot, _, free, rfl⟩ := rename_inv arranged.distinct done
  have named : (surface.relabelledSite site.name newName site).name = newName := by
    rw [name_relabelledSite, Text.renamed, if_pos (Text.sameName_refl _)]
  have free' : (surface.relabelled site.name newName).container.FreeFor site.name
      (surface.relabelledSite site.name newName site) := by
    intro other member same
    obtain ⟨former, sited', rfl⟩ := List.mem_map.mp member
    rw [name_relabelledSite] at same
    by_cases same' : former.name.sameName site.name = true
    · rw [Container.eq_of_sameName arranged.distinct sited' sited same']
    · rw [Text.renamed, if_neg same'] at same
      exact absurd same same'
  have again := @rename_eq (surface.relabelled site.name newName) distinct site.name _
    (List.mem_map_of_mem sited)
    (by rw [named]; exact arranged.isRoot_newName sited notRoot free)
    (arranged.valid _ (List.mem_map_of_mem sited)) free'
  rw [named] at again
  rw [again, arranged.relabelled_back sited notRoot free]

end Arranged

/-- A renamed component leaves the surface orderly. -/
theorem Orderly.rename {surface after : Surface} (orderly : surface.Orderly)
    {name newName previous : Text} (done : surface.rename name newName = .ok (previous, after)) :
    after.Orderly := by
  refine (orderly.arranged.rename done).orderly fun changed member => ?_
  obtain ⟨site, -, rfl, -, -, -, rfl⟩ := rename_inv orderly.distinct done
  obtain ⟨former, sited, rfl⟩ := List.mem_map.mp member
  exact @regular_relisted surface
    { former with name := Text.renamed site.name newName former.name }
    (orderly.regular former sited) _

end Surface

end PageDesigner
