import PageDesigner.Proofs.Surface.Siting

/-!
# Changes of a container, site by site

The operations of a container look for the first site with a name.  When names are
distinct it is the only one, so changing, renaming and removing a component are what
`map` and `filter` make of all sites.  This is how an operation is seen to take another
one back.
-/

namespace PageDesigner

namespace Container

theorem distinct_cons {site : Site} {rest : List Site} :
    Distinct ⟨site :: rest⟩ ↔
      (∀ other ∈ rest, site.name.sameName other.name = false) ∧ Distinct ⟨rest⟩ := by
  unfold Distinct names
  simp only [List.map_cons, List.nodup_cons, List.mem_map, not_exists, not_and]
  constructor
  · rintro ⟨absent, distinct⟩
    refine ⟨fun other member => ?_, distinct⟩
    rw [Bool.eq_false_iff]
    intro same
    exact absent other.name ⟨other, member, rfl⟩ (Text.sameName_iff.mp same).symm
  · rintro ⟨apart, distinct⟩
    refine ⟨?_, distinct⟩
    rintro _ ⟨other, member, rfl⟩ same
    have differs := apart other member
    rw [Text.sameName_iff.mpr same.symm] at differs
    cases differs

/-- A site of the same name differs from another site only if names are not distinct. -/
theorem eq_of_sameName {container : Container} (distinct : container.Distinct) {site other : Site}
    (member : site ∈ container.sites) (member' : other ∈ container.sites)
    (same : site.name.sameName other.name = true) : site = other := by
  have found := site?_of_mem distinct member same
  rw [site?_of_mem distinct member' (Text.sameName_refl _)] at found
  exact (Option.some.inj found).symm

/-- Changing the first site of a name is changing every site of the name. -/
theorem modify_eq_map {sites : List Site} (distinct : Distinct ⟨sites⟩) {name : Text}
    {index : Nat} (found : sites.findIdx? (·.name.sameName name) = some index)
    (change : Site → Site) :
    sites.modify index change =
      sites.map fun site => if site.name.sameName name then change site else site := by
  induction sites generalizing index with
  | nil => cases found
  | cons site rest ih =>
      obtain ⟨apart, distinct'⟩ := distinct_cons.mp distinct
      rw [List.findIdx?_cons] at found
      by_cases same : site.name.sameName name = true
      · rw [if_pos same] at found
        obtain rfl := Option.some.inj found
        have others : rest.map (fun other =>
            if other.name.sameName name then change other else other) = rest := by
          refine (List.map_congr_left fun other member => ?_).trans (List.map_id rest)
          refine if_neg fun same' => ?_
          have differs := apart other member
          rw [Text.sameName_iff.mpr ((Text.sameName_iff.mp same).trans
            (Text.sameName_iff.mp same').symm)] at differs
          cases differs
        rw [List.modify_zero_cons, List.map_cons, if_pos same, others]
      · rw [if_neg same] at found
        obtain ⟨index', found', rfl⟩ := Option.map_eq_some_iff.mp found
        rw [List.modify_succ_cons, List.map_cons, if_neg same, ih distinct' found']

theorem site?_of_position? {container : Container} {name : Text} {index : Nat}
    (found : container.position? name = some index) :
    container.site? name = container.sites[index]? := by
  unfold site? position? at *
  rw [List.find?_eq_bind_findIdx?_getElem?, found, Option.bind_some]

theorem position?_eq_none {container : Container} {name : Text} :
    container.position? name = none ↔ container.site? name = none := by
  unfold site? position?
  rw [List.findIdx?_eq_none_iff, List.find?_eq_none]
  simp

/-- A change of one component, as a change of every site of the name. -/
theorem update_eq_map {container : Container} (distinct : container.Distinct) (name : Text)
    (change : Component → Component) :
    container.update name change = ⟨container.sites.map fun site =>
      if site.name.sameName name then { site with component := change site.component }
      else site⟩ := by
  unfold update
  cases found : container.position? name with
  | some index => exact congrArg Container.mk (modify_eq_map distinct found _)
  | none =>
      refine congrArg Container.mk (Eq.symm ?_)
      refine (List.map_congr_left fun site member => ?_).trans (List.map_id container.sites)
      have differs := List.findIdx?_eq_none_iff.mp found site member
      rw [if_neg (by rw [differs]; exact Bool.false_ne_true)]
      rfl

/-- Removing a component, as dropping every site of the name. -/
theorem without_eq_filter {container : Container} (distinct : container.Distinct) (name : Text) :
    container.without name =
      ⟨container.sites.filter fun site => !site.name.sameName name⟩ := by
  obtain ⟨sites⟩ := container
  unfold without
  refine congrArg Container.mk ?_
  dsimp only
  induction sites with
  | nil => rfl
  | cons site rest ih =>
      obtain ⟨apart, distinct'⟩ := distinct_cons.mp distinct
      by_cases same : site.name.sameName name = true
      · have others : rest.filter (fun other => !other.name.sameName name) = rest := by
          refine List.filter_eq_self.mpr fun other member => ?_
          rw [Bool.not_eq_true', Bool.eq_false_iff]
          intro same'
          have differs := apart other member
          rw [Text.sameName_iff.mpr ((Text.sameName_iff.mp same).trans
            (Text.sameName_iff.mp same').symm)] at differs
          cases differs
        rw [List.eraseP_cons, same, cond_true, List.filter_cons_of_neg (by simp [same]), others]
      · have differs : site.name.sameName name = false := by simpa using same
        rw [List.eraseP_cons, differs, cond_false, List.filter_cons_of_pos (by simp [differs]),
          ih distinct']

/-- The container with a component under another name. -/
def relabelled (container : Container) (name newName : Text) : Container :=
  ⟨container.sites.map fun site => { site with name := Text.renamed name newName site.name }⟩

/-- Only the component that is renamed may have the new name already. -/
def FreeFor (container : Container) (newName : Text) (site : Site) : Prop :=
  ∀ other ∈ container.sites, other.name.sameName newName = true → other = site

theorem relabelled_eq {container : Container} (distinct : container.Distinct) {name : Text}
    {index : Nat} (found : container.position? name = some index) (newName : Text) :
    (⟨container.sites.modify index fun site => { site with name := newName }⟩ : Container) =
      container.relabelled name newName := by
  unfold relabelled Text.renamed
  rw [modify_eq_map distinct found]
  refine congrArg Container.mk (List.map_congr_left fun site _ => ?_)
  split <;> rfl

theorem freeFor_iff {container : Container} (distinct : container.Distinct) {newName : Text}
    {index : Nat} {site : Site} (there : container.sites[index]? = some site) :
    (container.position? newName).any (· != index) = false ↔ container.FreeFor newName site := by
  constructor
  · intro free other member same
    cases found : container.position? newName with
    | none =>
        have missing := List.findIdx?_eq_none_iff.mp found other member
        rw [same] at missing
        cases missing
    | some first =>
        rw [found] at free
        obtain rfl : first = index := by simpa using free
        have stands := site?_of_position? found
        rw [site?_of_mem distinct member same, there] at stands
        exact Option.some.inj stands
  · intro free
    cases found : container.position? newName with
    | none => rfl
    | some first =>
        have stands := site?_of_position? found
        obtain ⟨inside, same, _⟩ := List.findIdx?_eq_some_iff_getElem.mp found
        have equal := free _ (List.getElem_mem inside) same
        have once : (container.sites.map (·.name.lower)).Nodup := by
          have distinct' := distinct
          unfold Distinct names at distinct'
          rw [List.map_map] at distinct'
          exact distinct'
        have nodup : container.sites.Nodup := .of_map _ once
        have place : first = index := by
          obtain ⟨inside', there'⟩ := List.getElem?_eq_some_iff.mp there
          rw [← there'] at equal
          exact (nodup.getElem_inj_iff).mp equal
        simp [place]

/-- A component gets a new name that is valid and that no other component has. -/
theorem rename_eq {container : Container} (distinct : container.Distinct) {name newName : Text}
    {site : Site} (found : container.site? name = some site)
    (valid : Naming.isValid newName = true) (free : container.FreeFor newName site) :
    container.rename name newName = .ok (site.name, container.relabelled name newName) := by
  cases place : container.position? name with
  | none => rw [position?_eq_none.mp place] at found; cases found
  | some index =>
      have there := site?_of_position? place
      rw [found] at there
      unfold rename
      simp only [place, valid, Bool.not_true, Bool.false_eq_true, if_false,
        (freeFor_iff distinct there.symm).mpr free, ← there, Option.map_some, Option.getD_some]
      rw [relabelled_eq distinct place]

theorem rename_inv {container renamed : Container} (distinct : container.Distinct)
    {name newName previous : Text}
    (done : container.rename name newName = .ok (previous, renamed)) :
    ∃ site, container.site? name = some site ∧ previous = site.name ∧
      Naming.isValid newName = true ∧ container.FreeFor newName site ∧
      renamed = container.relabelled name newName := by
  have done' := done
  unfold rename at done
  split at done
  · cases done
  next index place =>
  split at done
  · cases done
  next valid =>
  split at done
  · cases done
  next free =>
  obtain ⟨inside, _⟩ := List.findIdx?_eq_some_iff_getElem.mp place
  have there := site?_of_position? place
  rw [List.getElem?_eq_getElem inside] at there
  have free' := (freeFor_iff distinct (List.getElem?_eq_getElem inside)).mp (by simpa using free)
  have valid' : Naming.isValid newName = true := by simpa using valid
  rw [rename_eq distinct there valid' free'] at done'
  obtain ⟨rfl, rfl⟩ := Prod.mk.inj (Except.ok.inj done')
  exact ⟨_, there, rfl, valid', free', rfl⟩

end Container

end PageDesigner
