import PageDesigner.Proofs.Surface.Naming
import PageDesigner.Surface.Container

/-!
# Components under their names

No two components of a container have one name up to letter case
(`Container.Distinct`), so a name stands for at most one of them.  Every operation
of the container keeps that, and leaves alone what another name stands for.
-/

namespace PageDesigner

namespace Container

/-- No two names are equal up to letter case. -/
def Distinct (container : Container) : Prop := (container.names.map Text.lower).Nodup

instance (container : Container) : Decidable container.Distinct :=
  inferInstanceAs (Decidable (List.Nodup _))

theorem distinct_empty : Distinct empty := List.nodup_nil

/-! ## Looking up -/

theorem site?_eq_none {container : Container} {name : Text} :
    container.site? name = none ↔ name.lower ∉ container.names.map Text.lower := by
  simp [site?, names, Text.sameName_iff, List.find?_eq_none]

theorem sameName_of_site? {container : Container} {name : Text} {site : Site}
    (found : container.site? name = some site) : site.name.sameName name = true :=
  List.find?_some (p := fun site : Site => site.name.sameName name) found

/-- A name that differs from the one asked for differs from the stored one. -/
theorem sameName_of_ne {container : Container} {name other : Text} {site : Site}
    (found : container.site? name = some site) (differs : name.sameName other = false) :
    site.name.sameName other = false := by
  rw [Bool.eq_false_iff]
  intro same
  have alike : name.sameName site.name = true := by
    rw [Text.sameName_comm]
    exact sameName_of_site? found
  rw [Text.sameName_trans alike same] at differs
  cases differs

theorem mem_of_site? {container : Container} {name : Text} {site : Site}
    (found : container.site? name = some site) : site ∈ container.sites :=
  List.mem_of_find?_eq_some found

/-- In a container with distinct names, a name stands for every site that has it. -/
theorem site?_of_mem {container : Container} (distinct : container.Distinct) {site : Site}
    (member : site ∈ container.sites) {name : Text} (same : site.name.sameName name = true) :
    container.site? name = some site := by
  obtain ⟨sites⟩ := container
  unfold Distinct names at distinct
  unfold site?
  dsimp only at *
  induction sites with
  | nil => cases member
  | cons head rest ih =>
      simp only [List.map_cons, List.nodup_cons] at distinct
      rcases List.mem_cons.mp member with rfl | later
      · rw [List.find?_cons, same]
      · have differs : head.name.sameName name = false := by
          rw [Bool.eq_false_iff]
          intro both
          apply distinct.1
          rw [Text.sameName_iff.mp both, ← Text.sameName_iff.mp same]
          exact List.mem_map_of_mem (List.mem_map_of_mem later)
        rw [List.find?_cons, differs]
        exact ih distinct.2 later

theorem site?_congr {container : Container} {name name' : Text}
    (same : name.sameName name' = true) : container.site? name = container.site? name' := by
  unfold site?
  congr
  funext site
  simp only [Text.sameName, Text.sameName_iff.mp same]

theorem get?_congr {container : Container} {name name' : Text}
    (same : name.sameName name' = true) : container.get? name = container.get? name' :=
  congrArg (Option.map _) (site?_congr same)

/-- The stored name is the first one that is alike. -/
theorem storedName?_eq_find? (container : Container) (name : Text) :
    container.storedName? name = container.names.find? (·.sameName name) := by
  unfold storedName? site? names
  rw [List.find?_map]
  rfl

/-! ## Changing a component -/

theorem update_cons (name : Text) (change : Component → Component) (site : Site)
    (rest : List Site) :
    update ⟨site :: rest⟩ name change =
      if site.name.sameName name then ⟨{ site with component := change site.component } :: rest⟩
      else ⟨site :: (update ⟨rest⟩ name change).sites⟩ := by
  unfold update position?
  rw [List.findIdx?_cons]
  by_cases same : site.name.sameName name = true
  · rw [if_pos same, if_pos same]
    rfl
  · rw [if_neg same, if_neg same]
    cases List.findIdx? (fun site : Site => site.name.sameName name) rest <;> rfl

@[simp]
theorem names_update (container : Container) (name : Text) (change : Component → Component) :
    (container.update name change).names = container.names := by
  obtain ⟨sites⟩ := container
  induction sites with
  | nil => rfl
  | cons site rest ih =>
      rw [update_cons]
      split
      · rfl
      · exact congrArg (site.name :: ·) ih

theorem Distinct.update {container : Container} (distinct : container.Distinct) (name : Text)
    (change : Component → Component) : (container.update name change).Distinct := by
  unfold Distinct
  rw [names_update]
  exact distinct

/-- Only what the change makes of the component counts. -/
theorem update_congr {container : Container} {name : Text} {change change' : Component → Component}
    (same : ∀ component, container.get? name = some component →
      change component = change' component) :
    container.update name change = container.update name change' := by
  obtain ⟨sites⟩ := container
  induction sites with
  | nil => rfl
  | cons site rest ih =>
      rw [update_cons, update_cons]
      by_cases alike : site.name.sameName name = true
      · rw [if_pos alike, if_pos alike, same site.component (by simp [get?, site?, alike])]
      · rw [if_neg alike, if_neg alike, ih fun component found => same component ?_]
        simpa [get?, site?, alike] using found

/-- A change of one component leaves what another name stands for. -/
theorem site?_update_of_ne {container : Container} {name other : Text}
    (differs : name.sameName other = false) (change : Component → Component) :
    (container.update name change).site? other = container.site? other := by
  obtain ⟨sites⟩ := container
  induction sites with
  | nil => rfl
  | cons site rest ih =>
      rw [update_cons]
      split
      · next same =>
          have apart : site.name.sameName other = false := by
            rw [Bool.eq_false_iff]
            intro both
            rw [Text.sameName_comm] at same
            rw [Text.sameName_trans same both] at differs
            cases differs
          simp [site?, apart]
      · simp only [site?, List.find?_cons] at ih ⊢
        rw [ih]

theorem get?_update_of_ne {container : Container} {name other : Text}
    (differs : name.sameName other = false) (change : Component → Component) :
    (container.update name change).get? other = container.get? other := by
  unfold get?
  rw [site?_update_of_ne differs]

theorem get?_update_self (container : Container) (name : Text)
    (change : Component → Component) :
    (container.update name change).get? name = (container.get? name).map change := by
  obtain ⟨sites⟩ := container
  induction sites with
  | nil => rfl
  | cons site rest ih =>
      rw [update_cons]
      split
      · next same => simp [get?, site?, same]
      · next differs =>
          have apart : site.name.sameName name = false := by simpa using differs
          simp only [get?, site?, List.find?_cons, apart] at ih ⊢
          exact ih

/-! ## Adding and removing -/

/-- The container with one more site at the end. -/
def extended (container : Container) (name : Text) (component : Component) : Container :=
  ⟨container.sites ++ [⟨name, component⟩]⟩

theorem add_eq {container : Container} {name : Text} (valid : Naming.isValid name = true)
    (free : container.site? name = none) (component : Component) :
    container.add (some name) component = .ok (name, container.extended name component) := by
  have nonempty : name.isEmpty = false := by
    cases name with
    | nil => cases valid
    | cons => rfl
  simp [add, nameFor, nonempty, valid, contains, free, Option.filter, extended]

/-- A component is only added under a name that is free. -/
theorem add_inv {container added : Container} {name? : Option Text} {component : Component}
    {name : Text} (done : container.add name? component = .ok (name, added)) :
    container.site? name = none ∧ added = container.extended name component := by
  unfold add at done
  split at done
  · cases done
  next chosen named =>
  obtain ⟨rfl, rfl⟩ := Prod.mk.inj (Except.ok.inj done)
  refine ⟨?_, rfl⟩
  unfold nameFor at named
  split at named
  · have generated := Except.ok.inj named
    have free := Naming.unused_free component.controlType.name container.names
    rw [site?_eq_none, ← generated]
    exact fun member => Bool.eq_false_iff.mp free (Naming.isTaken_iff.mpr member)
  · next given _ =>
      split at named
      · cases named
      split at named
      · cases named
      next free =>
      rw [← Except.ok.inj named]
      simpa [contains] using free

theorem Distinct.extended {container : Container} (distinct : container.Distinct) {name : Text}
    (free : container.site? name = none) (component : Component) :
    (container.extended name component).Distinct := by
  have absent := site?_eq_none.mp free
  unfold Distinct names Container.extended at *
  simp only [List.map_append, List.map_cons, List.map_nil]
  rw [List.nodup_append]
  refine ⟨distinct, List.nodup_cons.mpr ⟨List.not_mem_nil, List.nodup_nil⟩, ?_⟩
  intro former member last isLast same
  rw [List.mem_singleton] at isLast
  rw [same, isLast] at member
  exact absent member

theorem get?_extended_self {container : Container} {name : Text}
    (free : container.site? name = none) (component : Component) :
    (container.extended name component).get? name = some component := by
  unfold get? site? extended at *
  simp [List.find?_append, free]

theorem site?_extended_of_ne {container : Container} {name other : Text}
    (differs : name.sameName other = false) (component : Component) :
    (container.extended name component).site? other = container.site? other := by
  unfold site? extended
  simp [List.find?_append, differs]

/-- Removing takes out the site that the name stands for. -/
theorem remove?_eq (container : Container) (name : Text) :
    container.remove? name = (container.site? name).map fun site =>
      (site.component, ⟨container.sites.eraseP (·.name.sameName name)⟩) := by
  unfold remove? position? site?
  rw [List.find?_eq_bind_findIdx?_getElem?, List.eraseP_eq_eraseIdx]
  cases List.findIdx? (fun site : Site => site.name.sameName name) container.sites <;> rfl

/-- The container without the site that a name stands for. -/
def without (container : Container) (name : Text) : Container :=
  ⟨container.sites.eraseP (·.name.sameName name)⟩

theorem Distinct.without {container : Container} (distinct : container.Distinct) (name : Text) :
    (container.without name).Distinct :=
  distinct.sublist ((List.eraseP_sublist.map _).map _)

theorem mem_names_without {container : Container} {name other : Text}
    (member : other ∈ (container.without name).names) : other ∈ container.names :=
  (List.eraseP_sublist.map _).subset member

theorem site?_without_self {container : Container} (distinct : container.Distinct) (name : Text) :
    (container.without name).site? name = none := by
  obtain ⟨sites⟩ := container
  unfold Distinct names at distinct
  unfold without site?
  dsimp only at *
  induction sites with
  | nil => rfl
  | cons head rest ih =>
      simp only [List.map_cons, List.nodup_cons] at distinct
      by_cases same : head.name.sameName name = true
      · rw [List.eraseP_cons, same, cond_true, List.find?_eq_none]
        intro site member both
        apply distinct.1
        rw [Text.sameName_iff.mp same, ← Text.sameName_iff.mp both]
        exact List.mem_map_of_mem (List.mem_map_of_mem member)
      · have differs : head.name.sameName name = false := by simpa using same
        rw [List.eraseP_cons, differs, cond_false, List.find?_cons, differs]
        exact ih distinct.2

theorem site?_without_of_ne {container : Container} {name other : Text}
    (differs : name.sameName other = false) :
    (container.without name).site? other = container.site? other := by
  obtain ⟨sites⟩ := container
  unfold without site?
  dsimp only
  induction sites with
  | nil => rfl
  | cons head rest ih =>
      by_cases same : head.name.sameName name = true
      · have apart : head.name.sameName other = false := by
          rw [Bool.eq_false_iff]
          intro both
          have back : name.sameName head.name = true := by rw [Text.sameName_comm, same]
          rw [Text.sameName_trans back both] at differs
          cases differs
        rw [List.eraseP_cons, same, cond_true, List.find?_cons, apart]
      · have other' : head.name.sameName name = false := by simpa using same
        rw [List.eraseP_cons, other', cond_false, List.find?_cons, List.find?_cons, ih]

theorem nodup_set {names : List Text} (distinct : names.Nodup) {index : Nat} {name : Text}
    (alone : ∀ place, place ≠ index → names[place]? ≠ some name) :
    (names.set index name).Nodup := by
  rw [List.nodup_iff_getElem?_ne_getElem?] at distinct ⊢
  intro first second before inside
  rw [List.length_set] at inside
  have apart := distinct first second before inside
  rw [List.getElem?_set, List.getElem?_set]
  split
  · next here =>
      subst here
      rw [if_neg (by omega : ¬ index = second)]
      split
      · exact (alone second (by omega)).symm
      · omega
  · next elsewhere =>
      split
      · next here =>
          subst here
          rw [if_pos inside]
          exact alone first (by omega)
      · exact apart

/-- Renaming keeps the names distinct. -/
theorem Distinct.rename {container renamed : Container} (distinct : container.Distinct)
    {name newName previous : Text}
    (done : container.rename name newName = .ok (previous, renamed)) : renamed.Distinct := by
  unfold Container.rename at done
  split at done
  · cases done
  next index _ =>
  split at done
  · cases done
  split at done
  · cases done
  next free =>
  obtain ⟨-, rfl⟩ := Prod.mk.inj (Except.ok.inj done)
  have shape : (Container.names ⟨container.sites.modify index fun site =>
      { site with name := newName }⟩).map Text.lower =
      (container.names.map Text.lower).set index newName.lower := by
    unfold names
    apply List.ext_getElem?
    intro place
    simp only [List.getElem?_map, List.getElem?_modify, List.getElem?_set, List.length_map]
    by_cases here : index = place
    · subst here
      by_cases inside : index < container.sites.length
      · simp [inside]
      · simp [inside]
    · simp [here]
  unfold Distinct
  rw [shape]
  refine nodup_set distinct ?_
  intro place elsewhere there
  -- The new name stands for the renamed component at most.
  obtain ⟨site, sited, same⟩ : ∃ site, container.sites[place]? = some site ∧
      site.name.sameName newName = true := by
    unfold names at there
    simp only [List.getElem?_map, Option.map_eq_some_iff] at there
    obtain ⟨name, ⟨site, sited, rfl⟩, lower⟩ := there
    exact ⟨site, sited, Text.sameName_iff.mpr lower⟩
  cases found : container.position? newName with
  | none =>
      have missing := List.findIdx?_eq_none_iff.mp found site (List.mem_of_getElem? sited)
      rw [same] at missing
      cases missing
  | some first =>
      rw [found] at free
      have first_eq : first = index := by simpa using free
      subst first_eq
      obtain ⟨inside, atFirst, _⟩ := List.findIdx?_eq_some_iff_getElem.mp found
      have twice : (container.names.map Text.lower)[first]? =
          (container.names.map Text.lower)[place]? := by
        rw [there]
        simp [names, List.getElem?_eq_getElem inside, Text.sameName_iff.mp atFirst]
      rcases Nat.lt_or_gt_of_ne elsewhere with before | behind
      · exact List.nodup_iff_getElem?_ne_getElem?.mp distinct place first before
          (by simpa [names] using inside) twice.symm
      · have within : place < container.sites.length := (List.getElem?_eq_some_iff.mp sited).1
        exact List.nodup_iff_getElem?_ne_getElem?.mp distinct first place behind
          (by simpa [names] using within) twice

end Container

end PageDesigner
