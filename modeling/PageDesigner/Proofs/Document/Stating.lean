import PageDesigner.Proofs.Control.Taking
import PageDesigner.Proofs.Document.Creation
import PageDesigner.Proofs.Document.ReadBack

/-!
# What the tags of a document state

The first scan sites a component for each tag of a known type that has an id.  Its name,
its type, its values and its handlers depend on what the tag says (`Element.states?`), so
the tags of a text can be compared without regard to their places (`stated_populate`).
A tag with a free id can stand anywhere among tags that lack no id (`Claimable.insert`).
-/

namespace PageDesigner

/-- What a component is called, what it is, and what was set on it. -/
abbrev Stated := Text × ControlType × Table Value × Table Text

/-- What is stated of a component under its site name. -/
def Site.stated (site : Site) : Stated :=
  (site.name, site.component.controlType, site.component.values, site.component.handlers)

/-- What is stated of the components of a surface, in the order of siting. -/
def Surface.stated (surface : Surface) : List Stated := surface.container.sites.map Site.stated

/-- What a tag states of the component that it stands for, if it stands for one. -/
def Registry.states? (registry : Registry) (said : Name × List Entry) : Option Stated :=
  match registry.resolve? said.1, Entry.id? said.2 with
  | some controlType, some id =>
      let component := (Component.fresh controlType).taking said.2
      some (id, controlType, component.values, component.handlers)
  | _, _ => none

/-! ## Siting -/

namespace Container

/-- Changing what is not stated leaves what is stated. -/
theorem stated_update (container : Container) (name : Text) {change : Component → Component}
    (same : ∀ component : Component, (change component).controlType = component.controlType ∧
      (change component).values = component.values ∧
      (change component).handlers = component.handlers) :
    (container.update name change).sites.map Site.stated = container.sites.map Site.stated := by
  obtain ⟨sites⟩ := container
  induction sites with
  | nil => rfl
  | cons site rest ih =>
      rw [update_cons]
      split
      · obtain ⟨type, values, handlers⟩ := same site.component
        simp only [List.map_cons, Site.stated, type, values, handlers]
      · simp only [List.map_cons, ih]

end Container

namespace Surface

theorem stated_updateChildren (surface : Surface) (change : List Text → List Text) :
    (surface.updateChildren change).stated = surface.stated := by
  unfold updateChildren
  split
  · rfl
  · refine Container.stated_update _ _ fun component => ?_
    split <;> exact ⟨rfl, rfl, rfl⟩

theorem stated_place (surface : Surface) (name : Text) (component : Component) :
    (surface.place name component).stated =
      surface.stated ++ [Site.stated ⟨name, component⟩] := by
  unfold place
  rw [stated_updateChildren]
  exact List.map_append

/-- What is sited is stated before it, and then by the tags in their order. -/
theorem stated_populate (registry : Registry) (surface : Surface) (elements : List Element) :
    (surface.populate registry elements).stated =
      surface.stated ++ (elements.map (·.toTag.said)).filterMap registry.states? := by
  induction elements generalizing surface with
  | nil => exact (List.append_nil _).symm
  | cons element rest ih =>
      have here : (surface.siteTag registry element).stated =
          surface.stated ++ (registry.states? element.toTag.said).toList := by
        unfold siteTag Registry.states? Tag.said
        dsimp only
        rw [Tag.id?_entries]
        cases registry.resolve? element.name with
        | none => exact (List.append_nil _).symm
        | some controlType =>
            cases element.id? with
            | none => exact (List.append_nil _).symm
            | some id =>
                dsimp only
                rw [stated_place]
                unfold Site.stated
                dsimp only
                rw [Component.controlType_readTag, Component.values_eq_taking,
                  Component.handlers_eq_taking]
                rfl
      have later := ih (surface.siteTag registry element)
      unfold populate at later ⊢
      rw [List.foldl_cons, later, here, List.map_cons, List.filterMap_cons, List.append_assoc]
      cases registry.states? element.toTag.said <;> rfl

/-- The names of a surface are what its components are stated to be called. -/
theorem names_eq_stated (surface : Surface) :
    surface.container.names = surface.stated.map Prod.fst := by
  unfold Container.names stated
  rw [List.map_map]
  rfl

end Surface

/-! ## Tags with ids -/

namespace ScanPass

variable {registry : Registry} {surface : Surface}

theorem claims_eq_stated (registry : Registry) (elements : List Element) :
    claims registry elements =
      ((elements.map (·.toTag.said)).filterMap registry.states?).map Prod.fst := by
  induction elements with
  | nil => rfl
  | cons element rest ih =>
      unfold claims at ih ⊢
      rw [List.filterMap_cons, List.map_cons, List.filterMap_cons]
      unfold Registry.states? Tag.said at ih ⊢
      dsimp only
      rw [Tag.id?_entries]
      cases registry.resolve? element.name with
      | none => simpa using ih
      | some controlType =>
          cases element.id? with
          | none => simpa using ih
          | some id => simpa using ih

namespace Claimable

variable {claimed : List Text}

/-- Only what the tags say matters. -/
theorem of_said {elements elements' : List Element}
    (claimable : Claimable registry surface claimed elements)
    (same : elements'.map (·.toTag.said) = elements.map (·.toTag.said)) :
    Claimable registry surface claimed elements' := by
  induction claimable generalizing elements' with
  | nil claimed =>
      rw [List.map_nil, List.map_eq_nil_iff] at same
      subst same
      exact .nil claimed
  | @unknown claimed element rest resolved _ ih =>
      obtain ⟨element', rest', rfl, here, later⟩ := List.map_eq_cons_iff.mp same
      obtain ⟨name, -⟩ := Prod.mk.inj here
      exact .unknown (by rw [name]; exact resolved) (ih later)
  | @known claimed element rest controlType id resolved named valid fresh notRoot _ ih =>
      obtain ⟨element', rest', rfl, here, later⟩ := List.map_eq_cons_iff.mp same
      obtain ⟨name, entries⟩ := Prod.mk.inj here
      have id' : element'.id? = some id := by
        rw [← Tag.id?_entries, entries, Tag.id?_entries, named]
      exact .known (by rw [name]; exact resolved) id' valid fresh notRoot (ih later)

/-- Ids that none of the tags claims can be claimed before. -/
theorem claiming {elements : List Element} {claimed' : List Text}
    (claimable : Claimable registry surface claimed elements)
    (apart : ∀ id ∈ claimed', id ∈ claimed ∨ id ∉ (claims registry elements).map Text.lower) :
    Claimable registry surface claimed' elements := by
  induction claimable generalizing claimed' with
  | nil claimed => exact .nil claimed'
  | @unknown claimed element rest resolved _ ih =>
      rw [claims_cons_unknown resolved] at apart
      exact .unknown resolved (ih apart)
  | @known claimed element rest controlType id resolved named valid fresh notRoot _ ih =>
      rw [claims_cons_known resolved named, List.map_cons] at apart
      refine .known resolved named valid ?_ notRoot (ih fun other member => ?_)
      · intro before
        exact (apart _ before).elim fresh (absurd List.mem_cons_self)
      · rcases List.mem_append.mp member with before | last
        · exact (apart other before).imp (List.mem_append_left _)
            fun foreign later => foreign (List.mem_cons_of_mem _ later)
        · exact .inl (List.mem_append_right _ last)

/-- A tag with an id of its own can stand anywhere among tags that lack no id. -/
theorem insert {former latter : List Element} {element : Element} {controlType : ControlType}
    {id : Text} (claimable : Claimable registry surface claimed (former ++ latter))
    (resolved : registry.resolve? element.name = some controlType)
    (named : element.id? = some id) (valid : Naming.isValid id = true)
    (notRoot : surface.isRoot id = false) (fresh : id.lower ∉ claimed)
    (apart : id.lower ∉ (claims registry (former ++ latter)).map Text.lower) :
    Claimable registry surface claimed (former ++ element :: latter) := by
  induction former generalizing claimed with
  | nil =>
      refine .known resolved named valid fresh notRoot (claimable.claiming fun other member => ?_)
      rcases List.mem_append.mp member with before | last
      · exact .inl before
      · rw [List.mem_singleton.mp last]
        exact .inr apart
  | cons head former ih =>
      cases claimable with
      | unknown unresolved later =>
          rw [List.cons_append, claims_cons_unknown unresolved] at apart
          exact .unknown unresolved (ih later fresh apart)
      | known resolved' named' valid' fresh' notRoot' later =>
          rw [List.cons_append, claims_cons_known resolved' named', List.map_cons] at apart
          refine .known resolved' named' valid' fresh' notRoot' (ih later ?_ ?_)
          · intro member
            rcases List.mem_append.mp member with before | last
            · exact fresh before
            · exact apart (List.mem_singleton.mp last ▸ List.mem_cons_self)
          · exact fun later => apart (List.mem_cons_of_mem _ later)

end Claimable

end ScanPass

end PageDesigner
