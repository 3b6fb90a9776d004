import PageDesigner.Proofs.Surface.Orderly

/-!
# Components that are removed

Destroying a component takes its name off the surface, and leaves the other names with the
types of their components (`exists_destroyed`).  When several names are destroyed one
after the other, each of them that is there goes once (`removable_destroyed`).
-/

namespace PageDesigner

namespace Text

/-- Names that are the same are the same as the same names. -/
theorem sameName_congr {first second : Text} (same : first.sameName second = true) (other : Text) :
    other.sameName first = other.sameName second := by
  unfold sameName
  rw [sameName_iff.mp same]

end Text

namespace Surface

/-- The names of the components with their types, in the order of siting. -/
def typedNames (surface : Surface) : List (Text × ControlType) :=
  surface.container.sites.map fun site => (site.name, site.component.controlType)

/-- Those of the names that are the names of controls, each of them once. -/
def removable (surface : Surface) : List Text → List Text
  | [] => []
  | name :: rest =>
      if surface.isRoot name || !surface.container.contains name then surface.removable rest
      else name :: (surface.removable rest).filter (!·.sameName name)

variable {surface after : Surface} {name stored : Text}

theorem contains_eq_any (surface : Surface) (name : Text) :
    surface.container.contains name = surface.typedNames.any (·.1.sameName name) := by
  unfold Container.contains Container.site? typedNames
  rw [List.isSome_find?, List.any_map]
  rfl

/-! ## Destroying one component -/

theorem controlType_relisted (surface : Surface) (change : List Text → List Text) (site : Site) :
    (surface.relisted change site).component.controlType = site.component.controlType := by
  unfold relisted
  split <;> rfl

theorem typedNames_withoutControl (distinct : surface.container.Distinct) (name : Text) :
    (surface.withoutControl name).typedNames =
      surface.typedNames.filter (!·.1.sameName name) := by
  unfold typedNames
  rw [withoutControl_eq_filter surface distinct, List.filter_map, List.filter_map,
    List.map_map]
  have entries : ((fun site : Site => (site.name, site.component.controlType)) ∘
      surface.relisted (·.filter fun child => !child.sameName name)) =
        fun site => (site.name, site.component.controlType) := by
    funext site
    exact Prod.ext (name_relisted _ _ _) (controlType_relisted _ _ _)
  rw [entries]
  refine congrArg (List.map _) (List.filter_congr fun site _ => ?_)
  simp only [Function.comp, name_relisted]

/-- A component that is there can be destroyed, and the others stay. -/
theorem exists_destroyed (distinct : surface.container.Distinct) {site : Site}
    (found : surface.container.site? name = some site) :
    ∃ after, surface.destroy? site.name = some (site.name, after) ∧
      after.typedNames = surface.typedNames.filter (!·.1.sameName name) ∧
      (surface.isRoot name = false → after.root? = surface.root?) := by
  have same := Container.sameName_of_site? found
  have there : surface.container.site? site.name = some site := by
    rw [Container.site?_congr same, found]
  have others : (fun typed : Text × ControlType => !typed.1.sameName site.name) =
      fun typed => !typed.1.sameName name := by
    funext typed
    rw [Text.sameName_congr same]
  by_cases root : surface.isRoot site.name = true
  · refine ⟨⟨surface.container.without site.name, none, surface.selection.without site.name⟩,
      ?_, ?_, ?_⟩
    · unfold destroy? Container.storedName? detach
      rw [there, Option.map_some]
      dsimp only
      rw [if_pos (by rw [isRoot_selection]; exact root)]
      dsimp only
      rw [Container.remove?_eq, there]
      rfl
    · unfold typedNames
      rw [Container.without_eq_filter distinct, List.filter_map, ← others]
      rfl
    · intro notRoot
      rw [isRoot_congr same, notRoot] at root
      cases root
  · have notRoot : surface.isRoot site.name = false := by simpa using root
    refine ⟨surface.withoutControl site.name, ?_, ?_, fun _ => root?_withoutControl _ _⟩
    · rw [destroy?_eq notRoot, there]
      rfl
    · rw [typedNames_withoutControl distinct, others]

/-! ## Destroying one component after the other -/

/-- Removing a name leaves the other names that can be removed. -/
theorem removable_destroyed (names' : after.typedNames =
      surface.typedNames.filter (!·.1.sameName name))
    (root : after.root? = surface.root?) (names : List Text) :
    after.removable names = (surface.removable names).filter (!·.sameName name) := by
  have contains : ∀ other, after.container.contains other =
      (surface.container.contains other && !other.sameName name) := by
    intro other
    rw [contains_eq_any, contains_eq_any, names', List.any_filter]
    cases same : other.sameName name with
    | true =>
        rw [Bool.not_true, Bool.and_false, List.any_eq_false]
        intro typed _
        rw [Text.sameName_congr same]
        simp
    | false =>
        rw [Bool.not_false, Bool.and_true]
        refine congrArg (List.any surface.typedNames) (funext fun typed => ?_)
        cases alike : typed.1.sameName other with
        | false => rw [Bool.and_false]
        | true =>
            rw [Text.sameName_comm typed.1 name, Text.sameName_congr alike, Text.sameName_comm,
              same]
            rfl
  have isRoot : ∀ other, after.isRoot other = surface.isRoot other := by
    intro other
    unfold Surface.isRoot
    rw [root]
  induction names with
  | nil => rfl
  | cons other rest ih =>
      unfold removable
      rw [isRoot, contains]
      by_cases stays : (surface.isRoot other || !surface.container.contains other) = true
      · have stays' : (surface.isRoot other ||
            !(surface.container.contains other && !other.sameName name)) = true := by
          revert stays
          cases surface.isRoot other <;> cases surface.container.contains other <;> simp
        rw [if_pos stays, if_pos stays', ih]
      · rw [if_neg stays]
        cases same : other.sameName name with
        | true => simp [ih, same, Text.sameName_congr same]
        | false =>
            simp only [Bool.not_false, Bool.and_true]
            rw [if_neg stays, List.filter_cons_of_pos (by rw [same]; rfl), ih,
              List.filter_filter, List.filter_filter]
            simp only [Bool.and_comm]

/-- A name is removed if it is the name of a control and one of the names. -/
theorem isTaken_removable (names : List Text) (name : Text) :
    Naming.isTaken (surface.removable names) name =
      (Naming.isTaken names name &&
        (surface.container.contains name && !surface.isRoot name)) := by
  induction names with
  | nil => rfl
  | cons other rest ih =>
      have head : Naming.isTaken (other :: rest) name =
          (other.sameName name || Naming.isTaken rest name) := rfl
      unfold removable
      rw [head]
      cases same : other.sameName name with
      | true =>
          have contains : surface.container.contains other = surface.container.contains name := by
            rw [contains_eq_any, contains_eq_any]
            simp only [Text.sameName_congr same]
          rw [isRoot_congr same, contains, Bool.true_or, Bool.true_and]
          split
          · next stays =>
              rw [ih]
              revert stays
              cases surface.isRoot name <;> cases surface.container.contains name <;> simp
          · next goes =>
              have taken : Naming.isTaken (other ::
                  (surface.removable rest).filter (!·.sameName other)) name = true := by
                unfold Naming.isTaken
                rw [List.any_cons, same, Bool.true_or]
              rw [taken]
              revert goes
              cases surface.isRoot name <;> cases surface.container.contains name <;> simp
      | false =>
          rw [Bool.false_or, ← ih]
          split
          · rfl
          · unfold Naming.isTaken
            rw [List.any_cons, same, Bool.false_or, List.any_filter]
            refine congrArg (List.any (surface.removable rest)) (funext fun third => ?_)
            cases alike : third.sameName name with
            | false => rw [Bool.and_false]
            | true =>
                rw [Text.sameName_comm third, Text.sameName_congr alike, same]
                rfl

/-- Only a control that is there is removed. -/
theorem sited_of_mem_removable {names : List Text} (member : name ∈ surface.removable names) :
    surface.container.contains name = true ∧ surface.isRoot name = false := by
  have taken : Naming.isTaken (surface.removable names) name = true :=
    List.any_eq_true.mpr ⟨name, member, Text.sameName_refl name⟩
  rw [isTaken_removable] at taken
  simpa using (Bool.and_eq_true_iff.mp taken).2

end Surface

end PageDesigner
