import PageDesigner.Proofs.Control.Applying
import PageDesigner.Proofs.Markup.Openings

/-!
# What a tag makes of a component

Reading a tag with restoring overrides whatever the component held before: for
every property and every event the result is what a fresh component of the same
type gets from the tag (`get?_readTag_restoring`, `handler?_readTag_restoring`).

Two things are left out.  A property that the tag states, but in no form that
converts, keeps its value.  And a name that a type declares in two spellings of
different letter case is known by the first, while restoring goes over both.
-/

namespace PageDesigner

namespace Component.Reading

/-! ## Restoring what the tag does not mention -/

theorem reset_inv {component changed : Component} {name : Text} {old? : Option Value}
    (done : component.reset name = .ok (old?, changed)) :
    ∃ property, component.controlType.property? name = some property ∧
      changed = { component with values := component.values.erase property.name } := by
  unfold reset Component.property at done
  cases found : component.controlType.property? name with
  | none => rw [found] at done; cases done
  | some property =>
      rw [found] at done
      obtain ⟨-, rfl⟩ := Prod.mk.inj (Except.ok.inj done)
      exact ⟨property, rfl, rfl⟩

theorem restore_frame (tag : Tag) (reading : Reading) (property : Property) :
    (restore tag reading property).component.controlType = reading.component.controlType ∧
      (restore tag reading property).component.handlers = reading.component.handlers ∧
      (restore tag reading property).stated = reading.stated ∧
      (restore tag reading property).bound = reading.bound := by
  unfold restore
  split
  · exact ⟨rfl, rfl, rfl, rfl⟩
  · split
    · next changed done =>
        obtain ⟨declared, _, rfl⟩ := reset_inv done
        exact ⟨rfl, rfl, rfl, rfl⟩
    · exact ⟨rfl, rfl, rfl, rfl⟩

/-- Restoring a property that the tag does not state puts back the one that is known by its name. -/
theorem get?_restore {reading : Reading} {property : Property}
    (declared : reading.component.controlType.property? property.name = some property)
    (tag : Tag) (other : Property) :
    (restore tag reading other).component.get? property.name =
      if other.name.sameName property.name = true ∧ other.name ∉ reading.stated then
        property.initial?
      else reading.component.get? property.name := by
  by_cases same : other.name.sameName property.name = true
  · have known : reading.component.controlType.property? other.name = some property := by
      rw [ControlType.property?_congr same, declared]
    unfold restore
    by_cases stated : other.name ∈ reading.stated
    · have listed : reading.stated.contains other.name = true := by simpa using stated
      rw [listed, Bool.true_or, if_pos rfl, if_neg fun both => both.2 stated]
    · have unlisted : reading.stated.contains other.name = false := by simpa using stated
      have resets : other.name.sameName property.name = true ∧ other.name ∉ reading.stated :=
        ⟨same, stated⟩
      rw [unlisted, Bool.false_or, if_pos resets]
      split
      · next initial =>
          have held : reading.component.get? other.name =
              reading.component.get? property.name := by
            unfold get?
            rw [known, declared]
          unfold isInitial at initial
          rw [known, held] at initial
          dsimp only at initial
          cases value : reading.component.get? property.name with
          | none =>
              rw [get?_eq declared] at value
              exact (Option.or_eq_none_iff.mp value).2.symm
          | some value' =>
              rw [value] at initial
              simp only [Property.isInitial, beq_iff_eq] at initial
              exact initial.symm
      · simp only [reset, Component.property, known]
        rw [get?_withValues declared, Table.get?_erase_self, Option.none_or]
  · rw [if_neg fun both => same both.1]
    unfold restore
    split
    · rfl
    · split
      · next changed done =>
          obtain ⟨found, there, rfl⟩ := reset_inv done
          have alike : found.name.sameName other.name = true :=
            List.find?_some (p := fun entry : Property => entry.name.sameName other.name) there
          have apart : property.name ≠ found.name := by
            intro equal
            rw [← equal, Text.sameName_comm] at alike
            exact same alike
          dsimp only
          rw [get?_withValues declared, get?_eq declared, Table.get?_erase_of_ne _ apart]
      · rfl

theorem restores_frame (tag : Tag) (properties : List Property) (reading : Reading) :
    (properties.foldl (restore tag) reading).component.controlType =
        reading.component.controlType ∧
      (properties.foldl (restore tag) reading).component.handlers = reading.component.handlers ∧
      (properties.foldl (restore tag) reading).stated = reading.stated ∧
      (properties.foldl (restore tag) reading).bound = reading.bound := by
  induction properties generalizing reading with
  | nil => exact ⟨rfl, rfl, rfl, rfl⟩
  | cons property properties ih =>
      obtain ⟨type, handlers, stated, bound⟩ := restore_frame tag reading property
      have later := ih (restore tag reading property)
      rw [type, handlers, stated, bound] at later
      exact later

theorem get?_restores {reading : Reading} {property : Property}
    (declared : reading.component.controlType.property? property.name = some property)
    (tag : Tag) (properties : List Property) :
    (properties.foldl (restore tag) reading).component.get? property.name =
      if ∃ other ∈ properties,
          other.name.sameName property.name = true ∧ other.name ∉ reading.stated then
        property.initial?
      else reading.component.get? property.name := by
  induction properties generalizing reading with
  | nil => simp
  | cons other properties ih =>
      obtain ⟨type, _, stated, _⟩ := restore_frame tag reading other
      have here := get?_restore declared tag other
      have later := @ih (restore tag reading other) (by rw [type, declared])
      rw [List.foldl_cons, later, stated, here]
      by_cases resets : other.name.sameName property.name = true ∧ other.name ∉ reading.stated
      · have some' : ∃ entry ∈ other :: properties,
            entry.name.sameName property.name = true ∧ entry.name ∉ reading.stated :=
          ⟨other, List.mem_cons_self, resets⟩
        rw [if_pos resets, if_pos some', ite_self]
      · simp only [List.mem_cons, or_and_right, exists_or, exists_eq_left, resets, false_or, if_false]

theorem release_frame (reading : Reading) (event : Text) :
    (reading.release event).component.controlType = reading.component.controlType ∧
      (reading.release event).component.values = reading.component.values ∧
      (reading.release event).bound = reading.bound := by
  unfold release unbind
  split
  · exact ⟨rfl, rfl, rfl⟩
  · dsimp only
    split <;> exact ⟨rfl, rfl, rfl⟩

/-- Releasing an event that the tag does not bind drops the handler of the one known by its name. -/
theorem handlers_release {reading : Reading} {event : Text}
    (declared : reading.component.controlType.event? event = some event) (other : Text) :
    (reading.release other).component.handlers.get? event =
      if other.sameName event = true ∧ other ∉ reading.bound then none
      else reading.component.handlers.get? event := by
  by_cases same : other.sameName event = true
  · have known : reading.component.controlType.event? other = some event := by
      rw [ControlType.event?_congr same, declared]
    unfold release
    by_cases bound : other ∈ reading.bound
    · rw [if_pos (by simpa using bound), if_neg fun both => both.2 bound]
    · rw [if_neg (by simpa using bound), if_pos ⟨same, bound⟩]
      simp [unbind, known]
  · rw [if_neg fun both => same both.1]
    unfold release
    split
    · rfl
    · unfold unbind
      dsimp only
      split
      · next found there =>
          have alike : found.sameName other = true :=
            List.find?_some (p := fun entry : Text => entry.sameName other) there
          have apart : event ≠ found := by
            intro equal
            rw [← equal, Text.sameName_comm] at alike
            exact same alike
          exact Table.get?_erase_of_ne _ apart
      · rfl

theorem releases_frame (events : List Text) (reading : Reading) :
    (events.foldl release reading).component.controlType = reading.component.controlType ∧
      (events.foldl release reading).component.values = reading.component.values ∧
      (events.foldl release reading).bound = reading.bound := by
  induction events generalizing reading with
  | nil => exact ⟨rfl, rfl, rfl⟩
  | cons event events ih =>
      obtain ⟨type, values, bound⟩ := release_frame reading event
      have later := ih (reading.release event)
      rw [type, values, bound] at later
      exact later

theorem handlers_releases {reading : Reading} {event : Text}
    (declared : reading.component.controlType.event? event = some event) (events : List Text) :
    (events.foldl release reading).component.handlers.get? event =
      if ∃ other ∈ events, other.sameName event = true ∧ other ∉ reading.bound then none
      else reading.component.handlers.get? event := by
  induction events generalizing reading with
  | nil => simp
  | cons other events ih =>
      obtain ⟨type, _, bound⟩ := release_frame reading other
      have here := handlers_release declared other
      have later := @ih (reading.release other) (by rw [type, declared])
      rw [List.foldl_cons, later, bound, here]
      by_cases drops : other.sameName event = true ∧ other ∉ reading.bound
      · have some' : ∃ entry ∈ other :: events,
            entry.sameName event = true ∧ entry ∉ reading.bound :=
          ⟨other, List.mem_cons_self, drops⟩
        rw [if_pos drops, if_pos some', ite_self]
      · simp only [List.mem_cons, or_and_right, exists_or, exists_eq_left, drops, false_or, if_false]

/-- If the tag states the property, then at least once in a form that converts. -/
def Converts (controlType : ControlType) (property : Property) (tag : Tag) : Prop :=
  (∃ entry ∈ tag.attributes, States controlType property entry) →
    ∃ entry ∈ tag.attributes, States controlType property entry ∧
      ∃ value, property.read entry.value = .ok value

end Component.Reading

namespace Component

open Reading

/-! ## Reading a whole tag -/

theorem bindTag_frame (component : Component) (element : Element) :
    (component.bindTag element).controlType = component.controlType ∧
      (component.bindTag element).values = component.values ∧
      (component.bindTag element).handlers = component.handlers := by
  unfold bindTag
  split <;> exact ⟨rfl, rfl, rfl⟩

theorem get?_bindTag (component : Component) (element : Element) (name : Text) :
    (component.bindTag element).get? name = component.get? name := by
  obtain ⟨type, values, _⟩ := bindTag_frame component element
  unfold get?
  rw [type, values]

theorem handler?_bindTag (component : Component) (element : Element) (event : Text) :
    (component.bindTag element).handler? event = component.handler? event := by
  obtain ⟨type, _, handlers⟩ := bindTag_frame component element
  unfold handler?
  rw [type, handlers]

theorem restoreRest_frame (reading : Reading) (tag : Tag) :
    (reading.restoreRest tag).component.controlType = reading.component.controlType := by
  unfold restoreRest
  dsimp only
  rw [(releases_frame _ _).1, (restores_frame _ _ _).1]

/-- Reading a tag keeps the type of the component. -/
theorem controlType_readTag (component : Component) (element : Element) (restoring : Bool) :
    (component.readTag element restoring).1.controlType = component.controlType := by
  unfold readTag
  dsimp only
  rw [(bindTag_frame _ _).1]
  split
  · rw [restoreRest_frame, controlType_foldl]
  · rw [controlType_foldl]

/-- Only the opening tag of an element matters for its component. -/
theorem readTag_congr {element element' : Element} (same : element.opening = element'.opening)
    (component : Component) (restoring : Bool) :
    component.readTag element restoring = component.readTag element' restoring := by
  obtain ⟨tagEq, wholeEq⟩ := Prod.mk.inj same
  unfold readTag bindTag shapeOf
  dsimp only
  rw [wholeEq, tagEq]

/-- A restored property is what a fresh component gets from the tag. -/
theorem get?_readTag_restoring {component : Component} {name : Text} {property : Property}
    (declared : component.controlType.property? name = some property)
    (spelled : component.controlType.SpellsProperty property.name) {element : Element}
    (converts : Converts component.controlType property element.toTag) :
    (component.readTag element true).1.get? name =
      ((fresh component.controlType).readTag element false).1.get? name := by
  have itself := ControlType.property?_self declared
  have alike : name.sameName property.name = true := by
    rw [Text.sameName_comm]
    exact List.find?_some (p := fun entry : Property => entry.name.sameName name) declared
  have byName : ∀ other : Component, other.get? name = other.get? property.name := by
    intro other
    unfold get?
    rw [ControlType.property?_congr alike]
  rw [byName, byName]
  unfold readTag
  simp only [if_true, Bool.false_eq_true, if_false]
  rw [get?_bindTag, get?_bindTag]
  have folded := @get?_foldl ⟨component, [], [], []⟩ property itself element.toTag
    element.attributes
  have foldedFresh := @get?_foldl ⟨fresh component.controlType, [], [], []⟩ property itself
    element.toTag element.attributes
  simp only [List.not_mem_nil, false_or] at folded foldedFresh
  have initial : (fresh component.controlType).get? property.name = property.initial? :=
    @get?_eq (fresh component.controlType) property itself
  rw [foldedFresh.1, initial]
  have released : ∀ reading : Reading, reading.component.controlType = component.controlType →
      (reading.restoreRest element.toTag).component.get? property.name =
        (reading.component.controlType.properties.foldl (restore element.toTag)
          reading).component.get? property.name := by
    intro reading type
    obtain ⟨sameType, sameValues, _⟩ := releases_frame reading.component.controlType.events
      (reading.component.controlType.properties.foldl (restore element.toTag) reading)
    unfold restoreRest get?
    dsimp only
    rw [sameType, sameValues]
  rw [released _ (by rw [controlType_foldl])]
  rw [get?_restores (by rw [controlType_foldl]; exact itself), folded.1]
  have member : property ∈ (element.attributes.foldl (apply element.toTag)
      ⟨component, [], [], []⟩).component.controlType.properties := by
    rw [controlType_foldl]
    exact ControlType.mem_of_property? declared
  by_cases stated : ∃ entry ∈ element.attributes, States component.controlType property entry
  · rw [if_neg]
    · exact lastValue_of_converts (converts stated) _ _
    · rintro ⟨other, member', same, unlisted⟩
      rw [controlType_foldl] at member'
      rw [spelled other member' same] at unlisted
      exact unlisted (folded.2.mpr stated)
  · rw [if_pos ⟨property, member, Text.sameName_refl _,
      fun listed => stated (folded.2.mp listed)⟩]
    exact (lastValue_of_unstated stated _).symm

/-- A restored handler is what a fresh component gets from the tag. -/
theorem handler?_readTag_restoring {component : Component} {name event : Text}
    (declared : component.controlType.event? name = some event)
    (spelled : component.controlType.SpellsEvent event) (element : Element) :
    (component.readTag element true).1.handler? name =
      ((fresh component.controlType).readTag element false).1.handler? name := by
  have itself := ControlType.event?_self declared
  unfold readTag
  simp only [if_true, Bool.false_eq_true, if_false]
  rw [handler?_bindTag, handler?_bindTag]
  unfold handler?
  rw [restoreRest_frame, controlType_foldl, controlType_foldl]
  have found : (fresh component.controlType).controlType.event? name = some event := declared
  dsimp only at found ⊢
  rw [declared, found, Option.bind_some, Option.bind_some]
  have folded := handlers_foldl ⟨component, [], [], []⟩ event element.toTag element.attributes
  have foldedFresh := handlers_foldl ⟨fresh component.controlType, [], [], []⟩ event element.toTag
    element.attributes
  simp only [List.not_mem_nil, false_or] at folded foldedFresh
  rw [foldedFresh.1]
  have restored : ∀ reading : Reading, reading.component.controlType = component.controlType →
      (reading.restoreRest element.toTag).component.handlers.get? event =
        if ∃ other ∈ component.controlType.events,
            other.sameName event = true ∧ other ∉ reading.bound then none
        else reading.component.handlers.get? event := by
    intro reading type
    obtain ⟨type', handlers, _, bound⟩ := restores_frame element.toTag
      reading.component.controlType.properties reading
    unfold restoreRest
    dsimp only
    rw [handlers_releases (by rw [type', type, itself]), bound, handlers, type]
  rw [restored _ (by rw [controlType_foldl]), folded.1]
  by_cases bound : ∃ entry ∈ element.attributes, Binds component.controlType event entry
  · rw [if_neg]
    · exact lastHandler_of_bound bound _ _
    · rintro ⟨other, member, same, unlisted⟩
      rw [spelled other member same] at unlisted
      exact unlisted (folded.2.mpr bound)
  · rw [if_pos ⟨event, ControlType.mem_of_event? declared, Text.sameName_refl _,
      fun listed => bound (folded.2.mp listed)⟩]
    exact (lastHandler_of_unbound bound _).symm

end Component

end PageDesigner
