import PageDesigner.Proofs.Control.Reading

/-!
# Reading a tag a second time

What a tag says about itself, that is which properties it states, which events it binds
and what cannot be applied, does not depend on the component it is read into
(`issues_readTag`).  And a component into which a tag has been read with restoring is not
changed when the same tag is read into it once more (`alike_readTag_again`).  Nor is one into
which it has been read without restoring, but for names that its type declares in two
spellings (`similar_readTag_fresh`): a fresh component gets the stated spelling, and restoring
puts back the other one, which is the same property.
-/

namespace PageDesigner

namespace ControlType

/-- No property and no event is declared in two spellings of different letter case. -/
structure SpelledOnce (controlType : ControlType) : Prop where
  properties : ∀ property ∈ controlType.properties, controlType.SpellsProperty property.name
  events : ∀ event ∈ controlType.events, controlType.SpellsEvent event

instance (controlType : ControlType) (name : Text) :
    Decidable (controlType.SpellsProperty name) :=
  inferInstanceAs (Decidable (∀ property ∈ controlType.properties, _ → _))

instance (controlType : ControlType) (name : Text) : Decidable (controlType.SpellsEvent name) :=
  inferInstanceAs (Decidable (∀ event ∈ controlType.events, _ → _))

instance (controlType : ControlType) : Decidable controlType.SpelledOnce :=
  decidable_of_iff ((∀ property ∈ controlType.properties,
      controlType.SpellsProperty property.name) ∧
    ∀ event ∈ controlType.events, controlType.SpellsEvent event)
    ⟨fun both => ⟨both.1, both.2⟩, fun spelled => ⟨spelled.properties, spelled.events⟩⟩

end ControlType

namespace Component

/-- Two components of one type with the same details that are neither values nor handlers. -/
structure SameFrame (component other : Component) : Prop where
  type_eq : other.controlType = component.controlType
  shape_eq : other.shape = component.shape
  url_eq : other.resolvedUrl = component.resolvedUrl
  children_eq : other.children = component.children

theorem SameFrame.refl (component : Component) : component.SameFrame component :=
  ⟨rfl, rfl, rfl, rfl⟩

theorem SameFrame.trans {first second third : Component} (same : first.SameFrame second)
    (same' : second.SameFrame third) : first.SameFrame third where
  type_eq := same'.type_eq.trans same.type_eq
  shape_eq := same'.shape_eq.trans same.shape_eq
  url_eq := same'.url_eq.trans same.url_eq
  children_eq := same'.children_eq.trans same.children_eq

/-- What a name stands for is decided by the property that is declared for it. -/
theorem get?_eq_of_declared {component other : Component}
    (type : other.controlType = component.controlType) {name : Text} {property : Property}
    (found : component.controlType.property? name = some property)
    (same : other.get? property.name = component.get? property.name) :
    other.get? name = component.get? name := by
  have itself := ControlType.property?_self found
  unfold get? at same ⊢
  rw [type, itself] at same
  rw [type, found]
  exact same

theorem handler?_eq_of_declared {component other : Component}
    (type : other.controlType = component.controlType) {name event : Text}
    (found : component.controlType.event? name = some event)
    (same : other.handlers.get? event = component.handlers.get? event) :
    other.handler? name = component.handler? name := by
  unfold handler?
  rw [type, found]
  exact same

/-- Two components that no property, no handler and no kept detail tells apart. -/
structure Alike (component other : Component) : Prop extends SameFrame component other where
  properties : ∀ name, other.get? name = component.get? name
  handlers : ∀ event, other.handler? event = component.handler? event

theorem Alike.refl (component : Component) : component.Alike component :=
  ⟨.refl component, fun _ => rfl, fun _ => rfl⟩

theorem Alike.trans {first second third : Component} (alike : first.Alike second)
    (alike' : second.Alike third) : first.Alike third where
  toSameFrame := alike.toSameFrame.trans alike'.toSameFrame
  properties name := (alike'.properties name).trans (alike.properties name)
  handlers event := (alike'.handlers event).trans (alike.handlers event)

/-- It is enough to compare the names that are declared. -/
theorem SameFrame.alike {component other : Component} (same : component.SameFrame other)
    (properties : ∀ property, component.controlType.property? property.name = some property →
      other.get? property.name = component.get? property.name)
    (handlers : ∀ event, component.controlType.event? event = some event →
      other.handlers.get? event = component.handlers.get? event) : component.Alike other where
  toSameFrame := same
  properties name := by
    cases declared : component.controlType.property? name with
    | none =>
        unfold get?
        rw [same.type_eq, declared]
    | some property =>
        exact get?_eq_of_declared same.type_eq declared
          (properties property (ControlType.property?_self declared))
  handlers name := by
    cases declared : component.controlType.event? name with
    | none =>
        unfold handler?
        rw [same.type_eq, declared]
        rfl
    | some event =>
        exact handler?_eq_of_declared same.type_eq declared
          (handlers event (ControlType.event?_self declared))

/-- Two components that no kept detail, and no property and no handler of a name that is declared in
one spelling, tells apart. -/
structure Similar (component other : Component) : Prop extends SameFrame component other where
  properties : ∀ name property, component.controlType.property? name = some property →
    component.controlType.SpellsProperty property.name → other.get? name = component.get? name
  handlers : ∀ name event, component.controlType.event? name = some event →
    component.controlType.SpellsEvent event → other.handler? name = component.handler? name

theorem SameFrame.similar {component other : Component} (same : component.SameFrame other)
    (properties : ∀ property, component.controlType.property? property.name = some property →
      component.controlType.SpellsProperty property.name →
      other.get? property.name = component.get? property.name)
    (handlers : ∀ event, component.controlType.event? event = some event →
      component.controlType.SpellsEvent event →
      other.handlers.get? event = component.handlers.get? event) : component.Similar other where
  toSameFrame := same
  properties _ property found spelled :=
    get?_eq_of_declared same.type_eq found
      (properties property (ControlType.property?_self found) spelled)
  handlers _ event found spelled :=
    handler?_eq_of_declared same.type_eq found
      (handlers event (ControlType.event?_self found) spelled)

theorem Similar.refl (component : Component) : component.Similar component :=
  ⟨.refl component, fun _ _ _ _ => rfl, fun _ _ _ _ => rfl⟩

theorem Similar.trans {first second third : Component} (similar : first.Similar second)
    (similar' : second.Similar third) : first.Similar third where
  toSameFrame := similar.toSameFrame.trans similar'.toSameFrame
  properties name property declared spelled := by
    have same := similar.properties name property declared spelled
    rw [← similar.type_eq] at declared spelled
    exact (similar'.properties name property declared spelled).trans same
  handlers name event declared spelled := by
    have same := similar.handlers name event declared spelled
    rw [← similar.type_eq] at declared spelled
    exact (similar'.handlers name event declared spelled).trans same

/-- What nothing tells apart is similar. -/
theorem Alike.similar {component other : Component} (alike : component.Alike other) :
    component.Similar other :=
  ⟨alike.toSameFrame, fun name _ _ _ => alike.properties name,
    fun name _ _ _ => alike.handlers name⟩

/-- If every name is declared in one spelling, nothing tells similar components apart. -/
theorem Similar.alike {component other : Component} (similar : component.Similar other)
    (spelled : component.controlType.SpelledOnce) : component.Alike other := by
  refine similar.toSameFrame.alike (fun property declared => ?_) (fun event declared => ?_)
  · exact similar.properties property.name property declared
      (spelled.properties property (ControlType.mem_of_property? declared))
  · have same := similar.handlers event event declared
      (spelled.events event (ControlType.mem_of_event? declared))
    unfold handler? at same
    rw [similar.type_eq, declared] at same
    exact same

namespace Reading

/-! ## What a tag says about itself -/

/-- Two readings for components of one type that have noted the same. -/
structure Parallel (reading other : Reading) : Prop where
  type_eq : other.component.controlType = reading.component.controlType
  stated_eq : other.stated = reading.stated
  bound_eq : other.bound = reading.bound
  issues_eq : other.issues = reading.issues

theorem issues_applyProperty {reading : Reading} {property : Property}
    (declared : reading.component.controlType.property? property.name = some property)
    (tag : Tag) (written : Text) :
    (reading.applyProperty tag property written).issues =
      match property.read written with
      | .ok _ => reading.issues
      | .error cause =>
          reading.issues ++ [Issue.ofTag tag (property.name ++ ": " ++ cause.message)] := by
  unfold applyProperty
  dsimp only
  cases reads : property.read written with
  | error cause => rfl
  | ok value =>
      have kind := checkKind_of_read reads
      dsimp only
      split
      · rfl
      · simp only [set, Component.property, declared, kind]

/-- What an attribute is noted for does not depend on the component. -/
theorem Parallel.apply {reading other : Reading} (parallel : Parallel reading other) (tag : Tag)
    (entry : Attribute) : Parallel (apply tag reading entry) (apply tag other entry) := by
  obtain ⟨type, stated, bound, issues⟩ := parallel
  rcases apply_cases tag reading entry with
    ⟨property, states, _, same⟩ | ⟨event, binds, _, same⟩ | ⟨unstated, unbound, same⟩
  · rcases apply_cases tag other entry with
      ⟨property', states', _, same'⟩ | ⟨_, _, unstated, _⟩ | ⟨unstated, _, _⟩
    · rw [type] at states'
      obtain rfl := states.unique states'
      have declared := declared_of_states states
      have declared' : other.component.controlType.property? property.name = some property := by
        rw [type, declared]
      obtain ⟨type', _, noted, kept⟩ := applyProperty_frame reading tag property entry.value
      obtain ⟨type'', _, noted', kept'⟩ := applyProperty_frame other tag property entry.value
      rw [same, same']
      refine ⟨?_, ?_, ?_, ?_⟩
      · rw [type', type'', type]
      · rw [noted, noted', stated]
      · rw [kept, kept', bound]
      · rw [issues_applyProperty declared, issues_applyProperty declared', issues]
    · rw [type] at unstated
      exact absurd states (unstated property)
    · rw [type] at unstated
      exact absurd states (unstated property)
  · rcases apply_cases tag other entry with
      ⟨_, _, unbound, _⟩ | ⟨event', binds', _, same'⟩ | ⟨_, unbound, _⟩
    · rw [type] at unbound
      exact absurd binds (unbound event)
    · rw [type] at binds'
      obtain rfl := binds.unique binds'
      have declared := declared_of_binds binds
      have declared' : other.component.controlType.event? event = some event := by
        rw [type, declared]
      rw [same, same', applyEvent_eq declared, applyEvent_eq declared']
      exact ⟨type, stated, congrArg (· ++ [event]) bound, issues⟩
    · rw [type] at unbound
      exact absurd binds (unbound event)
  · rcases apply_cases tag other entry with
      ⟨property, states, _, _⟩ | ⟨event, binds, _, _⟩ | ⟨_, _, same'⟩
    · rw [type] at states
      exact absurd states (unstated property)
    · rw [type] at binds
      exact absurd binds (unbound event)
    · rw [same, same']
      exact ⟨type, stated, bound, issues⟩

theorem Parallel.foldl {reading other : Reading} (parallel : Parallel reading other) (tag : Tag)
    (entries : List Attribute) :
    Parallel (entries.foldl (Reading.apply tag) reading)
      (entries.foldl (Reading.apply tag) other) := by
  induction entries generalizing reading other with
  | nil => exact parallel
  | cons entry entries ih => exact ih (parallel.apply tag entry)

/-- Putting back a property of the type cannot fail. -/
theorem issues_restore {reading : Reading} {property : Property}
    (member : property ∈ reading.component.controlType.properties) (tag : Tag) :
    (restore tag reading property).issues = reading.issues := by
  have known : (reading.component.controlType.property? property.name).isSome = true := by
    unfold ControlType.property?
    rw [List.find?_isSome]
    exact ⟨property, member, Text.sameName_refl _⟩
  obtain ⟨declared, found⟩ := Option.isSome_iff_exists.mp known
  unfold restore
  split
  · rfl
  · simp only [reset, Component.property, found]

theorem issues_restores {properties : List Property} {reading : Reading}
    (members : properties ⊆ reading.component.controlType.properties) (tag : Tag) :
    (properties.foldl (restore tag) reading).issues = reading.issues := by
  induction properties generalizing reading with
  | nil => rfl
  | cons property properties ih =>
      obtain ⟨type, _⟩ := restore_frame tag reading property
      rw [List.foldl_cons, ih, issues_restore (members List.mem_cons_self)]
      rw [type]
      exact fun _ member => members (List.mem_cons_of_mem _ member)

theorem issues_releases (events : List Text) (reading : Reading) :
    (events.foldl release reading).issues = reading.issues := by
  induction events generalizing reading with
  | nil => rfl
  | cons event events ih =>
      rw [List.foldl_cons, ih]
      unfold release
      split <;> rfl

theorem issues_restoreRest (reading : Reading) (tag : Tag) :
    (reading.restoreRest tag).issues = reading.issues := by
  unfold restoreRest
  dsimp only
  rw [issues_releases, issues_restores (fun _ member => member)]

end Reading

open Reading

/-- What a tag leaves unapplied depends on the type of the component only. -/
theorem issues_readTag (component : Component) (element : Element) (restoring : Bool) :
    (component.readTag element restoring).2 =
      ((fresh component.controlType).readTag element false).2 := by
  have parallel : Parallel ⟨fresh component.controlType, [], [], []⟩ ⟨component, [], [], []⟩ :=
    ⟨rfl, rfl, rfl, rfl⟩
  have noted := (parallel.foldl element.toTag element.toTag.attributes).issues_eq
  unfold readTag
  cases restoring with
  | false => exact noted
  | true =>
      simp only [if_true, Bool.false_eq_true, if_false]
      rw [issues_restoreRest]
      exact noted

/-! ## What the tag does not touch -/

/-- A reading that has changed nothing but values and handlers. -/
def Reading.Beside (component : Component) (reading : Reading) : Prop :=
  reading.component.shape = component.shape ∧
    reading.component.resolvedUrl = component.resolvedUrl ∧
    reading.component.children = component.children

theorem Reading.Beside.apply {component : Component} {reading : Reading}
    (beside : Beside component reading) (tag : Tag) (entry : Attribute) :
    Beside component (apply tag reading entry) := by
  rcases apply_cases tag reading entry with
    ⟨property, _, _, same⟩ | ⟨event, binds, _, same⟩ | ⟨_, _, same⟩
  · rw [same]
    unfold applyProperty
    dsimp only
    split
    · exact beside
    · split
      · exact beside
      · split
        · next changed done =>
            obtain ⟨_, _, rfl⟩ := set_inv done
            exact beside
        · exact beside
  · rw [same, applyEvent_eq (declared_of_binds binds)]
    exact beside
  · rw [same]
    exact beside

theorem Reading.Beside.restore {component : Component} {reading : Reading}
    (beside : Beside component reading) (tag : Tag) (property : Property) :
    Beside component (restore tag reading property) := by
  unfold Reading.restore
  split
  · exact beside
  · split
    · next changed done =>
        obtain ⟨_, _, rfl⟩ := reset_inv done
        exact beside
    · exact beside

theorem Reading.Beside.release {component : Component} {reading : Reading}
    (beside : Beside component reading) (event : Text) :
    Beside component (reading.release event) := by
  unfold Reading.release
  split
  · exact beside
  · unfold unbind
    split <;> exact beside

/-- What every step of a fold keeps, the fold keeps. -/
theorem Reading.Beside.foldl {α : Type} {component : Component} {step : Reading → α → Reading}
    (keeps : ∀ {reading}, Beside component reading → ∀ entry,
      Beside component (step reading entry)) {reading : Reading}
    (beside : Beside component reading) (entries : List α) :
    Beside component (entries.foldl step reading) := by
  induction entries generalizing reading with
  | nil => exact beside
  | cons entry entries ih => exact ih (keeps beside entry)

/-- A tag has no say in the address of a link and the children, and its shape replaces the one that
the component had. -/
theorem readTag_frame (component : Component) (element : Element) (restoring : Bool) :
    (component.readTag element restoring).1.resolvedUrl = component.resolvedUrl ∧
      (component.readTag element restoring).1.children = component.children ∧
      (component.readTag element restoring).1.shape =
        if component.controlType.look = .generic then shapeOf element else component.shape := by
  have start : Beside component ⟨component, [], [], []⟩ := ⟨rfl, rfl, rfl⟩
  have applied := Reading.Beside.foldl
    (fun beside entry => Reading.Beside.apply beside element.toTag entry) start
    element.toTag.attributes
  have bound : ∀ reading : Reading, reading.component.controlType = component.controlType →
      Beside component reading →
      (reading.component.bindTag element).resolvedUrl = component.resolvedUrl ∧
        (reading.component.bindTag element).children = component.children ∧
        (reading.component.bindTag element).shape =
          if component.controlType.look = .generic then shapeOf element
          else component.shape := by
    rintro reading type ⟨shape, url, children⟩
    unfold bindTag
    split
    · next generic =>
        rw [type] at generic
        rw [if_pos generic]
        exact ⟨url, children, rfl⟩
    · next other =>
        rw [type] at other
        rw [if_neg other]
        exact ⟨url, children, shape⟩
  unfold readTag
  dsimp only
  cases restoring with
  | false =>
      simp only [Bool.false_eq_true, if_false]
      exact bound _ (controlType_foldl _ _ _) applied
  | true =>
      simp only [if_true]
      refine bound _ ?_ ?_
      · rw [restoreRest_frame, controlType_foldl]
      · unfold restoreRest
        dsimp only
        exact Reading.Beside.foldl Reading.Beside.release
          (Reading.Beside.foldl (fun beside entry => Reading.Beside.restore beside element.toTag
            entry) applied _) _

/-! ## The second time -/

namespace Reading

/-- What the attributes give a property does not change when they give it again. -/
theorem lastValue_again (controlType : ControlType) (property : Property) (before : Option Value)
    (entries : List Attribute) :
    lastValue controlType property (lastValue controlType property before entries) entries =
      lastValue controlType property before entries := by
  by_cases converts : ∃ entry ∈ entries, States controlType property entry ∧
      ∃ value, property.read entry.value = .ok value
  · exact lastValue_of_converts converts _ _
  · have idle : ∀ held, lastValue controlType property held entries = held := by
      unfold lastValue
      induction entries with
      | nil => exact fun _ => rfl
      | cons entry entries ih =>
          intro held
          rw [List.foldl_cons, ih fun ⟨entry', member, found⟩ =>
            converts ⟨entry', List.mem_cons_of_mem _ member, found⟩]
          split
          · next states =>
              cases reads : property.read entry.value with
              | error cause => rfl
              | ok value =>
                  exact absurd ⟨entry, List.mem_cons_self, states, value, reads⟩ converts
          · rfl
    rw [idle, idle]

theorem lastHandler_again (controlType : ControlType) (event : Text) (before : Option Text)
    (entries : List Attribute) :
    lastHandler controlType event (lastHandler controlType event before entries) entries =
      lastHandler controlType event before entries := by
  by_cases bound : ∃ entry ∈ entries, Binds controlType event entry
  · exact lastHandler_of_bound bound _ _
  · rw [lastHandler_of_unbound bound, lastHandler_of_unbound bound]

/-- What the attributes of a tag note for a type. -/
def noted (controlType : ControlType) (element : Element) : Reading :=
  element.toTag.attributes.foldl (Reading.apply element.toTag) ⟨fresh controlType, [], [], []⟩

/-- The property is put back when the tag is read: it, or one that differs from it in letter case
only, is not stated. -/
def PutsBack (controlType : ControlType) (element : Element) (property : Property) : Prop :=
  ∃ other ∈ controlType.properties,
    other.name.sameName property.name = true ∧ other.name ∉ (noted controlType element).stated

/-- The event loses its handler when the tag is read. -/
def Clears (controlType : ControlType) (element : Element) (event : Text) : Prop :=
  ∃ other ∈ controlType.events,
    other.sameName event = true ∧ other ∉ (noted controlType element).bound

theorem parallel_noted (component : Component) (element : Element) :
    Parallel (noted component.controlType element)
      (element.toTag.attributes.foldl (Reading.apply element.toTag) ⟨component, [], [], []⟩) := by
  have parallel : Parallel ⟨fresh component.controlType, [], [], []⟩ ⟨component, [], [], []⟩ :=
    ⟨rfl, rfl, rfl, rfl⟩
  exact parallel.foldl element.toTag element.toTag.attributes

theorem get?_restoreRest {reading : Reading} {property : Property}
    (declared : reading.component.controlType.property? property.name = some property)
    (tag : Tag) :
    (reading.restoreRest tag).component.get? property.name =
      if ∃ other ∈ reading.component.controlType.properties,
          other.name.sameName property.name = true ∧ other.name ∉ reading.stated then
        property.initial?
      else reading.component.get? property.name := by
  obtain ⟨type, values, _⟩ := releases_frame reading.component.controlType.events
    (reading.component.controlType.properties.foldl (restore tag) reading)
  rw [← get?_restores declared tag]
  unfold restoreRest get?
  dsimp only
  rw [type, values]

theorem handlers_restoreRest {reading : Reading} {event : Text}
    (declared : reading.component.controlType.event? event = some event) (tag : Tag) :
    (reading.restoreRest tag).component.handlers.get? event =
      if ∃ other ∈ reading.component.controlType.events,
          other.sameName event = true ∧ other ∉ reading.bound then none
      else reading.component.handlers.get? event := by
  obtain ⟨type, handlers, _, bound⟩ := restores_frame tag
    reading.component.controlType.properties reading
  unfold restoreRest
  dsimp only
  rw [handlers_releases (by rw [type, declared]), bound, handlers]

end Reading

section

variable {component : Component} {element : Element}

theorem get?_readTag {property : Property}
    (declared : component.controlType.property? property.name = some property) :
    (component.readTag element false).1.get? property.name =
      lastValue component.controlType property (component.get? property.name)
        element.attributes := by
  unfold readTag
  simp only [Bool.false_eq_true, if_false]
  rw [get?_bindTag]
  exact (@get?_foldl ⟨component, [], [], []⟩ property declared element.toTag
    element.attributes).1

theorem handlers_readTag (event : Text) :
    (component.readTag element false).1.handlers.get? event =
      lastHandler component.controlType event (component.handlers.get? event)
        element.attributes := by
  unfold readTag
  simp only [Bool.false_eq_true, if_false]
  rw [(bindTag_frame _ _).2.2]
  exact (handlers_foldl ⟨component, [], [], []⟩ event element.toTag element.attributes).1

/-- With restoring, a property is put back or gets the value of the tag. -/
theorem get?_readTag_cases {property : Property}
    (declared : component.controlType.property? property.name = some property) :
    (PutsBack component.controlType element property ∧
        (component.readTag element true).1.get? property.name = property.initial?) ∨
      (¬ PutsBack component.controlType element property ∧
        (component.readTag element true).1.get? property.name =
          lastValue component.controlType property (component.get? property.name)
            element.attributes) := by
  obtain ⟨type, stated, _⟩ := parallel_noted component element
  have folded := (@get?_foldl ⟨component, [], [], []⟩ property declared element.toTag
    element.attributes).1
  have type' : (noted component.controlType element).component.controlType =
      component.controlType := controlType_foldl _ _ _
  have restored := @get?_restoreRest (element.toTag.attributes.foldl
    (Reading.apply element.toTag) ⟨component, [], [], []⟩) property
      (by rw [type, type', declared]) element.toTag
  rw [type, type', stated] at restored
  unfold readTag
  simp only [if_true]
  rw [get?_bindTag, restored]
  by_cases back : PutsBack component.controlType element property
  · exact .inl ⟨back, if_pos back⟩
  · exact .inr ⟨back, (if_neg back).trans folded⟩

/-- With restoring, an event loses its handler or gets the one of the tag. -/
theorem handlers_readTag_cases {event : Text}
    (declared : component.controlType.event? event = some event) :
    (Clears component.controlType element event ∧
        (component.readTag element true).1.handlers.get? event = none) ∨
      (¬ Clears component.controlType element event ∧
        (component.readTag element true).1.handlers.get? event =
          lastHandler component.controlType event (component.handlers.get? event)
            element.attributes) := by
  obtain ⟨type, _, bound, _⟩ := parallel_noted component element
  have folded := (handlers_foldl ⟨component, [], [], []⟩ event element.toTag
    element.attributes).1
  have type' : (noted component.controlType element).component.controlType =
      component.controlType := controlType_foldl _ _ _
  have restored := @handlers_restoreRest (element.toTag.attributes.foldl
    (Reading.apply element.toTag) ⟨component, [], [], []⟩) event
      (by rw [type, type', declared]) element.toTag
  rw [type, type', bound] at restored
  unfold readTag
  simp only [if_true]
  rw [(bindTag_frame _ _).2.2, restored]
  by_cases clears : Clears component.controlType element event
  · exact .inl ⟨clears, if_pos clears⟩
  · exact .inr ⟨clears, (if_neg clears).trans folded⟩

/-- Reading a tag again leaves all but values and handlers. -/
theorem sameFrame_readTag_again {earlier : Component} {restoring : Bool}
    (same : component = (earlier.readTag element restoring).1) :
    component.SameFrame (component.readTag element true).1 := by
  obtain ⟨url, children, shape⟩ := readTag_frame component element true
  refine ⟨controlType_readTag component element true, ?_, url, children⟩
  rw [shape]
  split
  · next generic =>
      obtain ⟨_, _, shape'⟩ := readTag_frame earlier element restoring
      rw [same, controlType_readTag] at generic
      rw [same, shape', if_pos generic]
  · rfl

/-- Nothing tells a component into which a tag has been read with restoring from what it is when the
tag is read once more. -/
theorem alike_readTag_again {earlier : Component}
    (same : component = (earlier.readTag element true).1) :
    component.Alike (component.readTag element true).1 := by
  have type : component.controlType = earlier.controlType := by
    rw [same, controlType_readTag]
  refine (sameFrame_readTag_again same).alike ?_ ?_
  · intro property declared
    have before := @get?_readTag_cases earlier element property (by rw [← type, declared])
    rw [← same, ← type] at before
    rcases @get?_readTag_cases _ element _ declared with ⟨back, after⟩ | ⟨kept, after⟩
    · rcases before with ⟨_, before⟩ | ⟨kept, _⟩
      · rw [after, before]
      · exact absurd back kept
    · rcases before with ⟨back, _⟩ | ⟨_, before⟩
      · exact absurd back kept
      · rw [after, before, lastValue_again]
  · intro event declared
    have before := @handlers_readTag_cases earlier element event (by rw [← type, declared])
    rw [← same, ← type] at before
    rcases @handlers_readTag_cases _ element _ declared with
      ⟨clears, after⟩ | ⟨kept, after⟩
    · rcases before with ⟨_, before⟩ | ⟨kept, _⟩
      · rw [after, before]
      · exact absurd clears kept
    · rcases before with ⟨clears, _⟩ | ⟨_, before⟩
      · exact absurd clears kept
      · rw [after, before, lastHandler_again]

/-- A tag that does not state a property leaves a fresh component with the declared value. -/
theorem lastValue_of_putsBack {controlType : ControlType} {property : Property}
    (declared : controlType.property? property.name = some property)
    (spelled : controlType.SpellsProperty property.name)
    (back : PutsBack controlType element property) (before : Option Value) :
    lastValue controlType property before element.attributes = before := by
  obtain ⟨other, member, same, unlisted⟩ := back
  rw [spelled other member same] at unlisted
  refine lastValue_of_unstated (fun stated => unlisted ?_) before
  exact (@get?_foldl ⟨fresh controlType, [], [], []⟩ property declared element.toTag
    element.attributes).2.mpr (.inr stated)

theorem lastHandler_of_clears {controlType : ControlType} {event : Text}
    (spelled : controlType.SpellsEvent event) (clears : Clears controlType element event)
    (before : Option Text) :
    lastHandler controlType event before element.attributes = before := by
  obtain ⟨other, member, same, unlisted⟩ := clears
  rw [spelled other member same] at unlisted
  refine lastHandler_of_unbound (fun bound => unlisted ?_) before
  exact (handlers_foldl ⟨fresh controlType, [], [], []⟩ event element.toTag
    element.attributes).2.mpr (.inr bound)

/-- A fresh component into which a tag has been read holds what the tag gives it. -/
theorem similar_readTag_fresh {controlType : ControlType}
    (same : component = ((fresh controlType).readTag element false).1) :
    component.Similar (component.readTag element true).1 := by
  have type : component.controlType = controlType := by
    rw [same, controlType_readTag]
    rfl
  refine (sameFrame_readTag_again same).similar ?_ ?_
  · intro property declared spelled
    have declared' : (fresh controlType).controlType.property? property.name = some property := by
      rw [type] at declared
      exact declared
    have before := @get?_readTag (fresh controlType) element property declared'
    rw [← same, get?_eq declared'] at before
    rcases @get?_readTag_cases _ element _ declared with ⟨back, after⟩ | ⟨_, after⟩
    · rw [type] at back declared spelled
      have kept := lastValue_of_putsBack declared spelled back property.initial?
      rw [after, before]
      exact kept.symm
    · rw [after, before, type]
      exact lastValue_again _ _ _ _
  · intro event declared spelled
    have before := @handlers_readTag (fresh controlType) element event
    rw [← same] at before
    rcases @handlers_readTag_cases _ element _ declared with ⟨clears, after⟩ | ⟨_, after⟩
    · rw [type] at clears spelled
      have kept := lastHandler_of_clears spelled clears none
      rw [after, before]
      exact kept.symm
    · rw [after, before, type]
      exact lastHandler_again _ _ _ _

end

end Component

end PageDesigner
