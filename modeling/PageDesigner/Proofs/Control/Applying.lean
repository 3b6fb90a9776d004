import PageDesigner.Control.Tag

/-!
# What the attributes of a tag make of a component

The attributes of a tag are applied in order.  A property ends up with the value of the
last attribute that states it in a form that converts, and an event with the handler of
the last attribute that binds it (`get?_foldl`, `handlers_foldl`).  So what the component
held before counts only when there is no such attribute (`lastValue_of_converts`,
`lastHandler_of_bound`).
-/

namespace PageDesigner

namespace ControlType

/-- No property is spelled like this one but for letter case. -/
def SpellsProperty (controlType : ControlType) (name : Text) : Prop :=
  ∀ property ∈ controlType.properties, property.name.sameName name = true → property.name = name

/-- No event is spelled like this one but for letter case. -/
def SpellsEvent (controlType : ControlType) (name : Text) : Prop :=
  ∀ event ∈ controlType.events, event.sameName name = true → event = name

theorem property?_congr {controlType : ControlType} {name name' : Text}
    (same : name.sameName name' = true) :
    controlType.property? name = controlType.property? name' := by
  unfold property?
  congr
  funext property
  simp only [Text.sameName, Text.sameName_iff.mp same]

theorem event?_congr {controlType : ControlType} {name name' : Text}
    (same : name.sameName name' = true) :
    controlType.event? name = controlType.event? name' := by
  unfold event?
  congr
  funext event
  simp only [Text.sameName, Text.sameName_iff.mp same]

theorem mem_of_property? {controlType : ControlType} {name : Text} {property : Property}
    (found : controlType.property? name = some property) : property ∈ controlType.properties :=
  List.mem_of_find?_eq_some found

theorem mem_of_event? {controlType : ControlType} {name event : Text}
    (found : controlType.event? name = some event) : event ∈ controlType.events :=
  List.mem_of_find?_eq_some found

/-- A property is found by its own name. -/
theorem property?_self {controlType : ControlType} {name : Text} {property : Property}
    (found : controlType.property? name = some property) :
    controlType.property? property.name = some property := by
  have same : property.name.sameName name = true :=
    List.find?_some (p := fun property : Property => property.name.sameName name) found
  rw [property?_congr same, found]

theorem event?_self {controlType : ControlType} {name event : Text}
    (found : controlType.event? name = some event) : controlType.event? event = some event := by
  have same : event.sameName name = true :=
    List.find?_some (p := fun event : Text => event.sameName name) found
  rw [event?_congr same, found]

end ControlType

namespace Component

/-! ## Properties and handlers of a changed component -/

/-- What a property reads as, by its declared name. -/
theorem get?_eq {component : Component} {property : Property}
    (found : component.controlType.property? property.name = some property) :
    component.get? property.name = (component.values.get? property.name).or property.initial? := by
  unfold get?
  rw [found]

theorem get?_withValues {component : Component} {property : Property}
    (found : component.controlType.property? property.name = some property)
    (values : Table Value) :
    { component with values }.get? property.name =
      (values.get? property.name).or property.initial? :=
  @get?_eq { component with values } property found

/-- A value that is not the declared one is that of a declared property. -/
theorem exists_declared {component : Component} {name : Text} {value : Value}
    (held : component.get? name = some value) (other : component.isInitial name = false) :
    ∃ property, component.controlType.property? name = some property ∧
      component.get? property.name = some value ∧ property.isInitial value = false := by
  unfold isInitial at other
  cases declares : component.controlType.property? name with
  | none =>
      unfold get? at held
      rw [declares] at held
      cases held
  | some property =>
      rw [declares, held] at other
      refine ⟨property, rfl, ?_, other⟩
      rw [get?_eq (ControlType.property?_self declares), ← held]
      unfold get?
      rw [declares]

theorem set_inv {component changed : Component} {name : Text} {value : Value} {old? : Option Value}
    (done : component.set name value = .ok (old?, changed)) :
    ∃ property, component.controlType.property? name = some property ∧
      changed = { component with values := Table.put property.name value component.values } := by
  unfold set Component.property at done
  cases found : component.controlType.property? name with
  | none => rw [found] at done; cases done
  | some property =>
      rw [found] at done
      dsimp only at done
      split at done
      · cases done
      · obtain ⟨-, rfl⟩ := Prod.mk.inj (Except.ok.inj done)
        exact ⟨property, rfl, rfl⟩

/-- A value that was read from markup has the kind of its property. -/
theorem checkKind_of_read {property : Property} {written : Text} {value : Value}
    (reads : property.read written = .ok value) : property.checkKind value = .ok () := by
  unfold Property.read at reads
  unfold Property.checkKind Property.kind?
  split at reads
  · next converter converts =>
      have kinds : converter.kind = value.kind := by
        cases converter <;> unfold Converter.read at reads <;> dsimp only at reads
        · cases reads; rfl
        · split at reads <;> cases reads
          rfl
        · split at reads
          · cases reads; rfl
          · split at reads <;> cases reads
            rfl
        · split at reads <;> cases reads
          rfl
      simp [converts, kinds]
  · cases reads

end Component

namespace Component.Reading

/-- The attribute states the property. -/
def States (controlType : ControlType) (property : Property) (entry : Attribute) : Prop :=
  (entry.name.text.sameName "id" || entry.name.text.sameName "runat") = false ∧
    controlType.property? entry.name.text = some property

instance (controlType : ControlType) (property : Property) (entry : Attribute) :
    Decidable (States controlType property entry) :=
  inferInstanceAs (Decidable (_ ∧ _))

/-- The attribute binds the event. -/
def Binds (controlType : ControlType) (event : Text) (entry : Attribute) : Prop :=
  (entry.name.text.sameName "id" || entry.name.text.sameName "runat") = false ∧
    controlType.property? entry.name.text = none ∧
    event? controlType entry.name.text = some event

instance (controlType : ControlType) (event : Text) (entry : Attribute) :
    Decidable (Binds controlType event entry) :=
  inferInstanceAs (Decidable (_ ∧ _))

/-- The value that the attributes give the property, starting from what it held before. -/
def lastValue (controlType : ControlType) (property : Property) (before : Option Value)
    (entries : List Attribute) : Option Value :=
  entries.foldl
    (fun held entry =>
      if States controlType property entry then
        match property.read entry.value with
        | .ok value => some value
        | .error _ => held
      else held) before

/-- The handler that the attributes give the event, starting from the one before. -/
def lastHandler (controlType : ControlType) (event : Text) (before : Option Text)
    (entries : List Attribute) : Option Text :=
  entries.foldl
    (fun held entry => if Binds controlType event entry then some entry.value else held) before

/-! ## Applying one attribute -/

/-- An attribute that states a property has its name. -/
theorem States.named {controlType : ControlType} {property : Property} {entry : Attribute}
    (states : States controlType property entry) : entry.name.isWritten property.name = true := by
  have same : property.name.sameName entry.name.text = true :=
    List.find?_some (p := fun other : Property => other.name.sameName entry.name.text) states.2
  rw [Text.sameName_comm] at same
  exact same

theorem States.unique {controlType : ControlType} {property other : Property} {entry : Attribute}
    (states : States controlType property entry) (states' : States controlType other entry) :
    property = other :=
  Option.some.inj (states.2.symm.trans states'.2)

theorem Binds.unique {controlType : ControlType} {event other : Text} {entry : Attribute}
    (binds : Binds controlType event entry) (binds' : Binds controlType other entry) :
    event = other :=
  Option.some.inj (binds.2.2.symm.trans binds'.2.2)

/-- An attribute states a property, binds an event, or means nothing to the type. -/
theorem apply_cases (tag : Tag) (reading : Reading) (entry : Attribute) :
    (∃ property, States reading.component.controlType property entry ∧
        (∀ event, ¬ Binds reading.component.controlType event entry) ∧
        apply tag reading entry = reading.applyProperty tag property entry.value) ∨
      (∃ event, Binds reading.component.controlType event entry ∧
        (∀ property, ¬ States reading.component.controlType property entry) ∧
        apply tag reading entry = reading.applyEvent tag event entry.value) ∨
      ((∀ property, ¬ States reading.component.controlType property entry) ∧
        (∀ event, ¬ Binds reading.component.controlType event entry) ∧
        apply tag reading entry = reading) := by
  unfold apply
  dsimp only
  by_cases wiring : (entry.name.text.sameName "id" || entry.name.text.sameName "runat") = true
  · refine .inr (.inr ⟨?_, ?_, by rw [if_pos wiring]⟩)
    · rintro property ⟨plain, _⟩
      rw [wiring] at plain
      cases plain
    · rintro event ⟨plain, _⟩
      rw [wiring] at plain
      cases plain
  have plain : (entry.name.text.sameName "id" || entry.name.text.sameName "runat") = false := by
    simpa using wiring
  rw [if_neg wiring]
  cases found : reading.component.controlType.property? entry.name.text with
  | some property =>
      refine .inl ⟨property, ⟨plain, found⟩, ?_, rfl⟩
      rintro event ⟨_, missing, _⟩
      rw [found] at missing
      cases missing
  | none =>
      have unstated : ∀ property, ¬ States reading.component.controlType property entry := by
        rintro property ⟨_, found'⟩
        rw [found] at found'
        cases found'
      cases bound : event? reading.component.controlType entry.name.text with
      | some event => exact .inr (.inl ⟨event, ⟨plain, found, bound⟩, unstated, rfl⟩)
      | none =>
          refine .inr (.inr ⟨unstated, ?_, rfl⟩)
          rintro event ⟨_, _, bound'⟩
          rw [bound] at bound'
          cases bound'

/-- What stays the same, and what is noted, when an attribute states a property. -/
theorem applyProperty_frame (reading : Reading) (tag : Tag) (property : Property) (written : Text) :
    (reading.applyProperty tag property written).component.controlType =
        reading.component.controlType ∧
      (reading.applyProperty tag property written).component.handlers =
        reading.component.handlers ∧
      (reading.applyProperty tag property written).stated = reading.stated ++ [property.name] ∧
      (reading.applyProperty tag property written).bound = reading.bound := by
  unfold applyProperty
  dsimp only
  split
  · exact ⟨rfl, rfl, rfl, rfl⟩
  · split
    · exact ⟨rfl, rfl, rfl, rfl⟩
    · split
      · next changed done =>
          obtain ⟨declared, _, rfl⟩ := set_inv done
          exact ⟨rfl, rfl, rfl, rfl⟩
      · exact ⟨rfl, rfl, rfl, rfl⟩

/-- A property that an attribute states reads as the value that converts last. -/
theorem get?_applyProperty_self {reading : Reading} {property : Property}
    (declared : reading.component.controlType.property? property.name = some property)
    (tag : Tag) (written : Text) :
    (reading.applyProperty tag property written).component.get? property.name =
      match property.read written with
      | .ok value => some value
      | .error _ => reading.component.get? property.name := by
  unfold applyProperty
  dsimp only
  cases reads : property.read written with
  | error cause => rfl
  | ok value =>
      dsimp only
      split
      · next held => exact held
      · have kind := checkKind_of_read reads
        simp only [set, Component.property, declared, kind]
        rw [get?_withValues declared, Table.get?_put_self, Option.some_or]

theorem get?_applyProperty_of_ne {reading : Reading} {property other : Property}
    (declared : reading.component.controlType.property? property.name = some property)
    (declared' : reading.component.controlType.property? other.name = some other)
    (differs : other.name ≠ property.name) (tag : Tag) (written : Text) :
    (reading.applyProperty tag property written).component.get? other.name =
      reading.component.get? other.name := by
  unfold applyProperty
  dsimp only
  split
  · rfl
  · split
    · rfl
    · split
      · next changed done =>
          obtain ⟨property', found, rfl⟩ := set_inv done
          rw [declared] at found
          obtain rfl := Option.some.inj found
          dsimp only
          rw [get?_withValues declared', get?_eq declared', Table.get?_put_of_ne _ _ differs]
      · rfl

theorem applyEvent_eq {reading : Reading} {event : Text}
    (declared : reading.component.controlType.event? event = some event) (tag : Tag)
    (handler : Text) :
    reading.applyEvent tag event handler =
      { reading with
        bound := reading.bound ++ [event]
        component := { reading.component with
          handlers := Table.put event handler reading.component.handlers } } := by
  simp [applyEvent, bind, declared]

theorem declared_of_states {controlType : ControlType} {property : Property} {entry : Attribute}
    (states : States controlType property entry) :
    controlType.property? property.name = some property :=
  ControlType.property?_self states.2

theorem declared_of_binds {controlType : ControlType} {event : Text} {entry : Attribute}
    (binds : Binds controlType event entry) : controlType.event? event = some event := by
  obtain ⟨_, _, found⟩ := binds
  unfold event? at found
  split at found
  · exact ControlType.event?_self found
  · cases found

/-- The type of a component does not change while its tag is read. -/
@[simp]
theorem controlType_apply (tag : Tag) (reading : Reading) (entry : Attribute) :
    (apply tag reading entry).component.controlType = reading.component.controlType := by
  rcases apply_cases tag reading entry with
    ⟨property, _, _, same⟩ | ⟨event, binds, _, same⟩ | ⟨_, _, same⟩
  · rw [same]
    exact (applyProperty_frame reading tag property entry.value).1
  · rw [same, applyEvent_eq (declared_of_binds binds)]
  · rw [same]

/-- What an attribute does to a property. -/
theorem get?_apply {reading : Reading} {property : Property}
    (declared : reading.component.controlType.property? property.name = some property)
    (tag : Tag) (entry : Attribute) :
    (apply tag reading entry).component.get? property.name =
        lastValue reading.component.controlType property (reading.component.get? property.name)
          [entry] ∧
      (property.name ∈ (apply tag reading entry).stated ↔
        property.name ∈ reading.stated ∨
          States reading.component.controlType property entry) := by
  unfold lastValue
  simp only [List.foldl_cons, List.foldl_nil]
  rcases apply_cases tag reading entry with
    ⟨other, states, _, same⟩ | ⟨event, binds, unstated, same⟩ | ⟨unstated, _, same⟩
  · obtain ⟨_, _, stated, _⟩ := applyProperty_frame reading tag other entry.value
    rw [same, stated]
    by_cases this : other = property
    · subst this
      rw [if_pos states, get?_applyProperty_self declared]
      exact ⟨rfl, by simp [states]⟩
    · have differs : property.name ≠ other.name := by
        intro same
        have found := declared_of_states states
        rw [← same, declared] at found
        exact this (Option.some.inj found).symm
      have unstated : ¬ States reading.component.controlType property entry := fun states' =>
        this (states.unique states')
      rw [if_neg unstated, get?_applyProperty_of_ne (declared_of_states states) declared differs]
      exact ⟨rfl, by simp [differs, unstated]⟩
  · rw [same, applyEvent_eq (declared_of_binds binds), if_neg (unstated property)]
    exact ⟨rfl, by simp [unstated property]⟩
  · rw [same, if_neg (unstated property)]
    exact ⟨rfl, by simp [unstated property]⟩

/-- What an attribute does to a handler. -/
theorem handlers_apply (reading : Reading) (event : Text) (tag : Tag) (entry : Attribute) :
    (apply tag reading entry).component.handlers.get? event =
        lastHandler reading.component.controlType event
          (reading.component.handlers.get? event) [entry] ∧
      (event ∈ (apply tag reading entry).bound ↔
        event ∈ reading.bound ∨ Binds reading.component.controlType event entry) := by
  unfold lastHandler
  simp only [List.foldl_cons, List.foldl_nil]
  rcases apply_cases tag reading entry with
    ⟨property, _, unbound, same⟩ | ⟨other, binds, _, same⟩ | ⟨_, unbound, same⟩
  · obtain ⟨_, handlers, _, bound⟩ := applyProperty_frame reading tag property entry.value
    rw [same, handlers, bound, if_neg (unbound event)]
    exact ⟨rfl, by simp [unbound event]⟩
  · rw [same, applyEvent_eq (declared_of_binds binds)]
    dsimp only
    by_cases this : other = event
    · subst this
      rw [if_pos binds, Table.get?_put_self]
      exact ⟨rfl, by simp [binds]⟩
    · have unbound : ¬ Binds reading.component.controlType event entry := fun binds' =>
        this (binds.unique binds')
      rw [if_neg unbound, Table.get?_put_of_ne _ _ (Ne.symm this)]
      exact ⟨rfl, by simp [Ne.symm this, unbound]⟩
  · rw [same, if_neg (unbound event)]
    exact ⟨rfl, by simp [unbound event]⟩

/-! ## Applying all attributes -/

@[simp]
theorem controlType_foldl (tag : Tag) (entries : List Attribute) (reading : Reading) :
    (entries.foldl (apply tag) reading).component.controlType = reading.component.controlType := by
  induction entries generalizing reading with
  | nil => rfl
  | cons entry entries ih => rw [List.foldl_cons, ih, controlType_apply]

theorem get?_foldl {reading : Reading} {property : Property}
    (declared : reading.component.controlType.property? property.name = some property)
    (tag : Tag) (entries : List Attribute) :
    (entries.foldl (apply tag) reading).component.get? property.name =
        lastValue reading.component.controlType property (reading.component.get? property.name)
          entries ∧
      (property.name ∈ (entries.foldl (apply tag) reading).stated ↔
        property.name ∈ reading.stated ∨
          ∃ entry ∈ entries, States reading.component.controlType property entry) := by
  induction entries generalizing reading with
  | nil => exact ⟨rfl, by simp⟩
  | cons entry entries ih =>
      have here := get?_apply declared tag entry
      have later := @ih (apply tag reading entry) (by rw [controlType_apply, declared])
      rw [controlType_apply, here.1, here.2] at later
      rw [List.foldl_cons, later.1, later.2]
      exact ⟨rfl, by simp [or_assoc]⟩

theorem handlers_foldl (reading : Reading) (event : Text) (tag : Tag) (entries : List Attribute) :
    (entries.foldl (apply tag) reading).component.handlers.get? event =
        lastHandler reading.component.controlType event
          (reading.component.handlers.get? event) entries ∧
      (event ∈ (entries.foldl (apply tag) reading).bound ↔
        event ∈ reading.bound ∨
          ∃ entry ∈ entries, Binds reading.component.controlType event entry) := by
  induction entries generalizing reading with
  | nil => exact ⟨rfl, by simp⟩
  | cons entry entries ih =>
      have here := handlers_apply reading event tag entry
      have later := ih (apply tag reading entry)
      rw [controlType_apply, here.1, here.2] at later
      rw [List.foldl_cons, later.1, later.2]
      exact ⟨rfl, by simp [or_assoc]⟩

/-- What the property held before does not matter once an attribute of it converts. -/
theorem lastValue_of_converts {controlType : ControlType} {property : Property}
    {entries : List Attribute}
    (converts : ∃ entry ∈ entries, States controlType property entry ∧
      ∃ value, property.read entry.value = .ok value) (before before' : Option Value) :
    lastValue controlType property before entries =
      lastValue controlType property before' entries := by
  unfold lastValue
  induction entries generalizing before before' with
  | nil => simp at converts
  | cons entry entries ih =>
      simp only [List.foldl_cons]
      by_cases later : ∃ entry ∈ entries, States controlType property entry ∧
          ∃ value, property.read entry.value = .ok value
      · exact ih later _ _
      · obtain ⟨entry', member, states, value, reads⟩ := converts
        rcases List.mem_cons.mp member with rfl | member
        · rw [if_pos states, if_pos states, reads]
        · exact absurd ⟨entry', member, states, value, reads⟩ later

theorem lastValue_of_unstated {controlType : ControlType} {property : Property}
    {entries : List Attribute}
    (unstated : ¬ ∃ entry ∈ entries, States controlType property entry) (before : Option Value) :
    lastValue controlType property before entries = before := by
  unfold lastValue
  induction entries with
  | nil => rfl
  | cons entry entries ih =>
      have here : ¬ States controlType property entry := fun states =>
        unstated ⟨entry, List.mem_cons_self, states⟩
      rw [List.foldl_cons, if_neg here]
      exact ih fun ⟨entry', member, states⟩ =>
        unstated ⟨entry', List.mem_cons_of_mem _ member, states⟩

/-- A value that the property did not hold before comes from an attribute that states it. -/
theorem exists_of_lastValue {controlType : ControlType} {property : Property}
    {before : Option Value} {entries : List Attribute} {value : Value}
    (ends : lastValue controlType property before entries = some value)
    (differs : before ≠ some value) :
    ∃ entry ∈ entries, States controlType property entry ∧
      property.read entry.value = .ok value := by
  unfold lastValue at ends
  induction entries generalizing before with
  | nil => exact absurd ends differs
  | cons entry entries ih =>
      rw [List.foldl_cons] at ends
      by_cases here : States controlType property entry ∧ property.read entry.value = .ok value
      · exact ⟨entry, List.mem_cons_self, here⟩
      · have still : (if States controlType property entry then
            match property.read entry.value with
            | .ok read => some read
            | .error _ => before
          else before) ≠ some value := by
          split
          · next states =>
              split
              · next read reads =>
                  rintro ⟨⟩
                  exact here ⟨states, reads⟩
              · exact differs
          · exact differs
        obtain ⟨other, member, facts⟩ := ih ends still
        exact ⟨other, List.mem_cons_of_mem _ member, facts⟩

theorem lastHandler_of_bound {controlType : ControlType} {event : Text}
    {entries : List Attribute} (bound : ∃ entry ∈ entries, Binds controlType event entry)
    (before before' : Option Text) :
    lastHandler controlType event before entries =
      lastHandler controlType event before' entries := by
  unfold lastHandler
  induction entries generalizing before before' with
  | nil => simp at bound
  | cons entry entries ih =>
      simp only [List.foldl_cons]
      by_cases later : ∃ entry ∈ entries, Binds controlType event entry
      · exact ih later _ _
      · obtain ⟨entry', member, binds⟩ := bound
        rcases List.mem_cons.mp member with rfl | member
        · rw [if_pos binds, if_pos binds]
        · exact absurd ⟨entry', member, binds⟩ later

theorem lastHandler_of_unbound {controlType : ControlType} {event : Text}
    {entries : List Attribute} (unbound : ¬ ∃ entry ∈ entries, Binds controlType event entry)
    (before : Option Text) : lastHandler controlType event before entries = before := by
  unfold lastHandler
  induction entries with
  | nil => rfl
  | cons entry entries ih =>
      have here : ¬ Binds controlType event entry := fun binds =>
        unbound ⟨entry, List.mem_cons_self, binds⟩
      rw [List.foldl_cons, if_neg here]
      exact ih fun ⟨entry', member, binds⟩ =>
        unbound ⟨entry', List.mem_cons_of_mem _ member, binds⟩

end Component.Reading

end PageDesigner
