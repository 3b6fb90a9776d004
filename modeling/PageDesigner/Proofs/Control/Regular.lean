import PageDesigner.Proofs.Control.Altering
import PageDesigner.Surface.Naming

/-!
# Values of their declared kind

A type is regular when its name is an identifier and what its properties are declared to
read as is of their own kind.  A component of a regular type is regular when all values
that were set on it are of the kind of their property.  Fresh components are regular, and
every way to change a component keeps it so.
-/

namespace PageDesigner

/-- The name is an identifier, and declared values are of the kind of their property. -/
structure ControlType.Regular (controlType : ControlType) : Prop where
  named : Naming.isValid controlType.name = true
  declared : ∀ property ∈ controlType.properties, ∀ value, property.initial? = some value →
    property.kind? = some value.kind

instance (controlType : ControlType) : Decidable controlType.Regular :=
  decidable_of_iff (Naming.isValid controlType.name = true ∧
      ∀ property ∈ controlType.properties, ∀ value ∈ property.initial?,
        property.kind? = some value.kind)
    ⟨fun both => ⟨both.1, both.2⟩, fun regular => ⟨regular.named, regular.declared⟩⟩

theorem Property.checkKind_of_kind? {property : Property} {value : Value}
    (kind : property.kind? = some value.kind) : property.checkKind value = .ok () := by
  unfold checkKind
  rw [kind]
  exact if_pos rfl

namespace Component

/-- The type is regular, and values that were set are of the kind of their property. -/
structure Regular (component : Component) : Prop where
  type : component.controlType.Regular
  kinds : ∀ property, component.controlType.property? property.name = some property →
    ∀ value, component.values.get? property.name = some value → property.checkKind value = .ok ()

theorem regular_fresh {controlType : ControlType} (regular : controlType.Regular) :
    (fresh controlType).Regular :=
  ⟨regular, fun _ _ _ held => by cases held⟩

/-- What a property reads as is of its kind. -/
theorem Regular.get? {component : Component} (regular : component.Regular) {property : Property}
    (declared : component.controlType.property? property.name = some property) {value : Value}
    (held : component.get? property.name = some value) : property.checkKind value = .ok () := by
  rw [get?_eq declared] at held
  rcases Option.or_eq_some_iff.mp held with set | ⟨_, initial⟩
  · exact regular.kinds property declared value set
  · exact Property.checkKind_of_kind?
      (regular.type.declared property (ControlType.mem_of_property? declared) value initial)

/-- Only the type and the values count. -/
theorem Regular.congr {component other : Component} (regular : component.Regular)
    (type : other.controlType = component.controlType) (values : other.values = component.values) :
    other.Regular := by
  refine ⟨by rw [type]; exact regular.type, ?_⟩
  rw [type, values]
  exact regular.kinds

theorem Regular.set {component changed : Component} (regular : component.Regular) {name : Text}
    {value : Value} {old? : Option Value}
    (done : component.set name value = .ok (old?, changed)) : changed.Regular := by
  have checked := done
  obtain ⟨property, found, rfl⟩ := set_inv done
  have kind : property.checkKind value = .ok () := by
    unfold Component.set Component.property at checked
    rw [found] at checked
    dsimp only at checked
    split at checked
    · cases checked
    · assumption
  refine ⟨regular.type, fun other declared held there => ?_⟩
  by_cases same : other.name = property.name
  · have itself := ControlType.property?_self found
    rw [← same] at itself
    rw [declared] at itself
    obtain rfl := Option.some.inj itself
    rw [Table.get?_put_self] at there
    rw [← Option.some.inj there]
    exact kind
  · rw [Table.get?_put_of_ne _ _ same] at there
    exact regular.kinds other declared held there

theorem Regular.reset {component changed : Component} (regular : component.Regular) {name : Text}
    {old? : Option Value} (done : component.reset name = .ok (old?, changed)) :
    changed.Regular := by
  obtain ⟨property, _, rfl⟩ := Reading.reset_inv done
  refine ⟨regular.type, fun other declared held there => ?_⟩
  by_cases same : other.name = property.name
  · rw [same, Table.get?_erase_self] at there
    cases there
  · rw [Table.get?_erase_of_ne _ same] at there
    exact regular.kinds other declared held there

theorem Regular.bind {component changed : Component} (regular : component.Regular)
    {event handler : Text} (done : component.bind event handler = .ok changed) :
    changed.Regular := by
  unfold Component.bind at done
  split at done
  · injection done with same
    rw [← same]
    exact regular.congr rfl rfl
  · cases done

theorem Regular.unbind {component : Component} (regular : component.Regular) (event : Text) :
    (component.unbind event).Regular := by
  unfold Component.unbind
  split
  · exact regular.congr rfl rfl
  · exact regular

theorem Regular.prepared {component : Component} (regular : component.Regular) :
    component.prepared.Regular := by
  unfold Component.prepared
  split
  · exact regular.congr rfl rfl
  · exact regular

/-! ## Reading a tag -/

theorem Regular.apply {reading : Reading} (regular : reading.component.Regular) (tag : Tag)
    (entry : Attribute) : (Reading.apply tag reading entry).component.Regular := by
  rcases Reading.apply_cases tag reading entry with
    ⟨property, _, _, same⟩ | ⟨event, _, _, same⟩ | ⟨_, _, same⟩
  · rw [same]
    unfold Reading.applyProperty
    dsimp only
    split
    · exact regular
    · split
      · exact regular
      · split
        · next done => exact regular.set done
        · exact regular
  · rw [same]
    unfold Reading.applyEvent
    dsimp only
    split
    · next done => exact regular.bind done
    · exact regular
  · rw [same]
    exact regular

theorem Regular.restore {reading : Reading} (regular : reading.component.Regular) (tag : Tag)
    (property : Property) : (Reading.restore tag reading property).component.Regular := by
  unfold Reading.restore
  split
  · exact regular
  · split
    · next done => exact regular.reset done
    · exact regular

theorem Regular.release {reading : Reading} (regular : reading.component.Regular) (event : Text) :
    (reading.release event).component.Regular := by
  unfold Reading.release
  split
  · exact regular
  · exact regular.unbind event

/-- What every step keeps regular, the fold keeps regular. -/
theorem Regular.foldl {α : Type} {step : Reading → α → Reading}
    (keeps : ∀ {reading : Reading}, reading.component.Regular → ∀ entry,
      (step reading entry).component.Regular)
    {reading : Reading} (regular : reading.component.Regular) (entries : List α) :
    (entries.foldl step reading).component.Regular := by
  induction entries generalizing reading with
  | nil => exact regular
  | cons entry entries ih => exact ih (keeps regular entry)

theorem Regular.readTag {component : Component} (regular : component.Regular) (element : Element)
    (restoring : Bool) : (component.readTag element restoring).1.Regular := by
  have applied := @Regular.foldl _ _
    (fun regular entry => Regular.apply regular element.toTag entry) ⟨component, [], [], []⟩
    regular element.toTag.attributes
  unfold Component.readTag
  dsimp only
  obtain ⟨type, values, _⟩ := bindTag_frame (if restoring = true then
      (element.toTag.attributes.foldl (Reading.apply element.toTag)
        ⟨component, [], [], []⟩).restoreRest element.toTag
    else element.toTag.attributes.foldl (Reading.apply element.toTag)
      ⟨component, [], [], []⟩).component element
  refine Regular.congr ?_ type values
  split
  · unfold Reading.restoreRest
    dsimp only
    exact Regular.foldl Regular.release
      (Regular.foldl (fun regular entry => Regular.restore regular element.toTag entry) applied _) _
  · exact applied

/-! ## Versions of a component -/

/-- A regular component of the same type and with the same list of controls. -/
structure Version (component changed : Component) : Prop where
  regular : changed.Regular
  type_eq : changed.controlType = component.controlType
  children_eq : changed.children = component.children

/-- What an operation makes of a regular component is a version of it. -/
theorem Regular.version {component changed : Component} (regular : component.Regular)
    (alters : component.Alters changed) : component.Version changed := by
  refine ⟨?_, alters.frame.1, alters.frame.2⟩
  cases alters with
  | kept => exact regular
  | set done => exact regular.set done
  | reset done => exact regular.reset done
  | bind done => exact regular.bind done
  | unbind event => exact regular.unbind event
  | prepared => exact regular.prepared
  | readTag element restoring => exact regular.readTag element restoring

end Component

end PageDesigner
