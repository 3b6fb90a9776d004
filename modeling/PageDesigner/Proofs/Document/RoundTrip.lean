import PageDesigner.Proofs.Control.Legible
import PageDesigner.Proofs.Document.FirstReport
import PageDesigner.Proofs.Document.NewTag
import PageDesigner.Proofs.Markup.Literal

/-!
# Controls that are written and read

The tag of a control states the properties that differ from their declared values.  A fresh
component that the tag is applied to gets those from the tag and reads the others as declared, so it
has every value of the control (`Component.get?_readTag_written`), and nothing is reported, since
every stated value is one that its property has written.  The tag is a whole element of its own, of
the type and with the name that it was written with (`Component.readTag_of_markup`).
-/

namespace PageDesigner

open Component.Reading (States lastValue)

/-- The type can be written as a tag, each of its properties is known by its name, and what a
property writes it reads back. -/
structure ControlType.Legible (controlType : ControlType) : Prop where
  writable : controlType.isWritable = true
  known : ∀ property ∈ controlType.properties,
    controlType.property? property.name = some property
  legible : ∀ property ∈ controlType.properties, property.Legible

namespace Component

variable {component : Component} {property : Property} {site : Text}

/-- Every value that is not the declared one can be written. -/
def Convertible (component : Component) : Prop :=
  ∀ property ∈ component.controlType.properties, ∀ value ∈ component.get? property.name,
    property.isInitial value = false → ∃ written, property.write value = .ok written

instance (component : Component) : Decidable component.Convertible :=
  decidable_of_iff (∀ property ∈ component.controlType.properties,
      ∀ value ∈ component.get? property.name, property.isInitial value = false →
        (property.write value).isOk = true) <| by
    refine forall₂_congr fun property _ => forall₃_congr fun value _ _ => ?_
    cases property.write value with
    | ok written => exact iff_of_true rfl ⟨written, rfl⟩
    | error cause => exact iff_of_false Bool.false_ne_true nofun

/-! ## What is stated -/

/-- A property is stated with what it writes, or has its declared value. -/
theorem statement?_cases (legible : component.controlType.Legible)
    (convertible : component.Convertible) (declared : property ∈ component.controlType.properties) :
    (component.statement? property = none ∧
      component.get? property.name = property.initial?) ∨
    ∃ value written, component.statement? property = some (property.name, written) ∧
      component.get? property.name = some value ∧ property.read written = .ok value := by
  have known := legible.known property declared
  unfold statement?
  split
  · next initial =>
      refine .inl ⟨rfl, ?_⟩
      unfold isInitial at initial
      rw [known] at initial
      cases held : component.get? property.name with
      | none =>
          rw [get?_eq known] at held
          exact (Option.or_eq_none_iff.mp held).2.symm
      | some value =>
          rw [held] at initial
          exact (eq_of_beq initial).symm
  next differs =>
    cases held : component.get? property.name with
    | none =>
        unfold isInitial at differs
        rw [known, held] at differs
        exact absurd rfl differs
    | some value =>
        unfold isInitial at differs
        rw [known, held] at differs
        obtain ⟨written, writes⟩ := convertible property declared value held
          (Bool.eq_false_iff.mpr differs)
        dsimp only
        rw [writes]
        exact .inr ⟨value, written, rfl, rfl, (legible.legible property declared).read_of_write writes⟩

/-- An attribute of the tag that states a property is the statement of that property. -/
theorem statement?_of_states (legible : component.controlType.Legible) {entry : Attribute}
    (said : entry.entry ∈ (component.said site).2)
    (states : States component.controlType property entry) :
    component.statement? property = some (property.name, entry.value) := by
  obtain ⟨plain, named⟩ := states
  obtain ⟨stated, member, same⟩ := List.mem_map.mp said
  obtain ⟨name, value⟩ := Prod.mk.inj same
  rw [← name, Name.text_ofText] at plain named
  rw [← value]
  unfold statements at member
  rcases List.mem_cons.mp member with rfl | member
  · cases plain
  rcases List.mem_cons.mp member with rfl | member
  · cases plain
  obtain ⟨other, declared, statement⟩ := List.mem_filterMap.mp member
  have own : stated.1 = other.name := by
    unfold statement? at statement
    repeat' split at statement
    all_goals cases statement
    rfl
  rw [own, legible.known other declared] at named
  obtain rfl := Option.some.inj named
  rw [statement, ← own]

/-- What is stated of a property is stated by an attribute of the tag. -/
theorem exists_states (legible : component.controlType.Legible) {attributes : List Attribute}
    (said : attributes.map Attribute.entry = (component.said site).2)
    (declared : property ∈ component.controlType.properties) {written : Text}
    (statement : component.statement? property = some (property.name, written)) :
    ∃ entry ∈ attributes, States component.controlType property entry ∧ entry.value = written := by
  have listed : (Name.ofText property.name, written) ∈ attributes.map Attribute.entry := by
    rw [said]
    refine List.mem_map_of_mem (f := fun stated : Text × Text => (Name.ofText stated.1, stated.2))
      (a := (property.name, written)) ?_
    exact List.mem_cons_of_mem _ (List.mem_cons_of_mem _
      (List.mem_filterMap.mpr ⟨property, declared, statement⟩))
  obtain ⟨entry, member, same⟩ := List.mem_map.mp listed
  obtain ⟨name, value⟩ := Prod.mk.inj same
  have text : entry.name.text = property.name := by rw [name, Name.text_ofText]
  refine ⟨entry, member, ⟨?_, ?_⟩, value⟩
  · rw [text]
    exact (legible.legible property declared).plain
  · rw [text]
    exact legible.known property declared

/-! ## Reading the tag -/

theorem Reading.lastValue_of_agree {controlType : ControlType} {entries : List Attribute}
    {value : Value} (agree : ∀ entry ∈ entries, States controlType property entry →
      property.read entry.value = .ok value) :
    lastValue controlType property (some value) entries = some value := by
  unfold lastValue
  induction entries with
  | nil => rfl
  | cons entry entries ih =>
      have later := ih fun other member => agree other (List.mem_cons_of_mem _ member)
      rw [List.foldl_cons]
      by_cases states : States controlType property entry
      · rw [if_pos states, agree entry List.mem_cons_self states]
        exact later
      · rw [if_neg states]
        exact later

variable {element : Element} (legible : component.controlType.Legible)
  (convertible : component.Convertible) (said : element.entries = (component.said site).2)

include legible convertible said

/-- An attribute that states a property holds what the property reads as the value of the
component. -/
theorem read_of_states {entry : Attribute} (member : entry ∈ element.attributes)
    (states : States component.controlType property entry) :
    ∃ value, component.get? property.name = some value ∧
      property.read entry.value = .ok value := by
  have listed : entry.entry ∈ (component.said site).2 := by
    rw [← said]
    exact List.mem_map_of_mem member
  have statement := statement?_of_states legible listed states
  rcases statement?_cases legible convertible (ControlType.mem_of_property? states.2) with
    ⟨none', -⟩ | ⟨value, written, some', held, reads⟩
  · rw [none'] at statement
    cases statement
  · rw [some'] at statement
    obtain ⟨-, rfl⟩ := Prod.mk.inj (Option.some.inj statement)
    exact ⟨value, held, reads⟩

/-- A fresh component takes every value from the tag, or has it as declared. -/
theorem get?_readTag_written (name : Text) :
    ((fresh component.controlType).readTag element false).1.get? name = component.get? name := by
  cases declares : component.controlType.property? name with
  | none =>
      have type := controlType_readTag (fresh component.controlType) element false
      unfold get?
      rw [type, declares]
      dsimp only [fresh]
      rw [declares]
  | some property =>
      have known := ControlType.property?_self declares
      have declared := ControlType.mem_of_property? declares
      have byName : ∀ other : Component, other.controlType = component.controlType →
          other.get? name = other.get? property.name := by
        intro other type
        unfold get?
        rw [type, declares, known]
      rw [byName component rfl, byName ((fresh component.controlType).readTag element false).1
        (controlType_readTag _ _ _)]
      have initial : (fresh component.controlType).get? property.name = property.initial? :=
        @get?_eq (fresh component.controlType) property known
      have folded := (@Reading.get?_foldl ⟨fresh component.controlType, [], [], []⟩ property known
        element.toTag element.attributes).1
      rw [initial] at folded
      unfold readTag
      dsimp only
      rw [if_neg Bool.false_ne_true, get?_bindTag, folded]
      rcases statement?_cases legible convertible declared with
        ⟨unstated, held⟩ | ⟨value, written, statement, held, reads⟩
      · rw [held]
        refine Reading.lastValue_of_unstated ?_ _
        rintro ⟨entry, member, states⟩
        have listed : entry.entry ∈ (component.said site).2 := by
          rw [← said]
          exact List.mem_map_of_mem member
        rw [statement?_of_states legible listed states] at unstated
        cases unstated
      · obtain ⟨entry, member, states, rfl⟩ := exists_states legible said declared statement
        have agree : ∀ other ∈ element.attributes, States component.controlType property other →
            property.read other.value = .ok value := by
          intro other member' states'
          obtain ⟨value', held', reads'⟩ := read_of_states legible convertible said member' states'
          rw [held] at held'
          rw [reads', Option.some.inj held']
        rw [held]
        exact (Reading.lastValue_of_converts ⟨entry, member, states, value, reads⟩ _
          (some value)).trans (Reading.lastValue_of_agree agree)

/-- Nothing is reported of a tag that was written. -/
theorem issues_readTag_written :
    ((fresh component.controlType).readTag element false).2 = [] := by
  rw [issues_readTag_fresh, List.filterMap_eq_nil_iff]
  intro entry member
  by_cases some' : ∃ property, States component.controlType property entry
  · obtain ⟨property, states⟩ := some'
    obtain ⟨value, -, reads⟩ := read_of_states legible convertible said member states
    rw [refusal?_of_states states, reads]
  · exact refusal?_of_unstated (not_exists.mp some') _

end Component

/-- The standard types can be written and read, the page apart. -/
theorem legible_of_standard {controlType : ControlType}
    (listed : controlType ∈ Registry.standard.all) (notPage : controlType.kind ≠ .page) :
    controlType.Legible := by
  have known : ∀ other ∈ Registry.standard.all, ∀ property ∈ other.properties,
      other.property? property.name = some property := by decide +kernel
  rcases standard_said controlType listed with page | ⟨writable, -⟩
  · exact absurd page notPage
  · exact ⟨writable, known controlType listed, legible_standard controlType listed⟩

/-! ## Parsing the tag -/

namespace Component

/-- A control is written as one element, which ends where its markup ends. -/
theorem exists_element {component : Component} (writable : component.controlType.isWritable = true)
    (site : Text) :
    ∃ element : Element, Tree.parse (component.markup site) =
        ⟨[.element element.toTag element.ending []], [], component.markup site⟩ ∧
      element.children = [] ∧ (element.name, element.entries) = component.said site ∧
      element.outer? = some ⟨.start, Location.start.advance (component.markup site)⟩ := by
  have entries : ∀ single, ((component.statedTag writable site).tagAt single .start).entries =
      (component.said site).2 := fun single => TagBody.entries_stated _ _
  have text := markup_statedTag writable site
  unfold ending at text
  by_cases spaced : component.controlType.space.isSome = true
  · rw [if_pos spaced] at text
    have brings := Event.brings_single .start (component.statedTag writable site)
    refine ⟨⟨(component.statedTag writable site).tagAt true .start, .selfClosing, []⟩, ?_, rfl,
      Prod.ext rfl (entries true), ?_⟩
    · rw [text]
      exact brings.parse_eq
    · rw [text]
      rfl
  · rw [if_neg spaced] at text
    have opens : (component.statedTag writable site).opens = true := by
      unfold ControlType.isWritable at writable
      simp only [Bool.and_eq_true] at writable
      exact writable.2
    have inner := Event.brings_plain (Location.start.advance
      ((component.statedTag writable site).markup ++ StatedTag.mark false)) ⟨[], nofun⟩
    have brings := inner.paired opens
    have whole : component.markup site =
        (component.statedTag writable site).markup ++ StatedTag.mark false ++
          ([] ++ '<' :: '/' :: (component.controlType.tag ++ ['>'])) := by
      rw [text]
      simp [StatedTag.mark]
    let last := Location.start.advance
      ((component.statedTag writable site).markup ++ StatedTag.mark false)
    refine ⟨⟨(component.statedTag writable site).tagAt false .start,
      .closed ⟨last, last.advance ('<' :: '/' :: (component.controlType.tag ++ ['>']))⟩, []⟩,
      ?_, rfl, Prod.ext rfl (entries false), ?_⟩
    · rw [whole]
      exact brings.parse_eq
    · rw [whole, Location.advance_append]
      rfl

/--
The tag of a control of a standard type, with any values that can be written, is one element with
nothing to report: it stands for the type, runs at the server under the name of the control, and
ends where the text ends.  Applied to a fresh component it gives every property its value.
-/
theorem readTag_of_markup {controlType : ControlType}
    (listed : controlType ∈ Registry.standard.all) (notPage : controlType.kind ≠ .page)
    {site : Text} (valid : Naming.isValid site = true) {component : Component}
    (type : component.controlType = controlType) (convertible : component.Convertible) :
    ∃ element : Element,
      Tree.parse (component.markup site) =
        ⟨[.element element.toTag element.ending []], [], component.markup site⟩ ∧
      (Tree.parse (component.markup site)).elements = [element] ∧
      Registry.standard.resolve? element.name = some controlType ∧
      element.isServerControl = true ∧ element.id? = some site ∧
      element.outer? = some ⟨.start, Location.start.advance (component.markup site)⟩ ∧
      ((fresh controlType).readTag element false).2 = [] ∧
      ∀ name, ((fresh controlType).readTag element false).1.get? name = component.get? name := by
  subst type
  have legible := legible_of_standard listed notPage
  rcases standard_said component.controlType listed with page | ⟨writable, resolved, foreign, -⟩
  · exact absurd page notPage
  obtain ⟨⟨tag, ending, children⟩, parsed, rfl, said, ends⟩ := exists_element writable site
  obtain ⟨name, entries⟩ := Prod.mk.inj said
  refine ⟨⟨tag, ending, []⟩, parsed, ?_, ?_, ?_, ?_, ends,
    issues_readTag_written legible convertible entries,
    get?_readTag_written legible convertible entries⟩
  · rw [parsed]
    rfl
  · rw [name]
    exact resolved
  · have serves : tag.runsAtServer = true := by
      rw [← Tag.runsAtServer_entries, entries]
      rfl
    unfold Tag.isServerControl
    rw [serves, Bool.or_true, Bool.and_true, name, foreign]
    rfl
  · rw [← Tag.id?_entries, entries]
    cases site with
    | nil => cases valid
    | cons char rest => rfl

/-- A text box with a value of each kind. -/
def filledBox : Component :=
  { fresh Builtin.textBox with
    values := [("Text", .string "\"a\" < b & c"), ("TextMode", .enumeration "Password"),
      ("MaxLength", .integer (-7)), ("ReadOnly", .boolean true)] }

/-- The hypotheses hold of the text box, and its values come back. -/
theorem readTag_of_markup_filledBox :
    ∃ element : Element, (Tree.parse (filledBox.markup "Box1")).elements = [element] ∧
      element.id? = some ("Box1" : Text) ∧
      ((fresh Builtin.textBox).readTag element false).2 = [] ∧
      ((fresh Builtin.textBox).readTag element false).1.get? "text" =
        some (.string "\"a\" < b & c") ∧
      ((fresh Builtin.textBox).readTag element false).1.get? "Rows" = some (.integer 0) := by
  obtain ⟨element, -, alone, -, -, named, -, quiet, values⟩ :=
    @readTag_of_markup Builtin.textBox (by decide) (by decide) "Box1" (by decide) filledBox rfl
      (by decide +kernel)
  exact ⟨element, alone, named, quiet, (values "text").trans (by decide),
    (values "Rows").trans (by decide)⟩

end Component

end PageDesigner
