import PageDesigner.Proofs.Control.Reading
import PageDesigner.Proofs.Markup.TagBody

/-!
# What a component takes from the entries of a tag

A tag is applied to a component attribute by attribute.  What the component holds
afterwards depends on the names and values only, not on where the tag stands
(`Component.taking`): the values and handlers that are read from a tag are those taken
from its entries (`values_eq_taking`, `handlers_eq_taking`).
-/

namespace PageDesigner

namespace Component

/-- An attribute that stands nowhere in particular. -/
def unplaced (entry : Entry) : Attribute := ⟨entry.1, entry.2, default⟩

/-- The component after the entries of a tag have been applied to it. -/
def taking (component : Component) (entries : List Entry) : Component :=
  ((entries.map unplaced).foldl (Reading.apply default) ⟨component, [], [], []⟩).component

namespace Reading

theorem component_applyProperty {tag tag' : Tag} {reading reading' : Reading}
    (same : reading.component = reading'.component) (property : Property) (written : Text) :
    (reading.applyProperty tag property written).component =
      (reading'.applyProperty tag' property written).component := by
  unfold applyProperty report
  dsimp only
  rw [same]
  cases property.read written with
  | error cause => rfl
  | ok value =>
      dsimp only
      split
      · rfl
      · split <;> rfl

theorem component_applyEvent {tag tag' : Tag} {reading reading' : Reading}
    (same : reading.component = reading'.component) (event handler : Text) :
    (reading.applyEvent tag event handler).component =
      (reading'.applyEvent tag' event handler).component := by
  unfold applyEvent
  dsimp only
  rw [same]
  split <;> rfl

/-- What an attribute does to a component depends on its name and its value. -/
theorem component_apply {tag tag' : Tag} {reading reading' : Reading} {stated stated' : Attribute}
    (same : reading.component = reading'.component) (alike : stated.entry = stated'.entry) :
    (apply tag reading stated).component = (apply tag' reading' stated').component := by
  obtain ⟨name, value⟩ := Prod.mk.inj alike
  unfold apply
  dsimp only
  rw [name, value, same]
  split
  · exact same
  · split
    · exact component_applyProperty same _ _
    · split
      · exact component_applyEvent same _ _
      · exact same

theorem component_applies {tag tag' : Tag} {reading reading' : Reading}
    {attributes attributes' : List Attribute} (same : reading.component = reading'.component)
    (alike : attributes.map Attribute.entry = attributes'.map Attribute.entry) :
    (attributes.foldl (apply tag) reading).component =
      (attributes'.foldl (apply tag') reading').component := by
  induction attributes generalizing attributes' reading reading' with
  | nil =>
      rw [List.map_nil, eq_comm, List.map_eq_nil_iff] at alike
      subst alike
      exact same
  | cons stated attributes ih =>
      rw [List.map_cons, eq_comm, List.map_eq_cons_iff] at alike
      obtain ⟨stated', others, rfl, here, later⟩ := alike
      rw [List.foldl_cons, List.foldl_cons]
      exact ih (component_apply same here.symm) later.symm

end Reading

variable (component : Component)

theorem taking_eq (element : Element) :
    (element.attributes.foldl (Reading.apply element.toTag) ⟨component, [], [], []⟩).component =
      component.taking element.entries := by
  refine Reading.component_applies rfl ?_
  unfold Tag.entries
  rw [List.map_map, List.map_map]
  exact List.map_congr_left fun _ _ => rfl

theorem values_eq_taking (element : Element) :
    (component.readTag element false).1.values = (component.taking element.entries).values := by
  rw [← taking_eq]
  exact (bindTag_frame _ _).2.1

theorem handlers_eq_taking (element : Element) :
    (component.readTag element false).1.handlers =
      (component.taking element.entries).handlers := by
  rw [← taking_eq]
  exact (bindTag_frame _ _).2.2

/-- The name of a control and where it runs mean nothing to it. -/
theorem taking_control (site : Text) (entries : List Entry) :
    component.taking ((Name.ofText "id", site) :: (Name.ofText "runat", "server") :: entries) =
      component.taking entries := rfl

end Component

end PageDesigner
