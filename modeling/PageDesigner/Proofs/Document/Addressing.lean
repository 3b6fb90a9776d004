import PageDesigner.Proofs.Document.Reconciliation

/-!
# The tag that a name leads to

Everything that is written for a component goes to the tag that its name leads to, the
first server control with that id (`tagOf_eq`).  This is a tag of its type unless another
tag with the id stands in front of all of those (`owns_iff`).  When the components are in
line with the tags, it is the component's own tag, unless a tag of no known type has the id
as well and stands in front of it (`control?_eq_iff`): scans pass over such a tag, but it
still counts when a name is looked up.
-/

namespace PageDesigner

theorem Tree.control?_eq (tree : Tree) (id : Text) :
    tree.control? id = tree.controls.find? (·.isControlNamed id) := by
  unfold control? controls
  rw [List.find?_filter]
  congr
  funext element
  cases control : element.isServerControl with
  | true => simp
  | false =>
      unfold Tag.isControlNamed
      have same : element.toTag.isServerControl = false := control
      simp [same]

namespace Surface

open ScanPass (claims)

/-- A tag that has the id of a component and stands for its type. -/
structure Owns (registry : Registry) (site : Site) (element : Element) : Prop where
  named : element.isControlNamed site.name = true
  typed : (registry.resolve? element.name).map (·.name) = some site.component.controlType.name

instance (registry : Registry) (site : Site) (element : Element) :
    Decidable (Owns registry site element) :=
  decidable_of_iff (element.isControlNamed site.name = true ∧
    (registry.resolve? element.name).map (·.name) = some site.component.controlType.name)
    ⟨fun both => ⟨both.1, both.2⟩, fun owns => ⟨owns.named, owns.typed⟩⟩

/-- Some tag has the id of a component, but not its type, and stands in front of all that have
both. -/
def Masked (registry : Registry) (controls : List Element) (site : Site) : Prop :=
  ∃ front other back, controls = front ++ other :: back ∧
    other.isControlNamed site.name = true ∧ ¬ Owns registry site other ∧
    ∀ element ∈ front, ¬ Owns registry site element

/-- A tag of no known type that has the id of a component. -/
def Shadows (registry : Registry) (name : Text) (element : Element) : Prop :=
  element.isControlNamed name = true ∧ registry.resolve? element.name = none

variable {registry : Registry} {mode : ScanMode} {tree : Tree} {surface : Surface}
  {front back : List Element} {element : Element} {site : Site}

/-- A name leads to a tag of the type of its component unless the component is masked. -/
theorem owns_iff {found : Element} (leads : tree.control? site.name = some found) :
    Owns registry site found ↔ ¬ Masked registry tree.controls site := by
  rw [Tree.control?_eq, List.find?_eq_some_iff_append] at leads
  obtain ⟨named, front, back, split, unnamed⟩ := leads
  have before : ∀ element ∈ front, ¬ Owns registry site element := by
    intro element member owns
    have other := unnamed element member
    rw [owns.named] at other
    cases other
  constructor
  · rintro owns ⟨front', other, back', split', named', foreign, before'⟩
    -- The first tag with the id cannot stand behind another one with the id.
    rw [split] at split'
    rcases List.append_eq_append_iff.mp split' with
      ⟨between, fronts, backs⟩ | ⟨between, fronts, backs⟩
    · cases between with
      | nil =>
          obtain ⟨rfl, rfl⟩ := List.cons.inj backs
          exact foreign owns
      | cons element rest =>
          obtain ⟨rfl, -⟩ := List.cons.inj backs
          exact before' found (by rw [fronts]; simp) owns
    · cases between with
      | nil =>
          obtain ⟨rfl, rfl⟩ := List.cons.inj backs
          exact foreign owns
      | cons element rest =>
          obtain ⟨rfl, -⟩ := List.cons.inj backs
          have absent := unnamed other (by rw [fronts]; simp)
          rw [named'] at absent
          cases absent
  · intro clear
    by_contra foreign
    exact clear ⟨front, found, back, split, named, foreign, before⟩

/-- The tag of a component has its name. -/
theorem StandsFor.isControlNamed (stands : StandsFor registry surface element site)
    (member : element ∈ tree.controls) : element.isControlNamed site.name = true := by
  obtain ⟨id, named, _, _, found⟩ := stands.named
  have control : element.toTag.isServerControl = true := (List.mem_filter.mp member).2
  have same : id.sameName site.name = true := by
    rw [Text.sameName_comm]
    exact Container.sameName_of_site? found
  have named' : element.toTag.id? = some id := named
  simp [Tag.isControlNamed, control, named', same]

/-- Only a tag of no known type can have the id of a component whose own tag stands behind it. -/
theorem Reconciled.shadows_of_front (reconciled : Reconciled registry mode tree.controls surface)
    (split : tree.controls = front ++ element :: back)
    (stands : StandsFor registry surface element site) {other : Element}
    (member : other ∈ front) (named : other.isControlNamed site.name = true) :
    Shadows registry site.name other := by
  refine ⟨named, ?_⟩
  cases resolved : registry.resolve? other.name with
  | none => rfl
  | some controlType =>
      exfalso
      obtain ⟨controlType', resolved', _⟩ := stands.typed
      obtain ⟨id, own, _, _, found⟩ := stands.named
      simp only [Tag.isControlNamed, Bool.and_eq_true, Option.any_eq_true] at named
      obtain ⟨_, id', hasId, same⟩ := named
      have first : id' ∈ claims registry front :=
        mem_claims.mpr ⟨other, member, by rw [resolved]; rfl, hasId⟩
      have lower : id'.lower = id.lower :=
        (Text.sameName_iff.mp same).trans (Text.sameName_iff.mp (Container.sameName_of_site? found))
      -- Two tags of known types would have one id.
      have once := reconciled.once
      rw [split] at once
      have claimed : claims registry (front ++ element :: back) =
          claims registry front ++ id :: claims registry back := by
        rw [← ScanPass.claims_cons_known resolved' own]
        exact List.filterMap_append
      rw [claimed, List.map_append, List.map_cons, List.nodup_append] at once
      exact once.2.2 _ (List.mem_map_of_mem first) _ List.mem_cons_self lower

/-- A component's name leads to its own tag just in case no tag of an unknown type with that id
stands in front; otherwise it leads to such a tag. -/
theorem Reconciled.control?_eq_iff (reconciled : Reconciled registry mode tree.controls surface)
    (split : tree.controls = front ++ element :: back)
    (stands : StandsFor registry surface element site) :
    ∃ found, tree.control? site.name = some found ∧
      (found = element ↔ ∀ other ∈ front, ¬ Shadows registry site.name other) ∧
      (found ≠ element → Shadows registry site.name found) := by
  have member : element ∈ tree.controls := by
    rw [split]
    exact List.mem_append_right _ List.mem_cons_self
  have own := stands.isControlNamed member
  rw [Tree.control?_eq, split, List.find?_append, List.find?_cons, own]
  cases before : front.find? (·.isControlNamed site.name) with
  | none =>
      refine ⟨element, rfl, ⟨fun _ other listed shadows => ?_, fun _ => rfl⟩, fun differs => ?_⟩
      · exact List.find?_eq_none.mp before other listed shadows.1
      · exact absurd rfl differs
  | some found =>
      have listed := List.mem_of_find?_eq_some before
      have named : found.isControlNamed site.name = true :=
        List.find?_some (p := fun element : Element => element.isControlNamed site.name) before
      have shadows := reconciled.shadows_of_front split stands listed named
      refine ⟨found, rfl, ⟨fun same => ?_, fun clear => ?_⟩, fun _ => shadows⟩
      · obtain ⟨controlType, resolved, _⟩ := stands.typed
        rw [← same, shadows.2] at resolved
        cases resolved
      · exact absurd shadows (clear found listed)

end Surface

namespace Document

/-- The tag of a component in a sound document. -/
theorem tagOf_eq {document : Document} (sound : document.Sound) (id : Text) :
    tagOf id document =
      match (Tree.parse document.text).control? id with
      | some element => .ok element document.parse.2
      | none => .error (.tagNotFound id) document.parse.2 := by
  obtain ⟨after, parses, _⟩ := parse_eq sound
  unfold tagOf
  simp only [parsed, bind, EStateM.bind, modifyGet_eq,
    parses]
  cases (Tree.parse document.text).control? id <;> rfl

/-- The name of a component that has a tag of its type leads to such a tag unless the component is
masked. -/
theorem tagOf_owns_iff {document : Document} (sound : document.Sound) {registry : Registry}
    {site : Site} {element : Element} (member : element ∈ (Tree.parse document.text).controls)
    (owns : Surface.Owns registry site element) :
    ∃ found after, tagOf site.name document = .ok found after ∧
      (Surface.Owns registry site found ↔
        ¬ Surface.Masked registry (Tree.parse document.text).controls site) := by
  cases leads : (Tree.parse document.text).control? site.name with
  | none =>
      rw [Tree.control?_eq, List.find?_eq_none] at leads
      exact absurd owns.named (leads element member)
  | some found =>
      refine ⟨found, document.parse.2, ?_, Surface.owns_iff leads⟩
      rw [tagOf_eq sound, leads]

/--
Every component but the root has a tag of its own, and what is written for it goes to that
tag just in case no tag of an unknown type that has its id stands in front; otherwise it
goes to such a tag.
-/
def Addresses (registry : Registry) (document : Document) : Prop :=
  ∀ site ∈ document.surface.controlSites, ∃ front element back,
    (Tree.parse document.text).controls = front ++ element :: back ∧
    Surface.StandsFor registry document.surface element site ∧
    ∃ found after, tagOf site.name document = .ok found after ∧
      (found = element ↔ ∀ other ∈ front, ¬ Surface.Shadows registry site.name other) ∧
      (found ≠ element → Surface.Shadows registry site.name found)

theorem addresses_of_reconciled {document : Document} (sound : document.Sound)
    {registry : Registry} {mode : ScanMode}
    (reconciled : Surface.Reconciled registry mode (Tree.parse document.text).controls
      document.surface) : document.Addresses registry := by
  intro site member
  obtain ⟨element, listed, stands⟩ := reconciled.exists_tag member
  obtain ⟨front, back, split⟩ := List.append_of_mem listed
  obtain ⟨found, leads, facts⟩ := reconciled.control?_eq_iff split stands
  refine ⟨front, element, back, split, stands, found, document.parse.2, ?_, facts⟩
  rw [tagOf_eq sound, leads]

end Document

end PageDesigner
