import PageDesigner.Proofs.Document.Addressing
import PageDesigner.Proofs.Document.Convergence
import PageDesigner.Proofs.Document.Stating

/-!
# Texts that repeat no attribute

A first scan writes ids into tags, in several passes.  When every server control of the
text that it starts with is of a known type and no tag repeats an attribute, the same
holds of the text that it leaves (`distinct_of_createControls`).  On the way there, a
tag can repeat an attribute only where it cannot get an id, and then the scan fails.

In such a text the tag of a component states every value that the component did not have
from its type, and states it in the one attribute that is looked up
(`Document.states_of_get?`).
-/

namespace PageDesigner

open ScanPass (Claimable)

/-! ## One attribute for each name -/

/-- In a tag that repeats no name, the attribute with a name is the one that is found. -/
theorem Tag.attribute?_of_mem {tag : Tag} (distinct : Entry.Distinct tag.entries)
    {stated : Attribute} (member : stated ∈ tag.attributes) {key : Text}
    (named : stated.name.isWritten key = true) : tag.attribute? key = some stated := by
  unfold attribute?
  cases found : tag.attributes.find? (·.name.isWritten key) with
  | none => exact absurd named (List.find?_eq_none.mp found stated member)
  | some other =>
      have named' : other.name.isWritten key = true :=
        List.find?_some (p := fun stated : Attribute => stated.name.isWritten key) found
      unfold Entry.Distinct Tag.entries at distinct
      rw [List.map_map] at distinct
      refine congrArg some (List.inj_on_of_nodup_map distinct (List.mem_of_find?_eq_some found)
        member ?_)
      exact (Text.sameName_iff.mp named').trans (Text.sameName_iff.mp named).symm

/-- A tag that repeats no name states each value that a component takes from it, unless the component
has the value anyway. -/
theorem Document.states_of_get? {controlType : ControlType} {property : Property}
    {element : Element} {value : Value} (distinct : Entry.Distinct element.entries)
    (declared : controlType.property? property.name = some property)
    (held : ((Component.fresh controlType).readTag element false).1.get? property.name = some value)
    (other : property.isInitial value = false) :
    Document.states element.toTag property value = true := by
  have initial : (Component.fresh controlType).get? property.name = property.initial? :=
    Component.get?_eq declared
  have read := @Component.get?_readTag (Component.fresh controlType) element property declared
  rw [initial, held] at read
  have differs : property.initial? ≠ some value := by
    intro same
    unfold Property.isInitial at other
    rw [same, beq_self_eq_true] at other
    cases other
  obtain ⟨entry, member, states, reads⟩ :=
    Component.Reading.exists_of_lastValue read.symm differs
  unfold Document.states
  rw [Tag.attribute?_of_mem distinct member states.named]
  dsimp only
  rw [reads]
  exact decide_eq_true rfl

/-! ## What a scan writes -/

/-- Tags of known types among those that lack no id have one. -/
theorem ScanPass.Claimable.named {registry : Registry} {surface : Surface} {claimed : List Text}
    {elements : List Element} (claimable : Claimable registry surface claimed elements)
    {element : Element} (member : element ∈ elements)
    (known : (registry.resolve? element.name).isSome = true) : element.id?.isSome = true := by
  induction claimable with
  | nil => cases member
  | unknown resolved _ ih =>
      rcases List.mem_cons.mp member with rfl | member
      · rw [resolved] at known
        cases known
      · exact ih member
  | known _ named _ _ _ _ ih =>
      rcases List.mem_cons.mp member with rfl | member
      · rw [named]
        rfl
      · exact ih member

namespace Document

/-- Every server control is of a known type and repeats no attribute, unless it cannot get an id. -/
def Unrepeated (document : Document) : Prop :=
  ∀ element ∈ (Tree.parse document.text).controls,
    (document.registry.resolve? element.name).isSome = true ∧
      (document.profile element.toTag).Unrepeated

variable {base : Surface} {document after : Document} {report report' : ScanReport}

theorem Unrepeated.congr (unrepeated : document.Unrepeated) (text : after.text = document.text)
    (registry : after.registry = document.registry) : after.Unrepeated := by
  unfold Unrepeated at unrepeated ⊢
  rw [text, registry, profile_congr text]
  exact unrepeated

/-- A tag with an id repeats no attribute. -/
theorem Unrepeated.distinct (unrepeated : document.Unrepeated) {element : Element}
    (member : element ∈ (Tree.parse document.text).controls) (named : element.id?.isSome = true) :
    Entry.Distinct element.entries := by
  refine (unrepeated element member).2.distinct ?_
  have own : Entry.id? (document.profile element.toTag).entries = element.id? :=
    Tag.id?_entries element.toTag
  rw [own]
  exact named

/-- Writing an id into the tag at which a pass stops brings no repetition. -/
theorem Unrepeated.edited (unrepeated : document.Unrepeated) {former latter : List Element}
    {element : Element} {controlType : ControlType} {pass : ScanPass} {middle : Document}
    (stops : document.StopsAt .initial report former element latter controlType pass)
    (valid : Naming.isValid controlType.name = true) (agrees : Agrees document middle) :
    (middle.setAttribute element.toTag "id" (document.newId pass controlType)).2.Unrepeated := by
  obtain ⟨registry, edited, behind, tags, name, _, profiles, kept⟩ :=
    stops.exists_edited valid agrees
  obtain ⟨split, walk, _, _⟩ := stops
  have among : ∀ other ∈ former ++ element :: latter,
      other ∈ (Tree.parse document.text).controls := by
    rw [split]
    exact fun _ member => member
  generalize (middle.setAttribute element.toTag "id" (document.newId pass controlType)).2 =
    document' at tags profiles kept registry ⊢
  intro other member
  rw [registry]
  have listed : other.toTag ∈ former.map (·.toTag) ++ edited :: behind := by
    rw [← tags]
    exact List.mem_map_of_mem member
  rcases List.mem_append.mp listed with front | listed
  · -- A tag in front has an id, so it repeats nothing wherever it stands.
    obtain ⟨before, member', tag⟩ := List.mem_map.mp front
    have member'' := among before (List.mem_append_left _ member')
    obtain ⟨known, _⟩ := unrepeated before member''
    have distinct := unrepeated.distinct member'' (walk.claimable.named member' known)
    rw [tag] at known distinct
    exact ⟨known, .inl distinct⟩
  · rcases List.mem_cons.mp listed with here | back
    · have own := unrepeated element (among element (by simp))
      rw [here, name]
      exact ⟨own.1, kept own.2⟩
    · -- A tag behind says what it said.
      have said : document'.profile other.toTag ∈
          (latter.map (·.toTag)).map document.profile := by
        rw [← profiles]
        exact List.mem_map_of_mem back
      rw [List.map_map] at said
      obtain ⟨before, member', profile⟩ := List.mem_map.mp said
      have own := unrepeated before (among before (List.mem_append_right _
        (List.mem_cons_of_mem _ member')))
      have profile' : document.profile before.toTag = document'.profile other.toTag := profile
      have name' : before.name = other.name := congrArg Profile.name profile'
      rw [profile', name'] at own
      exact own

/-- All passes of a first scan that succeeds bring no repetition. -/
theorem unrepeated_of_scanPasses {bound : Nat} (bare : Bare base) (begun : Begun base document)
    (valid : ∀ controlType ∈ document.registry.all, Naming.isValid controlType.name = true)
    (unrepeated : document.Unrepeated)
    (done : scanPasses .initial bound report document = .ok report' after) : after.Unrepeated := by
  induction bound generalizing report document with
  | zero => cases done
  | succ bound ih =>
      rcases scanPasses_initial_cases bare begun bound report with
        ⟨_, _, _, agrees, _, _, turn⟩ |
          ⟨_, element, _, controlType, pass, middle, stops, _, _, agrees, begun', turn⟩
      · rw [turn] at done
        injection done with _ same
        rw [← same]
        exact unrepeated.congr agrees.text_eq agrees.registry_eq
      · rw [turn] at done
        obtain ⟨_, registry, _, _⟩ := setAttribute_frame middle element.toTag "id"
          (document.newId pass controlType)
        have resolved := valid controlType (Registry.mem_all_of_resolve? stops.resolved)
        refine ih begun' ?_ (unrepeated.edited stops resolved agrees) done
        rw [registry, agrees.registry_eq]
        exact valid

/-- When every server control of a text is of a known type and repeats no attribute, this holds of
the text as well that a first scan leaves. -/
theorem distinct_of_createControls (sound : document.Sound) (bare : Bare document.surface)
    (valid : ∀ controlType ∈ document.registry.all, Naming.isValid controlType.name = true)
    (known : ∀ element ∈ (Tree.parse document.text).controls,
      (document.registry.resolve? element.name).isSome = true)
    (distinct : ∀ element ∈ (Tree.parse document.text).controls, Entry.Distinct element.entries)
    (done : createControls document = .ok report after) :
    ∀ element ∈ (Tree.parse after.text).controls,
      (after.registry.resolve? element.name).isSome = true ∧ Entry.Distinct element.entries := by
  obtain ⟨scanned, _, _⟩ := scanned_of_createControls sound bare done
  obtain ⟨report', start, sound', agrees, surface, _, _, runs⟩ := createControls_eq sound
  rw [runs] at done
  have begun : Begun document.surface start := by
    rw [← surface]
    exact .of_base sound'
  have unrepeated : start.Unrepeated :=
    Unrepeated.congr (fun element member => ⟨known element member, .inl (distinct element member)⟩)
      agrees.text_eq agrees.registry_eq
  have unrepeated' : after.Unrepeated := by
    cases ran : scanPasses .initial document.options.maxScanPasses report' start with
    | error failure middle => rw [ran] at done; cases done
    | ok report'' middle =>
        rw [ran] at done
        injection done with _ same
        rw [← same]
        refine (unrepeated_of_scanPasses bare begun ?_ unrepeated ran).congr
          (release_frame middle.buffer).1 rfl
        rw [agrees.registry_eq]
        exact valid
  intro element member
  have known' := (unrepeated' element member).1
  exact ⟨known', unrepeated'.distinct member (scanned.claimable.named member known')⟩

/-! ## What components hold -/

/-- After a first scan a component holds what a fresh one of its type takes from its tag. -/
theorem Scanned.get?_eq (scanned : Scanned base document) {element : Element}
    (member : element ∈ (Tree.parse document.text).controls) {site : Site}
    (stands : Surface.StandsFor document.registry document.surface element site) (name : Text) :
    site.component.get? name =
      ((Component.fresh site.component.controlType).readTag element false).1.get? name := by
  obtain ⟨controlType, resolved, _⟩ := stands.typed
  obtain ⟨id, named, _, _, found⟩ := stands.named
  have states : document.registry.states? element.toTag.said =
      some (id, controlType, ((Component.fresh controlType).taking element.entries).values,
        ((Component.fresh controlType).taking element.entries).handlers) := by
    unfold Registry.states? Tag.said
    dsimp only
    rw [resolved, Tag.id?_entries, named]
  have stated : (id, controlType, ((Component.fresh controlType).taking element.entries).values,
      ((Component.fresh controlType).taking element.entries).handlers) ∈
        document.surface.stated := by
    rw [scanned.surface_eq, Surface.stated_populate]
    exact List.mem_append_right _ (List.mem_filterMap.mpr
      ⟨element.toTag.said, List.mem_map_of_mem member, states⟩)
  obtain ⟨other, listed, same⟩ := List.mem_map.mp stated
  unfold Site.stated at same
  obtain ⟨name', rest⟩ := Prod.mk.inj same
  obtain ⟨type, rest⟩ := Prod.mk.inj rest
  have values := (Prod.mk.inj rest).1
  have found' := Container.site?_of_mem scanned.sound.distinct listed
    (Text.sameName_iff.mpr (congrArg Text.lower name'))
  rw [found] at found'
  obtain rfl := Option.some.inj found'
  rw [← type, ← Component.values_eq_taking] at values
  unfold Component.get?
  rw [Component.controlType_readTag, values]
  rfl

/-- When every server control is of a known type and repeats no attribute, the name of a component
leads to a tag that states what the component holds. -/
theorem Scanned.exists_states (scanned : Scanned base document)
    (apart : ∀ element ∈ (Tree.parse document.text).controls,
      (document.registry.resolve? element.name).isSome = true ∧ Entry.Distinct element.entries)
    {site : Site} (member : site ∈ document.surface.controlSites) {property : Property}
    (declared : site.component.controlType.property? property.name = some property)
    {value : Value} (held : site.component.get? property.name = some value)
    (other : property.isInitial value = false) :
    ∃ element, (Tree.parse document.text).control? site.name = some element ∧
      states element.toTag property value = true := by
  obtain ⟨element, listed, stands⟩ := scanned.reconciled.exists_tag member
  obtain ⟨front, back, split⟩ := List.append_of_mem listed
  obtain ⟨found, leads, own, _⟩ := scanned.reconciled.control?_eq_iff split stands
  have same : found = element := by
    refine own.mpr fun other member' shadows => ?_
    have known := (apart other (by rw [split]; exact List.mem_append_left _ member')).1
    rw [shadows.2] at known
    cases known
  rw [same] at leads
  rw [scanned.get?_eq listed stands] at held
  exact ⟨element, leads, states_of_get? (apart element listed).2 declared held other⟩

end Document

end PageDesigner
