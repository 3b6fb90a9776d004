import PageDesigner.Proofs.Control.Legible
import PageDesigner.Proofs.Control.Rereading
import PageDesigner.Proofs.Markup.TagBody

/-!
# The attribute that counts

A tag may state a property more than once.  Its values are read in order, and the last one
that converts counts (`Component.get?_readTag_eq`), while each one that does not is an issue
of the property (`Component.concerns_readTag_iff`).  So a tag gives a property a value without
an issue just in case all its values convert and the last one gives that value
(`Component.gives_iff`).
-/

namespace PageDesigner

/-- The values that entries state under a name. -/
def Entry.under (key : Text) (entries : List Entry) : List Text :=
  (entries.filter (·.1.isWritten key)).map Prod.snd

namespace Property

/-- What a property reads as when texts are read into it one after the other. -/
def lastRead (property : Property) (before : Option Value) (texts : List Text) : Option Value :=
  texts.foldl
    (fun held written =>
      match property.read written with
      | .ok value => some value
      | .error _ => held) before

/-- Whether texts leave a value that a property has as it is, and all convert. -/
def Confirms (property : Property) (value : Value) (texts : List Text) : Prop :=
  (∀ written ∈ texts, ∃ read, property.read written = .ok read) ∧
    ∀ last ∈ texts.getLast?, property.read last = .ok value

/-- Behind a text that reads as a value, texts have to confirm it. -/
theorem confirms_iff {property : Property} {value : Value} (before : Option Value)
    {first : Text} (reads : property.read first = .ok value) (further : List Text) :
    ((∀ written ∈ first :: further, ∃ read, property.read written = .ok read) ∧
      property.lastRead before (first :: further) = some value) ↔
      property.Confirms value further := by
  have held : property.lastRead before (first :: further) =
      property.lastRead (some value) further := by
    unfold lastRead
    rw [List.foldl_cons, reads]
  rw [held]
  unfold Confirms
  rcases List.eq_nil_or_concat' further with rfl | ⟨former, last, rfl⟩
  · simp [lastRead, reads]
  · have ends : property.lastRead (some value) (former ++ [last]) =
        match property.read last with
        | .ok read => some read
        | .error _ => property.lastRead (some value) former := by
      unfold lastRead
      rw [List.foldl_append]
      rfl
    rw [ends, List.getLast?_concat]
    constructor
    · rintro ⟨converts, last'⟩
      refine ⟨fun written member => converts written (List.mem_cons_of_mem _ member), ?_⟩
      rintro _ ⟨⟩
      obtain ⟨read, reads'⟩ := converts last (by simp)
      rw [reads'] at last' ⊢
      exact congrArg Except.ok (Option.some.inj last')
    · rintro ⟨converts, last'⟩
      refine ⟨fun written member => ?_, ?_⟩
      · rcases List.mem_cons.mp member with rfl | member
        · exact ⟨value, reads⟩
        · exact converts written member
      · rw [last' last rfl]

end Property

/-- An issue that names a property. -/
def Issue.Concerns (issue : Issue) (property : Property) : Prop :=
  ∃ reason, issue.message = property.name ++ ": " ++ reason

namespace Component

namespace Reading

variable {controlType : ControlType} {property : Property}

/-- An attribute states a property just in case it has the name of the property. -/
theorem states_iff (declared : controlType.property? property.name = some property)
    (plain : (property.name.sameName "id" || property.name.sameName "runat") = false)
    (entry : Attribute) :
    States controlType property entry ↔ entry.name.isWritten property.name = true := by
  constructor
  · exact States.named
  · intro named
    have lower := Text.sameName_iff.mp named
    refine ⟨?_, ?_⟩
    · unfold Text.sameName at plain ⊢
      rw [lower]
      exact plain
    · rw [ControlType.property?_congr named, declared]

/-- The values under the name of a property are what counts for it. -/
theorem lastValue_eq (declared : controlType.property? property.name = some property)
    (plain : (property.name.sameName "id" || property.name.sameName "runat") = false)
    (before : Option Value) (attributes : List Attribute) :
    lastValue controlType property before attributes =
      property.lastRead before (Entry.under property.name (attributes.map Attribute.entry)) := by
  unfold lastValue Property.lastRead Entry.under
  induction attributes generalizing before with
  | nil => rfl
  | cons entry attributes ih =>
      rw [List.foldl_cons, List.map_cons, ih]
      by_cases named : entry.name.isWritten property.name = true
      · rw [if_pos ((states_iff declared plain entry).mpr named),
          List.filter_cons_of_pos (by exact named)]
        rfl
      · rw [if_neg fun states => named ((states_iff declared plain entry).mp states),
          List.filter_cons_of_neg (by exact named)]

/-- Two names without blanks in front of reports are the same when the reports are. -/
theorem name_eq_of_message {name name' reason reason' : Text} (solid : ' ' ∉ name)
    (solid' : ' ' ∉ name') (same : name ++ ": " ++ reason = name' ++ ": " ++ reason') :
    name = name' := by
  have cut : ∀ {name : Text} (reason : Text), ' ' ∉ name →
      (name ++ ": " ++ reason).takeWhile (· != ' ') = name ++ [':'] := by
    intro name reason solid
    have word : (name ++ [':']).all (· != ' ') = true := by
      rw [List.all_append, Text.all_bne_of_absent solid]
      rfl
    have shape : name ++ ": " ++ reason = (name ++ [':']) ++ (' ' :: reason) := by
      rw [List.append_assoc, List.append_assoc]
      rfl
    rw [shape]
    exact Piece.takeWhile_word word (by simp)
  have both := congrArg (List.takeWhile (· != ' ')) same
  rw [cut reason solid, cut reason' solid'] at both
  exact (List.append_inj' both rfl).1

/-- Applying an attribute gives an issue of a property just in case the attribute states it in a form
that does not convert. -/
theorem concerns_apply_iff {reading : Reading}
    (declared : reading.component.controlType.property? property.name = some property)
    (solid : ∀ other ∈ reading.component.controlType.properties, ' ' ∉ other.name) (tag : Tag)
    (entry : Attribute) :
    (∃ issue ∈ (apply tag reading entry).issues, issue.Concerns property) ↔
      (∃ issue ∈ reading.issues, issue.Concerns property) ∨
        States reading.component.controlType property entry ∧
          ¬ ∃ value, property.read entry.value = .ok value := by
  rcases apply_cases tag reading entry with
    ⟨other, states, _, same⟩ | ⟨event, binds, unstated, same⟩ | ⟨unstated, _, same⟩
  · have own := declared_of_states states
    have states' : States reading.component.controlType property entry ↔ other = property :=
      ⟨fun states' => states.unique states', fun same => same ▸ states⟩
    rw [same, issues_applyProperty own, states']
    cases reads : other.read entry.value with
    | ok value =>
        refine ⟨.inl, fun issue => issue.resolve_right ?_⟩
        rintro ⟨rfl, unread⟩
        exact unread ⟨value, reads⟩
    | error cause =>
        have named : (Issue.ofTag tag (other.name ++ ": " ++ cause.message)).Concerns property ↔
            other = property := by
          constructor
          · rintro ⟨reason, message⟩
            have name := name_eq_of_message
              (solid other (ControlType.mem_of_property? own))
              (solid property (ControlType.mem_of_property? declared)) message
            rw [name, declared] at own
            exact (Option.some.inj own).symm
          · rintro rfl
            exact ⟨_, rfl⟩
        simp only [List.mem_append, List.mem_singleton]
        constructor
        · rintro ⟨issue, known | rfl, concerns⟩
          · exact .inl ⟨issue, known, concerns⟩
          · obtain rfl := named.mp concerns
            refine .inr ⟨rfl, ?_⟩
            rintro ⟨value, reads'⟩
            rw [reads] at reads'
            cases reads'
        · rintro (⟨issue, known, concerns⟩ | ⟨rfl, _⟩)
          · exact ⟨issue, .inl known, concerns⟩
          · exact ⟨_, .inr rfl, named.mpr rfl⟩
  · rw [same, applyEvent_eq (declared_of_binds binds)]
    exact ⟨.inl, fun issue => issue.resolve_right fun both => unstated property both.1⟩
  · rw [same]
    exact ⟨.inl, fun issue => issue.resolve_right fun both => unstated property both.1⟩

theorem concerns_foldl_iff {reading : Reading}
    (declared : reading.component.controlType.property? property.name = some property)
    (solid : ∀ other ∈ reading.component.controlType.properties, ' ' ∉ other.name) (tag : Tag)
    (attributes : List Attribute) :
    (∃ issue ∈ (attributes.foldl (apply tag) reading).issues, issue.Concerns property) ↔
      (∃ issue ∈ reading.issues, issue.Concerns property) ∨
        ∃ entry ∈ attributes, States reading.component.controlType property entry ∧
          ¬ ∃ value, property.read entry.value = .ok value := by
  induction attributes generalizing reading with
  | nil => simp
  | cons entry attributes ih =>
      have type := controlType_apply tag reading entry
      rw [List.foldl_cons, @ih (apply tag reading entry) (by rw [type, declared])
        (by rw [type]; exact solid), type, concerns_apply_iff declared solid]
      simp [or_assoc]

end Reading

open Reading

variable {controlType : ControlType} {property : Property}

/-- What a fresh component takes for a property from a tag. -/
theorem get?_readTag_eq (declared : controlType.property? property.name = some property)
    (plain : (property.name.sameName "id" || property.name.sameName "runat") = false)
    (element : Element) :
    ((fresh controlType).readTag element false).1.get? property.name =
      property.lastRead property.initial? (Entry.under property.name element.entries) := by
  have initial : (fresh controlType).get? property.name = property.initial? :=
    get?_eq (show (fresh controlType).controlType.property? property.name = some property from
      declared)
  have read := @get?_readTag (fresh controlType) element property declared
  rw [initial] at read
  exact read.trans (lastValue_eq declared plain property.initial? element.attributes)

/-- A tag has an issue of a property just in case it states the property in a form that does not
convert. -/
theorem concerns_readTag_iff (declared : controlType.property? property.name = some property)
    (plain : (property.name.sameName "id" || property.name.sameName "runat") = false)
    (solid : ∀ other ∈ controlType.properties, ' ' ∉ other.name) (element : Element) :
    (∃ issue ∈ ((fresh controlType).readTag element false).2, issue.Concerns property) ↔
      ¬ ∀ written ∈ Entry.under property.name element.entries,
        ∃ value, property.read written = .ok value := by
  have folded := @concerns_foldl_iff property ⟨fresh controlType, [], [], []⟩ declared solid
    element.toTag element.attributes
  have issues : ((fresh controlType).readTag element false).2 =
      (element.attributes.foldl (Reading.apply element.toTag)
        ⟨fresh controlType, [], [], []⟩).issues := rfl
  rw [issues, folded]
  simp only [List.not_mem_nil, false_and, exists_false, false_or, not_forall]
  constructor
  · rintro ⟨entry, member, states, unread⟩
    refine ⟨entry.value, List.mem_map.mpr ⟨entry.entry, List.mem_filter.mpr
      ⟨List.mem_map_of_mem member, ?_⟩, rfl⟩, unread⟩
    exact (states_iff declared plain entry).mp states
  · rintro ⟨written, member, unread⟩
    obtain ⟨_, among, rfl⟩ := List.mem_map.mp member
    obtain ⟨listed, named⟩ := List.mem_filter.mp among
    obtain ⟨entry, member', rfl⟩ := List.mem_map.mp listed
    exact ⟨entry, member', (states_iff declared plain entry).mpr named, unread⟩

/-- Reading a tag gives a property a value, and no issue of it. -/
def Gives (controlType : ControlType) (element : Element) (property : Property) (value : Value) :
    Prop :=
  ((fresh controlType).readTag element false).1.get? property.name = some value ∧
    ∀ issue ∈ ((fresh controlType).readTag element false).2, ¬ issue.Concerns property

/-- A tag that states a property gives it the first value just in case the further ones confirm
it. -/
theorem gives_iff (declared : controlType.property? property.name = some property)
    (plain : (property.name.sameName "id" || property.name.sameName "runat") = false)
    (solid : ∀ other ∈ controlType.properties, ' ' ∉ other.name) {element : Element}
    {first : Text} {further : List Text}
    (stated : Entry.under property.name element.entries = first :: further) {value : Value}
    (reads : property.read first = .ok value) :
    Gives controlType element property value ↔ property.Confirms value further := by
  have issues := (concerns_readTag_iff declared plain solid element).not
  unfold Gives
  rw [get?_readTag_eq declared plain, stated, ← property.confirms_iff property.initial? reads,
    and_comm]
  refine and_congr_left fun _ => ?_
  rw [not_not, stated] at issues
  rw [← issues]
  simp

end Component

end PageDesigner
