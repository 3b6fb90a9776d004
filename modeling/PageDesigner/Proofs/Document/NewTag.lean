import PageDesigner.Proofs.Control.Taking
import PageDesigner.Proofs.Document.ReadBack
import PageDesigner.Proofs.Markup.Stated

/-!
# The tag of a new control

The tag of a control is a list of attributes, written one behind the other
(`Component.markup_eq`).  Each of them is read back as it was written, so the tag of a new
control says just what it was written with, and brings no other tag
(`Component.exists_newTag`).
-/

namespace PageDesigner

open Piece (Writable Reads attributePieces blankPieces lexemes)

/-! ## The attributes of a control -/

namespace Component

/-- The attribute that states a property, unless the property has its declared value. -/
def statement? (component : Component) (property : Property) : Option (Text × Text) :=
  if component.isInitial property.name then none
  else
    match component.get? property.name with
    | none => none
    | some value =>
        match property.write value with
        | .ok written => some (property.name, written)
        | .error _ => none

/-- The attributes with which a control of the given name is written. -/
def statements (component : Component) (site : Text) : List (Text × Text) :=
  ("id", site) :: ("runat", "server") ::
    component.controlType.properties.filterMap component.statement?

/-- What the tag of a control of the given name says. -/
def said (component : Component) (site : Text) : Name × List Entry :=
  (Name.ofText component.controlType.tag,
    (component.statements site).map fun stated => (Name.ofText stated.1, stated.2))

/-- What stands behind the attributes of a control. -/
def ending (component : Component) : Text :=
  if component.controlType.space.isSome then " />"
  else "></" ++ component.controlType.tag ++ ">"

theorem propertyMarkup_eq (component : Component) (property : Property) :
    component.propertyMarkup property =
      lexemes (Piece.attributesPieces (component.statement? property).toList) := by
  unfold propertyMarkup statement?
  split
  · rfl
  · cases component.get? property.name with
    | none => rfl
    | some value =>
        cases written : property.write value with
        | error cause => simp [written, Piece.attributesPieces]
        | ok written' => simp [written, attributeMarkup_eq, Piece.attributesPieces]

/-- A control is written as its attributes. -/
theorem markup_eq (component : Component) (site : Text) :
    component.markup site = '<' :: (component.controlType.tag ++
      (lexemes (Piece.attributesPieces (component.statements site)) ++ component.ending)) := by
  have stated : (component.controlType.properties.map component.propertyMarkup).flatten =
      lexemes (Piece.attributesPieces
        (component.controlType.properties.filterMap component.statement?)) := by
    induction component.controlType.properties with
    | nil => rfl
    | cons property properties ih =>
        rw [List.map_cons, List.flatten_cons, ih, propertyMarkup_eq, List.filterMap_cons]
        cases component.statement? property with
        | none => rfl
        | some stated =>
            unfold Piece.attributesPieces
            rw [List.flatMap_cons, Piece.lexemes_append]
            simp
  have own : ∀ key value rest, lexemes (Piece.attributesPieces ((key, value) :: rest)) =
      ' ' :: (attributeMarkup key value ++ lexemes (Piece.attributesPieces rest)) := by
    intro key value rest
    rw [attributeMarkup_eq]
    simp [Piece.attributesPieces]
  unfold markup statements ending
  dsimp only
  rw [stated, own, own]
  have runs : attributeMarkup "runat" "server" = "runat=\"server\"" := by decide
  rw [runs]
  simp

end Component

/-- A type whose tag and whose properties can be written in a tag that holds markup. -/
def ControlType.isWritable (controlType : ControlType) : Bool :=
  controlType.tag.head?.any startsTagName && controlType.tag.all continuesName &&
    controlType.properties.all (fun property =>
      property.name.head?.any startsName && property.name.all continuesName) &&
    ((Name.ofText controlType.tag).isQualified ||
      !(Event.voidNames ++ Event.rawNames).contains (Name.ofText controlType.tag).base.lower)

namespace Event

/-- A closing tag brings no tag. -/
theorem profilesFrom_closing {name : Text} (named : name.head?.any startsTagName = true)
    (word : name.all continuesName = true) (rest : Text) :
    profilesFrom 0 ('<' :: '/' :: (name ++ '>' :: rest)) = profilesFrom 0 rest := by
  have shape : '/' :: (name ++ '>' :: rest) = '/' :: (name ++ ['>']) ++ rest := by simp
  rw [profilesFrom, if_pos rfl, construct_closing named (absent_of_word word rfl),
    profilesFrom_drop]
  dsimp only
  rw [shape, List.drop_left]
  simp [startsTagName]

end Event

namespace Component

/-- Each attribute of a control of a writable type is read back as it was written. -/
theorem writable_statements {component : Component}
    (writable : component.controlType.isWritable = true) {site : Text}
    {stated : Text × Text} (member : stated ∈ component.statements site) :
    Writable stated.1 (Reference.escapeAttribute stated.2) := by
  unfold ControlType.isWritable at writable
  simp only [Bool.and_eq_true] at writable
  unfold statements at member
  rcases List.mem_cons.mp member with rfl | member
  · exact Piece.writable_of_word rfl rfl site
  rcases List.mem_cons.mp member with rfl | member
  · exact Piece.writable_of_word rfl rfl _
  obtain ⟨property, declared, states⟩ := List.mem_filterMap.mp member
  have named := List.all_eq_true.mp writable.1.2 property declared
  rw [Bool.and_eq_true] at named
  unfold statement? at states
  split at states
  · cases states
  split at states
  · cases states
  split at states
  · cases states
    exact Piece.writable_of_word named.1 named.2 _
  · cases states

/-- The tag of a control of a writable type takes nothing behind it. -/
theorem takenBehind_of_writable {controlType : ControlType}
    (writable : controlType.isWritable = true) (stop : TagStop) (behind : Text) :
    Event.takenBehind (Name.ofText controlType.tag) stop behind = 0 := by
  unfold ControlType.isWritable at writable
  simp only [Bool.and_eq_true] at writable
  have parsed := writable.2
  unfold Event.takenBehind
  dsimp only
  split
  · rfl
  split
  · rfl
  split
  · next raw =>
      simp only [Bool.and_eq_true, Bool.not_eq_true'] at raw
      rw [raw.1, Bool.false_or, Bool.not_eq_true', List.contains_eq_any_beq, List.any_append,
        ← List.contains_eq_any_beq, ← List.contains_eq_any_beq, raw.2, Bool.or_true] at parsed
      cases parsed
  · rfl

/-- The tag of a control of a writable type, without what ends it. -/
def statedTag (component : Component) (writable : component.controlType.isWritable = true)
    (site : Text) : StatedTag where
  written := component.controlType.tag
  attributes := component.statements site
  named := by
    unfold ControlType.isWritable at writable
    simp only [Bool.and_eq_true] at writable
    exact writable.1.1.1
  word := by
    unfold ControlType.isWritable at writable
    simp only [Bool.and_eq_true] at writable
    exact writable.1.1.2
  writable := fun _ => writable_statements writable

/-- A control is written as its tag and what ends it. -/
theorem markup_statedTag {component : Component}
    (writable : component.controlType.isWritable = true) (site : Text) :
    component.markup site = (component.statedTag writable site).markup ++ component.ending := by
  rw [markup_eq, Piece.lexemes_attributesPieces]
  simp [StatedTag.markup, statedTag]

/-- The tag of a control, in front of any text: it says what the control was written with, and the
tags behind it are those of the text. -/
theorem exists_newTag {component : Component} (writable : component.controlType.isWritable = true)
    (site rest : Text) :
    ∃ tag : TagText, '<' :: tag.text = component.markup site ++ rest ∧
      (tag.name, tag.entries) = component.said site ∧ tag.later = Event.profilesFrom 0 rest := by
  have whole := takenBehind_of_writable writable
  rw [markup_statedTag writable]
  unfold ending
  by_cases spaced : component.controlType.space.isSome = true
  · -- The tag is closed at once.
    rw [if_pos spaced]
    refine ⟨(component.statedTag writable site).inFrontOf true rest,
      StatedTag.text_inFrontOf _ true rest, Prod.ext rfl (StatedTag.entries_inFrontOf _ true rest),
      ?_⟩
    unfold TagText.later TagText.name
    show Event.profilesFrom (Event.takenBehind (Name.ofText component.controlType.tag) _ rest) _ = _
    rw [whole]
    rfl
  · rw [if_neg spaced]
    refine ⟨(component.statedTag writable site).inFrontOf false
      ('<' :: '/' :: (component.controlType.tag ++ '>' :: rest)), ?_,
      Prod.ext rfl (StatedTag.entries_inFrontOf _ false _), ?_⟩
    · rw [StatedTag.text_inFrontOf _ false]
      simp [StatedTag.mark]
    · unfold TagText.later TagText.name
      show Event.profilesFrom (Event.takenBehind (Name.ofText component.controlType.tag) _ _) _ = _
      rw [whole]
      have named := (component.statedTag writable site).named
      exact Event.profilesFrom_closing named (component.statedTag writable site).word rest

end Component

/-- The tag of a new control of a standard type is read back as the control. -/
theorem standard_said : ∀ controlType ∈ Registry.standard.all, controlType.kind = .page ∨
    (controlType.isWritable = true ∧
      Registry.standard.resolve? (Name.ofText controlType.tag) = some controlType ∧
      (Name.ofText controlType.tag).is "script" = false ∧
      (Component.fresh controlType).taking ((controlType.properties.filterMap
        (Component.fresh controlType).initialized.statement?).map fun stated =>
          (Name.ofText stated.1, stated.2)) = (Component.fresh controlType).initialized) := by
  decide +kernel

end PageDesigner
