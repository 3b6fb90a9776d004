import PageDesigner.Document.Basic

/-!
# Editing tags

Changes of components are written back into the tags that stand for them.  Every
function here takes a tag of a parse of the current text; each edit makes the
regions of that parse stale.

An attribute is compared by its decoded value, so another spelling of the same
value is left alone, and replaced without touching the spelling of its name.
-/

namespace PageDesigner.Document

/-- The text of an opening tag without what closes it, and whether that was `/>`. -/
def splitTag (opening : Text) : Text × Bool :=
  let trimmed := opening.trimEnd
  match Text.dropEnd? "/>" trimmed, Text.dropEnd? ">" trimmed with
  | some inside, _ => (inside, true)
  | none, some inside => (inside, false)
  | none, none => (trimmed, false)

/-- Whether a text ends in a blank. -/
def endsInBlank (text : Text) : Bool := text.getLast?.any Text.isBlank

/-- Add an attribute at the end of an opening tag. -/
def insertAttribute (document : Document) (tag : Tag) (key value : Text) : Document :=
  let (inside, selfClosing) := splitTag (document.regionText tag.region)
  let inserted :=
    Text.onlyIf (!endsInBlank inside) " " ++ Component.attributeMarkup key value ++
      Text.onlyIf selfClosing " "
  document.edited (.insert (tag.region.first.advance inside) inserted)

/-- Replace the value of an attribute; false when it has that value already. -/
def updateAttribute (document : Document) (target : Attribute) (value : Text) :
    Bool × Document :=
  if target.value = value then (false, document)
  else
    (true, document.edited
      (.replace target.region (Component.attributeMarkup target.name.text value)))

/-- Give a tag an attribute; false when the tag has it with that value already. -/
def setAttribute (document : Document) (tag : Tag) (key value : Text) : Bool × Document :=
  match tag.attribute? key with
  | some existing => document.updateAttribute existing value
  | none => (true, document.insertAttribute tag key value)

/-- The region of an attribute with the blank in front of it. -/
def regionWithBlank (document : Document) (tag : Tag) (target : Attribute) : Region :=
  let first := target.region.first
  let before := document.buffer.between tag.region.first first
  if 1 < first.column && before.getLast?.any (fun char => char == ' ' || char == '\t') then
    ⟨⟨first.line, first.column - 1⟩, target.region.last⟩
  else target.region

/-- Drop an attribute and the blank in front of it; false when the tag has none. -/
def removeAttribute (document : Document) (tag : Tag) (key : Text) : Bool × Document :=
  match tag.attribute? key with
  | none => (false, document)
  | some existing => (true, document.edited (.remove (document.regionWithBlank tag existing)))

/-! ## Tags of components -/

/-- The tag of the component with the given name. -/
def tagOf (id : Text) : Action Element := do
  let tree ← parsed
  match tree.control? id with
  | some element => pure element
  | none => throw (.tagNotFound id)

/-- Whether a tag already states a value of a property. -/
def states (tag : Tag) (property : Property) (value : Value) : Bool :=
  match tag.attribute? property.name with
  | none => false
  | some existing =>
      match property.read existing.value with
      | .ok stated => stated = value
      | .error _ => false

/--
Write a property into the tag of a component.  The declared value is written by
dropping the attribute, and a tag that states the value already is left alone.
-/
def updateTag (controlType : ControlType) (id property : Text) (value : Value) : Action Bool := do
  match controlType.property? property with
  | none => throw (.propertyNotFound id property)
  | some property =>
      let tag := (← tagOf id).toTag
      if property.isInitial value then
        modifyGet (·.removeAttribute tag property.name)
      else if states tag property value then pure false
      else
        match property.write value with
        | .error cause => throw (.conversion cause)
        | .ok written => modifyGet (·.setAttribute tag property.name written)

/-- Write or clear the handler of an event in the tag of a component. -/
def updateEvent (id event : Text) (handler? : Option Text) : Action Bool := do
  let tag := (← tagOf id).toTag
  let key : Text := "On" ++ event
  match handler?.filter (!·.isEmpty) with
  | some handler => modifyGet (·.setAttribute tag key handler)
  | none => modifyGet (·.removeAttribute tag key)

/-- Point the tag of a component at another name. -/
def renameTag (id newId : Text) : Action Bool := do
  let tag := (← tagOf id).toTag
  modifyGet (·.setAttribute tag "id" newId)

/-- Remove the tag of a component, with its children and its closing tag. -/
def removeTag (id : Text) : Action Unit := do
  let element ← tagOf id
  match element.outer? with
  | none => throw (.unterminatedTag element.name.text element.region.first)
  | some region => modify (·.edited (.remove region))

/-- The closing tag in front of which new controls go: that of the form, or else of the body. -/
def insertionPoint? (tree : Tree) : Option Region :=
  (tree.elements.findSome? fun element =>
      if element.name.is "form" && element.runsAtServer then element.closing? else none).or
    (tree.elements.findSome? fun element =>
      if element.name.is "body" then element.closing? else none)

/-- Insert the tag of a new control; gives the location where it went. -/
def insertTag (markup : Text) : Action Location := do
  let tree ← parsed
  match insertionPoint? tree with
  | none => throw .noInsertionPoint
  | some closing =>
      modify (·.edited (.insert closing.first (markup ++ "\n")))
      pure closing.first

end PageDesigner.Document
