import PageDesigner.Control.Render
import PageDesigner.Markup.Tree

/-!
# Components and their tags

A control is written as a tag that carries its name and every property that
differs from its declared value.  Reading goes the other way: the attributes of
a tag are applied to a component, and what cannot be applied is reported as an
issue.
-/

namespace PageDesigner

/-- Something in the markup that could not be applied to a component. -/
structure Issue where
  tag : Text
  id? : Option Text
  place : Location
  message : Text
  deriving DecidableEq, Repr

namespace Issue

/-- An issue with a tag. -/
def ofTag (tag : Tag) (message : Text) : Issue :=
  ⟨tag.name.text, tag.id?, tag.region.first, message⟩

/-- The sentence that reports the issue. -/
def text (issue : Issue) : Text :=
  let tag : Text :=
    match issue.id? with
    | some id => issue.tag ++ " id=\"" ++ id ++ "\""
    | none => issue.tag
  "<" ++ tag ++ "> at " ++ issue.place.text ++ ": " ++ issue.message

end Issue

namespace Component

/-! ## Writing -/

/-- An attribute of a tag, as written. -/
def attributeMarkup (key value : Text) : Text :=
  key ++ "=\"" ++ Reference.escapeAttribute value ++ "\""

/-- The attribute that states a property, unless the property has its declared value. -/
def propertyMarkup (component : Component) (property : Property) : Text :=
  if component.isInitial property.name then []
  else
    match component.get? property.name with
    | none => []
    | some value =>
        match property.write value with
        | .ok written => " " ++ attributeMarkup property.name written
        | .error _ => []

/-- The tag of a new control with the given name. -/
def markup (component : Component) (site : Text) : Text :=
  let tag := component.controlType.tag
  let properties := (component.controlType.properties.map component.propertyMarkup).flatten
  let ending : Text :=
    if component.controlType.space.isSome then " />" else "></" ++ tag ++ ">"
  "<" ++ tag ++ " " ++ attributeMarkup "id" site ++ " runat=\"server\"" ++ properties ++ ending

/-! ## Reading -/

/-- A component to which some attributes of a tag have been applied. -/
structure Reading where
  component : Component
  /-- Properties that the tag states. -/
  stated : List Text
  /-- Events that the tag binds. -/
  bound : List Text
  issues : List Issue

namespace Reading

/-- Report a property of the tag that cannot be applied. -/
def report (reading : Reading) (tag : Tag) (property reason : Text) : Reading :=
  { reading with issues := reading.issues ++ [Issue.ofTag tag (property ++ ": " ++ reason)] }

/-- Apply an attribute that states a property; an equal value is not set again. -/
def applyProperty (reading : Reading) (tag : Tag) (property : Property) (written : Text) :
    Reading :=
  let reading := { reading with stated := reading.stated ++ [property.name] }
  match property.read written with
  | .error cause => reading.report tag property.name cause.message
  | .ok value =>
      if reading.component.get? property.name = some value then reading
      else
        match reading.component.set property.name value with
        | .ok (_, changed) => { reading with component := changed }
        | .error failure => reading.report tag property.name failure.message

/-- Apply an attribute that binds an event. -/
def applyEvent (reading : Reading) (tag : Tag) (event handler : Text) : Reading :=
  let reading := { reading with bound := reading.bound ++ [event] }
  match reading.component.bind event handler with
  | .ok changed => { reading with component := changed }
  | .error failure =>
      { reading with issues := reading.issues ++ [Issue.ofTag tag failure.message] }

/-- The event that an attribute name such as `OnClick` binds. -/
def event? (controlType : ControlType) (name : Text) : Option Text :=
  if Text.sameName (name.take 2) "on" then controlType.event? (name.drop 2) else none

/-- Apply one attribute of a tag.  Attributes that mean nothing to the type are passed over. -/
def apply (tag : Tag) (reading : Reading) (entry : Attribute) : Reading :=
  let name := entry.name.text
  let controlType := reading.component.controlType
  if name.sameName "id" || name.sameName "runat" then reading
  else
    match controlType.property? name with
    | some property => reading.applyProperty tag property entry.value
    | none =>
        match event? controlType name with
        | some event => reading.applyEvent tag event entry.value
        | none => reading

/-- Put a property back to its declared value unless the tag states it. -/
def restore (tag : Tag) (reading : Reading) (property : Property) : Reading :=
  if reading.stated.contains property.name || reading.component.isInitial property.name then
    reading
  else
    match reading.component.reset property.name with
    | .ok (_, changed) => { reading with component := changed }
    | .error failure => reading.report tag property.name failure.message

/-- Remove the handler of an event unless the tag binds it. -/
def release (reading : Reading) (event : Text) : Reading :=
  if reading.bound.contains event then reading
  else { reading with component := reading.component.unbind event }

/-- Put back every property and event that the tag does not mention. -/
def restoreRest (reading : Reading) (tag : Tag) : Reading :=
  let controlType := reading.component.controlType
  controlType.events.foldl release (controlType.properties.foldl (restore tag) reading)

end Reading

/-- Attributes of a plain HTML tag that its control keeps. -/
def keepsAttribute (name : Text) : Bool :=
  let name := name.lower
  name != "id" && name != "runat" && name != "visible" && name.take 2 != "on"

/-- The shape of a tag. -/
def shapeOf (element : Element) : TagShape :=
  ⟨element.name.text,
    (element.attributes.map fun entry => (entry.name.text, entry.value)).filter
      fun entry => keepsAttribute entry.1,
    element.ending = .void || element.isSelfClosing⟩

/-- Take over what the component keeps of its tag itself. -/
def bindTag (component : Component) (element : Element) : Component :=
  match component.controlType.look with
  | .generic => { component with shape := shapeOf element }
  | _ => component

/--
Apply the tag of an element to the component.  With `restoring`, whatever the
tag does not mention is put back to what the type declares.
-/
def readTag (component : Component) (element : Element) (restoring : Bool) :
    Component × List Issue :=
  let tag := element.toTag
  let reading := tag.attributes.foldl (Reading.apply tag) ⟨component, [], [], []⟩
  let reading := if restoring then reading.restoreRest tag else reading
  (reading.component.bindTag element, reading.issues)

end Component

end PageDesigner
