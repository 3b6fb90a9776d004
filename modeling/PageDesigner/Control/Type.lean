import PageDesigner.Control.Value

/-!
# Control types

A control type says which tag stands for it, which properties and events its
components have, and how they look.  Properties and events are looked up without
regard to letter case and known by their declared spelling.
-/

namespace PageDesigner

/-- A property that every component of a control type has. -/
structure Property where
  name : Text
  /-- What the property reads as while it is not set. -/
  initial? : Option Value
  converter? : Option Converter
  deriving DecidableEq, Repr

namespace Property

/-- A string property. -/
def string (name initial : Text) : Property := ⟨name, some (.string initial), some .string⟩

/-- An integer property. -/
def integer (name : Text) (initial : Int64) : Property :=
  ⟨name, some (.integer initial), some .integer⟩

/-- A boolean property. -/
def boolean (name : Text) (initial : Bool) : Property :=
  ⟨name, some (.boolean initial), some .boolean⟩

/-- A property that holds one of the given variants. -/
def enumeration (name : Text) (variants : List Text) (initial : Text) : Property :=
  ⟨name, some (.enumeration initial), some (.enumeration variants)⟩

/-- Whether a value is the declared one; kinds are not mixed. -/
def isInitial (property : Property) (value : Value) : Bool := property.initial? == some value

/-- Read a value of the property from its markup form. -/
def read (property : Property) (written : Text) : Except ConversionError Value :=
  match property.converter? with
  | some converter => converter.read written
  | none => .error (.noConverter property.name)

/-- Write the markup form of a value of the property. -/
def write (property : Property) (value : Value) : Except ConversionError Text :=
  match property.converter? with
  | some converter => converter.write value
  | none => .error (.noConverter property.name)

/-- The kind of value the property takes, unless it takes any. -/
def kind? (property : Property) : Option ValueKind :=
  match property.converter?, property.initial? with
  | some converter, _ => some converter.kind
  | none, some value => some value.kind
  | none, none => none

/-- Refuse a value of another kind than the property takes. -/
def checkKind (property : Property) (value : Value) : Except ConversionError Unit :=
  match property.kind? with
  | some expected =>
      if expected = value.kind then .ok () else .error (.typeMismatch expected value.kind)
  | none => .ok ()

end Property

/-- Whether components of a type are pages, the roots of design surfaces, or controls. -/
inductive ControlKind where
  | page
  | control
  deriving DecidableEq, Repr

/-- A part of the HTML of a type that is described by a template. -/
inductive TemplatePart where
  | literal (html : Text)
  | siteName
  | property (name : Text)
  deriving DecidableEq, Repr

/-- How the components of a type look. -/
inductive Look where
  | page
  | button
  | label
  | textBox
  | checkBox
  | hyperLink
  | placeHolder
  | form
  /-- Any other HTML tag that runs at the server; it is drawn with its own tag. -/
  | generic
  | template (parts : List TemplatePart)
  deriving DecidableEq, Repr

/-- Everything the designer knows about one type of control. -/
structure ControlType where
  name : Text
  /-- The namespace of its tag, as `asp` in `asp:Button`; plain HTML tags have none. -/
  space : Option Text
  tagName : Text
  kind : ControlKind
  properties : List Property
  events : List Text
  look : Look
  deriving DecidableEq, Repr

namespace ControlType

/-- The tag that stands for the type, `asp:Button` or `form`. -/
def tag (controlType : ControlType) : Text :=
  match controlType.space with
  | some space => space ++ ":" ++ controlType.tagName
  | none => controlType.tagName

/-- The property with the given name, up to letter case. -/
def property? (controlType : ControlType) (name : Text) : Option Property :=
  controlType.properties.find? (·.name.sameName name)

/-- The declared spelling of an event. -/
def event? (controlType : ControlType) (name : Text) : Option Text :=
  controlType.events.find? (·.sameName name)

end ControlType

end PageDesigner
