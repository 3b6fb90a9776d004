import PageDesigner.Control.Table
import PageDesigner.Control.Type
import PageDesigner.DesignError

/-!
# Components

A component is a live control: the property values and event handlers that were
set on it, and the little state that comes from elsewhere (the shape of a plain
HTML tag, the resolved address of a link, the children of a page).  A property
that is not set reads as its declared value.
-/

namespace PageDesigner

/-- What a plain HTML control keeps of the tag it stands for. -/
structure TagShape where
  tag : Text
  attributes : List (Text × Text)
  isVoid : Bool
  deriving DecidableEq, Repr

/-- A live control or page. -/
structure Component where
  controlType : ControlType
  values : Table Value
  handlers : Table Text
  shape : TagShape
  /-- The address of a link, with `~/` resolved; set just before drawing. -/
  resolvedUrl : Text
  /-- Names of the controls on a page. -/
  children : List Text
  deriving DecidableEq, Repr

namespace Component

/-- The shape a plain HTML control has until it stands for a tag. -/
def plainShape : TagShape := ⟨"span", [], false⟩

/-- A fresh component of a type: nothing is set. -/
def fresh (controlType : ControlType) : Component :=
  ⟨controlType, [], [], plainShape, [], []⟩

/-! ## Reading -/

/-- The value of a property: the one that was set, or else the declared one. -/
def get? (component : Component) (name : Text) : Option Value :=
  match component.controlType.property? name with
  | none => none
  | some property => (component.values.get? property.name).or property.initial?

/-- The text of a property, or nothing at all. -/
def text (component : Component) (name : Text) : Text :=
  ((component.get? name).bind Value.text?).getD []

/-- The truth of a property; false when it has none. -/
def flag (component : Component) (name : Text) : Bool :=
  ((component.get? name).bind Value.flag?).getD false

/-- The number of a property; zero when it has none. -/
def number (component : Component) (name : Text) : Int64 :=
  ((component.get? name).bind Value.number?).getD 0

/-- Whether a property exists and reads as its declared value. -/
def isInitial (component : Component) (name : Text) : Bool :=
  match component.controlType.property? name with
  | none => false
  | some property =>
      match component.get? name with
      | some value => property.isInitial value
      | none => true

/-- The handler bound to an event. -/
def handler? (component : Component) (event : Text) : Option Text :=
  (component.controlType.event? event).bind component.handlers.get?

/-- Whether the component can have child controls. -/
def isPage (component : Component) : Bool := component.controlType.look = .page

/-! ## Writing -/

/-- The property with the given name, or the failure to find it. -/
def property (component : Component) (name : Text) : Except DesignError Property :=
  match component.controlType.property? name with
  | some property => .ok property
  | none => .error (.propertyNotFound component.controlType.name name)

/-- Set a property to a value of its kind; also gives its value before. -/
def set (component : Component) (name : Text) (value : Value) :
    Except DesignError (Option Value × Component) :=
  match component.property name with
  | .error failure => .error failure
  | .ok property =>
      match property.checkKind value with
      | .error cause => .error (.conversion cause)
      | .ok () =>
          .ok (component.get? property.name,
            { component with values := Table.put property.name value component.values })

/-- Drop the value that was set; also gives the value before. -/
def reset (component : Component) (name : Text) :
    Except DesignError (Option Value × Component) :=
  match component.property name with
  | .error failure => .error failure
  | .ok property =>
      .ok (component.get? property.name,
        { component with values := component.values.erase property.name })

/-- Bind a handler to an event. -/
def bind (component : Component) (event handler : Text) : Except DesignError Component :=
  match component.controlType.event? event with
  | some declared =>
      .ok { component with handlers := Table.put declared handler component.handlers }
  | none => .error (.propertyNotFound component.controlType.name ("On" ++ event))

/-- Remove the handler of an event. -/
def unbind (component : Component) (event : Text) : Component :=
  match component.controlType.event? event with
  | some declared => { component with handlers := component.handlers.erase declared }
  | none => component

/-- A fresh component of the same type with the same values and handlers. -/
def copy (component : Component) : Component :=
  { fresh component.controlType with
    values := component.values, handlers := component.handlers }

/-! ## Hooks -/

/-- The text a control shows when it is added from the design surface. -/
def caption? : Look → Option Text
  | .button => some "Button"
  | .label => some "Label"
  | .hyperLink => some "HyperLink"
  | _ => none

/-- Whether components of the type are prepared when they are added. -/
def hasCaption (component : Component) : Bool := (caption? component.controlType.look).isSome

/-- Give a control that was just added a caption, unless it has text. -/
def initialized (component : Component) : Component :=
  match caption? component.controlType.look with
  | none => component
  | some caption =>
      if (component.text "Text").isEmpty then
        match component.set "Text" (.string caption) with
        | .ok (_, changed) => changed
        | .error _ => component
      else component

/-- Whether components of the type are prepared before they are drawn. -/
def hasUrl (component : Component) : Bool := component.controlType.look = .hyperLink

/-- An address with a leading `~/` resolved against the root of the site. -/
def resolveUrl : Text → Text
  | '~' :: '/' :: rest => '/' :: rest
  | url => url

/-- Prepare the component for drawing: links resolve their address. -/
def prepared (component : Component) : Component :=
  if component.hasUrl then
    { component with resolvedUrl := resolveUrl (component.text "NavigateUrl") }
  else component

end Component

end PageDesigner
