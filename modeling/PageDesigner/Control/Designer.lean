import PageDesigner.Control.Render

/-!
# Designers

On the design surface a component is drawn by the designer of its type, which
makes components visible that would otherwise draw nothing.  A designer may draw
a changed copy; the component itself is only prepared for drawing.
-/

namespace PageDesigner

/-- The ways to draw a component on the design surface. -/
inductive Designer where
  | base
  | button
  | label
  | textBox
  deriving DecidableEq, Repr

namespace Designer

/-- A grey box with the site name, for a component that draws nothing. -/
def placeholder (site : Text) : Text :=
  let shown : Text := if site.isEmpty then "Control" else site
  "<span style=\"width:100px; height:20px; background-color: #e3e3e3; color: #670023;\">" ++
    shown ++ "</span>"

/-- The HTML of a prepared component, or a grey box when that is blank. -/
def renderOrPlaceholder (site : Text) (component : Component) : Text :=
  let html := component.prepared.render site
  if html.trim.isEmpty then placeholder site else html

/-- The component with a property set; unchanged when it cannot be set. -/
def adjusted (component : Component) (name : Text) (value : Value) : Component :=
  match component.set name value with
  | .ok (_, changed) => changed
  | .error _ => component

/-- A copy whose text is the site name in brackets. -/
def captioned (site : Text) (component : Component) : Component :=
  adjusted component.copy "Text" (.string ("[" ++ site ++ "]"))

/-- A copy with a visible size. -/
def sized (component : Component) : Component :=
  let taller := adjusted component.copy "Rows" (.integer 2)
  if taller.number "Columns" ≤ 0 then adjusted taller "Columns" (.integer 20) else taller

/-- The component that is drawn: itself, or a copy that is visible. -/
def shown (designer : Designer) (site : Text) (component : Component) : Option Component :=
  match designer with
  | .base => none
  | .button => if (component.text "Text").isEmpty then some (captioned site component) else none
  | .label => if (component.text "Text").isEmpty then some (captioned site component) else none
  | .textBox =>
      if component.text "TextMode" = "MultiLine" ∧ ¬ 0 < component.number "Rows" then
        some (sized component)
      else none

/-- The design-time HTML of a component, and the component afterwards. -/
def draw (designer : Designer) (site : Text) (component : Component) : Text × Component :=
  match designer.shown site component with
  | some copy => (renderOrPlaceholder site copy, component)
  | none => (renderOrPlaceholder site component, component.prepared)

end Designer

/-- The designers of types that have one of their own. -/
structure DesignerRegistry where
  entries : List (Text × Designer)
  deriving DecidableEq, Repr

namespace DesignerRegistry

/-- No type has a designer of its own. -/
def empty : DesignerRegistry := ⟨[]⟩

/-- The designers of the built-in controls. -/
def standard : DesignerRegistry :=
  ⟨[("Button", .button), ("Label", .label), ("TextBox", .textBox)]⟩

/-- The designer of a type. -/
def designerOf (registry : DesignerRegistry) (typeName : Text) : Designer :=
  match registry.entries.find? (·.1.sameName typeName) with
  | some (_, designer) => designer
  | none => .base

end DesignerRegistry

end PageDesigner
