import PageDesigner.Control.Component
import PageDesigner.Text.Reference

/-!
# The HTML of components

How each type of control draws itself.  Forms and plain HTML controls also draw
themselves around the HTML of their children.  A control that is not visible
draws nothing.
-/

namespace PageDesigner.Component

open Reference (escapeAttribute escapeText)

/-- An attribute with its value in double quotes, after a blank. -/
def drawnAttribute (name value : Text) : Text :=
  " " ++ name ++ "=\"" ++ escapeAttribute value ++ "\""

/-- The attribute, unless its value is empty. -/
def optionalAttribute (name value : Text) : Text :=
  if value.isEmpty then [] else drawnAttribute name value

/-- The attribute for a number, unless the number is not positive. -/
def positiveAttribute (name : Text) (number : Int64) : Text :=
  optionalAttribute name (if 0 < number then Text.ofInt number.toInt else [])

/-- The attributes for the appearance that web controls have in common. -/
def appearance (component : Component) : Text :=
  optionalAttribute "class" (component.text "CssClass") ++
    optionalAttribute "title" (component.text "ToolTip") ++
    Text.onlyIf (!component.flag "Enabled") " disabled=\"disabled\""

def drawButton (component : Component) (site : Text) : Text :=
  "<input type=\"submit\"" ++ drawnAttribute "name" site ++
    drawnAttribute "value" (component.text "Text") ++ drawnAttribute "id" site ++
    component.appearance ++ " />"

/-- A label draws its text as markup, not as escaped text. -/
def drawLabel (component : Component) (site : Text) : Text :=
  let associated := component.text "AssociatedControlID"
  let tag : Text := if associated.isEmpty then "span" else "label"
  "<" ++ tag ++ drawnAttribute "id" site ++ optionalAttribute "for" associated ++
    component.appearance ++ ">" ++ component.text "Text" ++ "</" ++ tag ++ ">"

/-- The attributes of a text box that follow those of its layout. -/
def boxAttributes (component : Component) : Text :=
  Text.onlyIf (component.flag "ReadOnly") " readonly=\"readonly\"" ++ component.appearance

/-- A text box over several lines. -/
def drawTextArea (component : Component) (site : Text) : Text :=
  "<textarea" ++ drawnAttribute "name" site ++ drawnAttribute "id" site ++
    positiveAttribute "rows" (component.number "Rows") ++
    positiveAttribute "cols" (component.number "Columns") ++
    component.boxAttributes ++ ">" ++ escapeText (component.text "Text") ++ "</textarea>"

/-- A text box on one line; for a password it never shows its text. -/
def drawInput (component : Component) (site : Text) (isPassword : Bool) : Text :=
  "<input" ++ drawnAttribute "name" site ++
    drawnAttribute "type" (if isPassword then "password" else "text") ++
    Text.onlyIf (!isPassword) (optionalAttribute "value" (component.text "Text")) ++
    drawnAttribute "id" site ++
    positiveAttribute "maxlength" (component.number "MaxLength") ++
    positiveAttribute "size" (component.number "Columns") ++
    component.boxAttributes ++ " />"

def drawTextBox (component : Component) (site : Text) : Text :=
  if component.text "TextMode" = "MultiLine" then component.drawTextArea site
  else component.drawInput site (component.text "TextMode" = "Password")

def drawCheckBox (component : Component) (site : Text) : Text :=
  let text := component.text "Text"
  "<input" ++ drawnAttribute "id" site ++ " type=\"checkbox\"" ++ drawnAttribute "name" site ++
    Text.onlyIf (component.flag "Checked") " checked=\"checked\"" ++
    component.appearance ++ " />" ++
    Text.onlyIf (!text.isEmpty) ("<label" ++ drawnAttribute "for" site ++ ">" ++ text ++ "</label>")

def drawHyperLink (component : Component) (site : Text) : Text :=
  "<a" ++ drawnAttribute "id" site ++ optionalAttribute "href" component.resolvedUrl ++
    optionalAttribute "target" (component.text "Target") ++ component.appearance ++ ">" ++
    escapeText (component.text "Text") ++ "</a>"

def drawForm (component : Component) (site inner : Text) : Text :=
  "<form" ++ drawnAttribute "method" (component.text "Method") ++
    optionalAttribute "action" (component.text "Action") ++ drawnAttribute "id" site ++ ">" ++
    inner ++ "</form>"

/-- A plain HTML control draws its own tag and attributes around its children. -/
def drawGeneric (component : Component) (site inner : Text) : Text :=
  let shape := component.shape
  let attributes := (shape.attributes.map fun (name, value) => drawnAttribute name value).flatten
  let ending : Text := if shape.isVoid then " />" else ">" ++ inner ++ "</" ++ shape.tag ++ ">"
  "<" ++ shape.tag ++ attributes ++ drawnAttribute "id" site ++ ending

/-- Draw one part of a template. -/
def drawPart (component : Component) (site : Text) : TemplatePart → Text
  | .literal html => html
  | .siteName => site
  | .property name => component.text name

/-- The drawing, unless the component is not visible. -/
def whenVisible (component : Component) (drawing : Text) : Text :=
  if component.flag "Visible" then drawing else []

/-- The HTML of the component around the HTML of its children, if it can have any. -/
def renderAround? (component : Component) (site inner : Text) : Option Text :=
  match component.controlType.look with
  | .form => some (component.drawForm site inner)
  | .generic => some (component.whenVisible (component.drawGeneric site inner))
  | _ => none

/-- The HTML of the component. -/
def render (component : Component) (site : Text) : Text :=
  match component.controlType.look with
  | .page => []
  | .placeHolder => []
  | .button => component.whenVisible (component.drawButton site)
  | .label => component.whenVisible (component.drawLabel site)
  | .textBox => component.whenVisible (component.drawTextBox site)
  | .checkBox => component.whenVisible (component.drawCheckBox site)
  | .hyperLink => component.whenVisible (component.drawHyperLink site)
  | .form => component.drawForm site []
  | .generic => component.whenVisible (component.drawGeneric site [])
  | .template parts => (parts.map (component.drawPart site)).flatten

end PageDesigner.Component
