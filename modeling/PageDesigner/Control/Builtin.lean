import PageDesigner.Control.Type

/-!
# The built-in types

The page and the controls every designer knows.
-/

namespace PageDesigner.Builtin

/-- The namespace of the web controls. -/
def webSpace : Text := "asp"

/-- The ways a text box takes text. -/
def textModes : List Text := ["SingleLine", "MultiLine", "Password"]

/-- A web control: the appearance properties come first. -/
def webControl (name : Text) (properties : List Property) (events : List Text) (look : Look) :
    ControlType :=
  ⟨name, some webSpace, name, .control,
    [.string "CssClass" [], .string "ToolTip" [], .boolean "Enabled" true,
      .boolean "Visible" true] ++ properties,
    events, look⟩

/-- The root of a design surface. -/
def page : ControlType :=
  ⟨"Page", none, "Page", .page, [.string "Title" []], ["Load"], .page⟩

def button : ControlType :=
  webControl "Button"
    [.string "Text" [], .string "CommandName" [], .boolean "CausesValidation" true]
    ["Click", "Command"] .button

def label : ControlType :=
  webControl "Label" [.string "Text" [], .string "AssociatedControlID" []] ["Load"] .label

def textBox : ControlType :=
  webControl "TextBox"
    [.string "Text" [], .enumeration "TextMode" textModes "SingleLine", .integer "MaxLength" 0,
      .integer "Columns" 0, .integer "Rows" 0, .boolean "ReadOnly" false,
      .boolean "AutoPostBack" false]
    ["TextChanged"] .textBox

def checkBox : ControlType :=
  webControl "CheckBox"
    [.string "Text" [], .boolean "Checked" false, .boolean "AutoPostBack" false]
    ["CheckedChanged"] .checkBox

def hyperLink : ControlType :=
  webControl "HyperLink" [.string "Text" [], .string "NavigateUrl" [], .string "Target" []] []
    .hyperLink

/-- Draws nothing of its own. -/
def placeHolder : ControlType :=
  ⟨"PlaceHolder", some webSpace, "PlaceHolder", .control, [.boolean "Visible" true], [],
    .placeHolder⟩

/-- A form that runs at the server. -/
def form : ControlType :=
  ⟨"HtmlForm", none, "form", .control,
    [.enumeration "Method" ["post", "get"] "post", .string "Action" []], [], .form⟩

/-- Any other HTML tag that runs at the server. -/
def generic : ControlType :=
  ⟨"HtmlGenericControl", none, "span", .control, [.boolean "Visible" true], [], .generic⟩

end PageDesigner.Builtin
