import PageDesigner.Document.Basic
import PageDesigner.Json.Quoted

/-!
# Design-time HTML

The HTML shown on the design surface is drawn from the first top-level element.

* A server control with a component is drawn by its designer, inside a marker
  that carries its name; forms and plain HTML controls go around their children.
* Scripts are dropped with their content, and so are all nodes but elements.
* `runat` and event attributes are dropped from other tags.
* The head starts with the designer context, and the body with a hidden block of
  the names that can be selected and those that are.
* Text between nodes is copied from the source.
* An unterminated element is closed anyway, with a warning.
-/

namespace PageDesigner

/-- What the design surface shows, and what is wrong with it. -/
structure DesignHtml where
  html : Text
  warnings : List Diagnostic
  deriving DecidableEq, Repr

/-- What stays the same while a tree is drawn. -/
structure DrawingContext where
  tree : Tree
  designers : DesignerRegistry
  /-- Markup at the start of the head. -/
  head : Text

/-- What changes while a tree is drawn. -/
structure Drawing where
  /-- The surface; drawing prepares its components. -/
  surface : Surface
  /-- End of the last node drawn; text up to the next node starts here. -/
  previous : Location
  warnings : List Diagnostic

namespace DesignHtml

/-- Attributes that are not shown on the surface. -/
def isWiring (name : Text) : Bool :=
  let name := name.lower
  name == "runat" || name.take 2 == "on"

/-- An attribute of a tag that is not drawn by a component. -/
def literalAttribute (entry : Attribute) : Text :=
  if isWiring entry.name.text then []
  else " " ++ Component.attributeMarkup entry.name.text entry.value

/-- The start of an opening tag, without its end. -/
def openTag (tag : Tag) : Text := "<" ++ tag.name.text ++ tag.attributes.flatMap literalAttribute

/-- The hidden block with the names of all components and of the selected ones. -/
def initialValues (surface : Surface) : Text :=
  let selected := surface.selection.names.filter surface.container.contains
  "<div id=\"designer_init_values\" style=\"display:none;\"> " ++
    "<span id=\"designer_selectable_items\">" ++ Quoted.writeAll surface.container.names ++
    "</span><span id=\"designer_selected_items\">" ++ Quoted.writeAll selected ++
    "</span></div>"

/-- What is drawn between the opening tag of an element and its children. -/
def lead (context : DrawingContext) (surface : Surface) (name : Name) : Text :=
  Text.onlyIf (name.is "head") context.head ++
    Text.onlyIf (name.is "body") (initialValues surface)

/-- A component inside its marker. -/
def marker (name html : Text) : Text :=
  "<div class=\"designer_component\" data-component-id=\"" ++ name ++ "\">" ++ html ++ "</div>"

/-- The stored name of the component a tag stands for. -/
def componentOf? (surface : Surface) (tag : Tag) : Option Text :=
  if tag.isServerControl then tag.id?.bind surface.container.storedName? else none

/-- Whether an element can have content. -/
def hasBody : TagEnd → Bool
  | .closed _ => true
  | .unterminated => true
  | _ => false

/-- Finish the content of an element, whose children have been drawn. -/
def endBody (context : DrawingContext) (element : Element) (children : Text × Drawing) :
    Text × Drawing :=
  let (html, drawing) := children
  match element.ending with
  | .closed closing =>
      (html ++ context.tree.slice drawing.previous closing.first,
        { drawing with previous := closing.last })
  | .unterminated =>
      (html, { drawing with
        warnings := drawing.warnings ++ [.unclosed element.name.text element.region] })
  | _ => (html, drawing)

/-- Draw the component with the given stored name, around its content if it has any. -/
def drawComponent (context : DrawingContext) (element : Element) (name : Text)
    (inner? : Option Text) (drawing : Drawing) : Text × Drawing :=
  let drawing := { drawing with previous := drawing.previous.later element.last }
  match drawing.surface.container.get? name with
  | none => ([], drawing)
  | some component =>
      match inner?.bind (component.renderAround? name) with
      | some html => (marker name html, drawing)
      | none =>
          let designer := context.designers.designerOf component.controlType.name
          let (html, prepared) := designer.draw name component
          let container := drawing.surface.container.update name fun _ => prepared
          (marker name html, { drawing with surface := { drawing.surface with container } })

mutual

/-- Draw a node. -/
def drawNode (context : DrawingContext) (drawing : Drawing) : Node → Text × Drawing
  | .element tag ending children =>
      let element : Element := ⟨tag, ending, children⟩
      let drawing := { drawing with previous := tag.region.last }
      if tag.name.is "script" then ([], { drawing with previous := element.last })
      else
        match componentOf? drawing.surface tag with
        | some name =>
            if hasBody ending then
              let (inner, drawing) := endBody context element (drawNodes context drawing children)
              drawComponent context element name (some inner) drawing
            else drawComponent context element name none drawing
        | none =>
            if hasBody ending then
              let start := openTag tag ++ ">" ++ lead context drawing.surface tag.name
              let (inner, drawing) := endBody context element (drawNodes context drawing children)
              (start ++ inner ++ "</" ++ tag.name.text ++ ">", drawing)
            else (openTag tag ++ " />", drawing)
  | node => ([], { drawing with previous := node.region.last })

/-- Draw nodes with the text in front of each. -/
def drawNodes (context : DrawingContext) (drawing : Drawing) : List Node → Text × Drawing
  | [] => ([], drawing)
  | node :: rest =>
      let gap := context.tree.slice drawing.previous node.region.first
      let (html, drawing) := drawNode context drawing node
      let (others, drawing) := drawNodes context drawing rest
      (gap ++ html ++ others, drawing)

end

/-- Draw the first top-level element of a tree. -/
def draw (context : DrawingContext) (surface : Surface) : DesignHtml × Surface :=
  match context.tree.nodes.find? fun node => node.element?.isSome with
  | none => (⟨[], []⟩, surface)
  | some node =>
      let (html, drawing) := drawNode context ⟨surface, .start, []⟩ node
      (⟨html, drawing.warnings⟩, drawing.surface)

end DesignHtml

namespace Document

/-- The design-time HTML of the current text. -/
def designHtml (document : Document) : DesignHtml × Document :=
  let (tree, document) := document.parse
  let (html, surface) :=
    DesignHtml.draw ⟨tree, document.designers, document.options.context⟩ document.surface
  (html, { document with surface })

end Document

end PageDesigner
