import PageDesigner.Proofs.Document.Reachable

/-!
# The outline of what is shown

The HTML of a surface is put together of pieces: text that is written as it is, and markers, each
for the tag in whose place a component is drawn and with what is drawn inside (`Outline.Piece`).
The outline of a tree follows the drawing of it, node by node, and its text is what is drawn
(`Outline.textOf_outline`).  So the marks of the outline are the markers that are written.
-/

namespace PageDesigner

namespace Component

/-- What a component draws in front of its content and behind it. -/
structure Frame where
  front : Text
  back : Text
  /-- Whether the content is drawn in between. -/
  isOpen : Bool

/-- What is drawn around the content of a form. -/
def formFrame (component : Component) (site : Text) : Frame :=
  ⟨"<form" ++ drawnAttribute "method" (component.text "Method") ++
    optionalAttribute "action" (component.text "Action") ++ drawnAttribute "id" site ++ ">",
    "</form>", true⟩

/-- What is drawn around the content of a plain HTML control; a void one has none. -/
def genericFrame (component : Component) (site : Text) : Frame :=
  let shape := component.shape
  let attributes := (shape.attributes.map fun (name, value) => drawnAttribute name value).flatten
  let start := "<" ++ shape.tag ++ attributes ++ drawnAttribute "id" site
  if shape.isVoid then ⟨start ++ " />", [], false⟩
  else ⟨start ++ ">", "</" ++ shape.tag ++ ">", true⟩

/-- What a component draws around its content, if it can have any. -/
def frame? (component : Component) (site : Text) : Option Frame :=
  match component.controlType.look with
  | .form => some (component.formFrame site)
  | .generic =>
      if component.flag "Visible" then some (component.genericFrame site)
      else some ⟨[], [], false⟩
  | _ => none

theorem drawForm_eq (component : Component) (site inner : Text) :
    component.drawForm site inner =
      (component.formFrame site).front ++ inner ++ (component.formFrame site).back := rfl

theorem drawGeneric_eq (component : Component) (site inner : Text) :
    component.drawGeneric site inner =
      (component.genericFrame site).front ++
        (if (component.genericFrame site).isOpen then inner else []) ++
          (component.genericFrame site).back := by
  unfold drawGeneric genericFrame
  dsimp only
  by_cases void : component.shape.isVoid = true
  · simp only [if_pos void, Bool.false_eq_true, if_false, List.append_nil, List.append_assoc]
  · simp only [if_neg void, if_true, List.append_assoc]

/-- A component is drawn around its content, unless it does not show it. -/
theorem renderAround?_eq (component : Component) (site inner : Text) :
    component.renderAround? site inner = (component.frame? site).map fun frame =>
      frame.front ++ (if frame.isOpen then inner else []) ++ frame.back := by
  unfold renderAround? frame?
  cases component.controlType.look with
  | form =>
      dsimp only
      rw [Option.map_some, if_pos (show (component.formFrame site).isOpen = true from rfl),
        drawForm_eq]
  | generic =>
      unfold whenVisible
      dsimp only
      by_cases visible : component.flag "Visible" = true
      · rw [if_pos visible, if_pos visible, Option.map_some, drawGeneric_eq]
      · rw [if_neg visible, if_neg visible]
        rfl
  | _ => rfl

/-- Preparing a component does not matter for what it draws around its content. -/
theorem frame?_prepared (component : Component) (site : Text) :
    component.prepared.frame? site = component.frame? site := by
  unfold prepared
  split <;> rfl

end Component

namespace Outline

open DesignHtml

/-- A piece of what is shown. -/
inductive Piece where
  | literal (text : Text)
  /-- A component in place of a tag, with what its marker holds. -/
  | marked (element : Element) (name : Text) (content : List Piece)

mutual

/-- What a piece shows. -/
def Piece.text : Piece → Text
  | .literal text => text
  | .marked _ name content => marker name (textOf content)

/-- What pieces show, one behind the other. -/
def textOf : List Piece → Text
  | [] => []
  | piece :: rest => piece.text ++ textOf rest

end

mutual

/-- The tags in whose place components are drawn, with the names, in the order of the markers. -/
def Piece.marks : Piece → List (Element × Text)
  | .literal _ => []
  | .marked element name content => (element, name) :: marksOf content

/-- The markers of pieces, one behind the other. -/
def marksOf : List Piece → List (Element × Text)
  | [] => []
  | piece :: rest => piece.marks ++ marksOf rest

end

/-- Pieces in a frame. -/
def around (frame : Component.Frame) (inner : List Piece) : List Piece :=
  .literal frame.front :: ((if frame.isOpen then inner else []) ++ [.literal frame.back])

/-- The component with the given stored name, around its content if it has any. -/
def component (context : DrawingContext) (surface : Surface) (element : Element) (name : Text)
    (inner? : Option (List Piece)) : List Piece :=
  match surface.container.get? name with
  | none => []
  | some component =>
      match inner?.bind fun inner => (component.frame? name).map (around · inner) with
      | some pieces => [.marked element name pieces]
      | none =>
          let designer := context.designers.designerOf component.controlType.name
          [.marked element name [.literal (designer.draw name component).1]]

/-- The content of an element, whose children have been drawn. -/
def body (context : DrawingContext) (element : Element) (pieces : List Piece)
    (drawing : Drawing) : List Piece :=
  match element.ending with
  | .closed closing => pieces ++ [.literal (context.tree.slice drawing.previous closing.first)]
  | _ => pieces

mutual

/-- The outline of a node. -/
def outlineNode (context : DrawingContext) (drawing : Drawing) : Node → List Piece
  | .element tag ending children =>
      let element : Element := ⟨tag, ending, children⟩
      let drawing := { drawing with previous := tag.region.last }
      if tag.name.is "script" then []
      else
        let below := drawNodes context drawing children
        let inner := body context element (outlineNodes context drawing children) below.2
        match componentOf? drawing.surface tag with
        | some name =>
            if hasBody ending then component context below.2.surface element name (some inner)
            else component context drawing.surface element name none
        | none =>
            if hasBody ending then
              .literal (openTag tag ++ ">" ++ lead context drawing.surface tag.name) ::
                (inner ++ [.literal ("</" ++ tag.name.text ++ ">")])
            else [.literal (openTag tag ++ " />")]
  | _ => []

/-- The outline of nodes with the text in front of each. -/
def outlineNodes (context : DrawingContext) (drawing : Drawing) : List Node → List Piece
  | [] => []
  | node :: rest =>
      .literal (context.tree.slice drawing.previous node.region.first) ::
        (outlineNode context drawing node ++
          outlineNodes context (drawNode context drawing node).2 rest)

end

/-- The outline of the first top-level element of a tree. -/
def outline (context : DrawingContext) (surface : Surface) : List Piece :=
  match context.tree.nodes.find? fun node => node.element?.isSome with
  | none => []
  | some node => outlineNode context ⟨surface, .start, []⟩ node

/-! ## Pieces -/

theorem textOf_append (former latter : List Piece) :
    textOf (former ++ latter) = textOf former ++ textOf latter := by
  induction former with
  | nil => rfl
  | cons piece rest ih => rw [List.cons_append, textOf, textOf, ih, List.append_assoc]

theorem marksOf_append (former latter : List Piece) :
    marksOf (former ++ latter) = marksOf former ++ marksOf latter := by
  induction former with
  | nil => rfl
  | cons piece rest ih => rw [List.cons_append, marksOf, marksOf, ih, List.append_assoc]

theorem textOf_literal (text : Text) : textOf [.literal text] = text := by
  rw [textOf, textOf, Piece.text, List.append_nil]

theorem textOf_cons_literal (text : Text) (rest : List Piece) :
    textOf (.literal text :: rest) = text ++ textOf rest := by
  rw [textOf, Piece.text]

theorem marksOf_cons_literal (text : Text) (rest : List Piece) :
    marksOf (.literal text :: rest) = marksOf rest := by
  rw [marksOf, Piece.marks, List.nil_append]

theorem textOf_marked (element : Element) (name : Text) (content : List Piece) :
    textOf [.marked element name content] = marker name (textOf content) := by
  rw [textOf, textOf, Piece.text, List.append_nil]

theorem marksOf_marked (element : Element) (name : Text) (content : List Piece) :
    marksOf [.marked element name content] = (element, name) :: marksOf content := by
  rw [marksOf, marksOf, Piece.marks, List.append_nil]

theorem textOf_around (frame : Component.Frame) (inner : List Piece) :
    textOf (around frame inner) =
      frame.front ++ (if frame.isOpen then textOf inner else []) ++ frame.back := by
  unfold around
  rw [textOf_cons_literal, textOf_append, textOf_literal, List.append_assoc]
  cases frame.isOpen with
  | true => rfl
  | false => rfl

theorem marksOf_around (frame : Component.Frame) (inner : List Piece) :
    marksOf (around frame inner) = if frame.isOpen then marksOf inner else [] := by
  unfold around
  rw [marksOf_cons_literal, marksOf_append, marksOf_cons_literal, marksOf, List.append_nil]
  cases frame.isOpen with
  | true => rfl
  | false => rfl

/-! ## The text of an outline -/

theorem textOf_component (context : DrawingContext) (element : Element) (name : Text)
    (inner? : Option (List Piece)) (drawing : Drawing) :
    textOf (component context drawing.surface element name inner?) =
      (drawComponent context element name (inner?.map textOf) drawing).1 := by
  unfold component drawComponent
  dsimp only
  cases drawing.surface.container.get? name with
  | none => rfl
  | some component =>
      dsimp only
      have rendered : (inner?.map textOf).bind (component.renderAround? name) =
          (inner?.bind fun inner => (component.frame? name).map (around · inner)).map textOf := by
        cases inner? with
        | none => rfl
        | some inner =>
            simp only [Option.map_some, Option.bind_some, Component.renderAround?_eq,
              Option.map_map]
            congr 1
            funext frame
            exact (textOf_around frame inner).symm
      rw [rendered]
      cases inner?.bind fun inner => (component.frame? name).map (around · inner) with
      | none => exact (textOf_marked _ _ _).trans (congrArg _ (textOf_literal _))
      | some pieces => exact textOf_marked _ _ _

theorem textOf_body (context : DrawingContext) (element : Element) (pieces : List Piece)
    (drawing : Drawing) :
    textOf (body context element pieces drawing) =
      (endBody context element (textOf pieces, drawing)).1 := by
  unfold body endBody
  dsimp only
  cases element.ending with
  | closed closing => exact (textOf_append _ _).trans (congrArg _ (textOf_literal _))
  | _ => rfl

mutual

/-- The outline of a node shows what is drawn. -/
theorem textOf_outlineNode (context : DrawingContext) (drawing : Drawing) (node : Node) :
    textOf (outlineNode context drawing node) = (drawNode context drawing node).1 := by
  cases node with
  | element tag ending children =>
      have below := textOf_outlineNodes context { drawing with previous := tag.region.last } children
      rw [outlineNode, drawNode]
      dsimp only
      by_cases script : tag.name.is "script" = true
      · rw [if_pos script, if_pos script]
        rfl
      rw [if_neg script, if_neg script]
      cases componentOf? drawing.surface tag with
      | some name =>
          dsimp only
          by_cases content : hasBody ending = true
          · rw [if_pos content, if_pos content,
              ← surface_endBody context ⟨tag, ending, children⟩ (drawNodes _ _ _), textOf_component,
              Option.map_some, textOf_body, below]
          · rw [if_neg content, if_neg content]
            exact textOf_component _ _ _ _ { drawing with previous := tag.region.last }
      | none =>
          dsimp only
          by_cases content : hasBody ending = true
          · rw [if_pos content, if_pos content, textOf_cons_literal, textOf_append, textOf_literal,
              textOf_body, below]
            simp only [List.append_assoc]
          · rw [if_neg content, if_neg content]
            exact textOf_literal _
  | _ => rfl

/-- The outline of nodes shows what is drawn. -/
theorem textOf_outlineNodes (context : DrawingContext) (drawing : Drawing) (nodes : List Node) :
    textOf (outlineNodes context drawing nodes) = (drawNodes context drawing nodes).1 := by
  cases nodes with
  | nil => rfl
  | cons node rest =>
      rw [outlineNodes, drawNodes, textOf_cons_literal, textOf_append,
        textOf_outlineNode context drawing node, textOf_outlineNodes context _ rest]
      dsimp only
      rw [List.append_assoc]

end

/-- The outline of a tree shows what is drawn. -/
theorem textOf_outline (context : DrawingContext) (surface : Surface) :
    textOf (outline context surface) = (draw context surface).1.html := by
  unfold outline draw
  cases context.tree.nodes.find? fun node => node.element?.isSome with
  | none => rfl
  | some node => exact textOf_outlineNode context ⟨surface, .start, []⟩ node

end Outline

end PageDesigner
