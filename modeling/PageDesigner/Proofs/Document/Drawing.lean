import PageDesigner.Document.DesignHtml
import PageDesigner.Proofs.Text.Source

/-!
# How a node is drawn

A node that stands for no component is drawn in one of four ways: scripts and whatever is
no element are left out, an element that is one tag is written as one, and any other is
written as two tags around its content.
-/

namespace PageDesigner

/-- The text between the two ends of a part of the source is the part. -/
theorem Tree.slice_part {tree : Tree} {front part back : Text}
    (whole : tree.source = front ++ (part ++ back)) :
    tree.slice (Location.start.advance front) (Location.start.advance (front ++ part)) = part := by
  unfold slice
  rw [whole, Location.advance_append]
  exact Source.slice_advance front part back

namespace DesignHtml

/-- What is shown is neither `runat` nor an event. -/
theorem isWiring_eq_false_iff {name : Text} :
    isWiring name = false ↔ name.sameName "runat" = false ∧ ¬ ("on" : Text) <+: name.lower := by
  have small : Text.lower ("runat" : Text) = "runat" := by decide
  unfold isWiring Text.sameName
  rw [Bool.or_eq_false_iff, small, beq_eq_false_iff_ne (a := name.lower.take 2),
    List.prefix_iff_eq_take]
  exact and_congr_right fun _ => not_congr eq_comm

variable {tag : Tag} {ending : TagEnd}

theorem componentOf?_of_literal (literal : tag.isServerControl = false) (surface : Surface) :
    componentOf? surface tag = none := by
  unfold componentOf?
  rw [literal, if_neg Bool.false_ne_true]

/-- Scripts are left out, through their end. -/
theorem drawNode_script (script : tag.name.is "script" = true) (context : DrawingContext)
    (drawing : Drawing) (children : List Node) :
    drawNode context drawing (.element tag ending children) =
      ([], { drawing with previous := (⟨tag, ending, children⟩ : Element).last }) := by
  unfold drawNode
  dsimp only
  rw [if_pos script]

/-- Whatever is no element is left out. -/
theorem drawNode_other {node : Node} (other : node.element? = none) (context : DrawingContext)
    (drawing : Drawing) :
    drawNode context drawing node = ([], { drawing with previous := node.region.last }) := by
  cases node with
  | element tag ending children => cases other
  | _ => rfl

/-- The text in front of a closing tag belongs to the content. -/
theorem endBody_closed (context : DrawingContext) (tag : Tag) (closing : Region)
    (children : List Node) (html : Text) (drawing : Drawing) :
    endBody context ⟨tag, .closed closing, children⟩ (html, drawing) =
      (html ++ context.tree.slice drawing.previous closing.first,
        { drawing with previous := closing.last }) :=
  rfl

/-- Nodes are drawn one behind the other. -/
theorem drawNodes_append (context : DrawingContext) (drawing : Drawing) (nodes others : List Node) :
    drawNodes context drawing (nodes ++ others) =
      let former := drawNodes context drawing nodes
      let latter := drawNodes context former.2 others
      (former.1 ++ latter.1, latter.2) := by
  induction nodes generalizing drawing with
  | nil => rfl
  | cons node nodes ih =>
      rw [List.cons_append, drawNodes, drawNodes]
      dsimp only
      rw [ih]
      simp

section

variable (notScript : tag.name.is "script" = false) (literal : tag.isServerControl = false)
  (context : DrawingContext) (drawing : Drawing) (children : List Node)

include notScript literal

/-- An element without content is written as one tag. -/
theorem drawNode_single (bodiless : hasBody ending = false) :
    drawNode context drawing (.element tag ending children) =
      (openTag tag ++ " />", { drawing with previous := tag.region.last }) := by
  unfold drawNode
  dsimp only
  rw [notScript, if_neg Bool.false_ne_true, componentOf?_of_literal literal]
  dsimp only
  rw [bodiless, if_neg Bool.false_ne_true]

/-- An element with content is written as two tags around it. -/
theorem drawNode_paired (body : hasBody ending = true) :
    drawNode context drawing (.element tag ending children) =
      let inner := endBody context ⟨tag, ending, children⟩
        (drawNodes context { drawing with previous := tag.region.last } children)
      (openTag tag ++ ">" ++ lead context drawing.surface tag.name ++ inner.1 ++
        "</" ++ tag.name.text ++ ">", inner.2) := by
  rw [drawNode]
  dsimp only
  rw [notScript, if_neg Bool.false_ne_true, componentOf?_of_literal literal]
  dsimp only
  rw [if_pos body]

end

end DesignHtml

end PageDesigner
