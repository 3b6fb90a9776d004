import Mathlib.Data.List.Perm.Subperm
import PageDesigner.Proofs.Host.Poised
import PageDesigner.Proofs.Markup.Unclosed

/-!
# What the design surface warns of

Drawing an element warns of it when it is left open, and then of what is drawn inside of it;
scripts and everything outside of the first element are not drawn.  So what a drawing warns of
is part of what its elements call for (`DesignHtml.tells_draw`), which is what parsing the text
has reported (`Tree.warns_once`).
-/

namespace PageDesigner

namespace DesignHtml

/-- A drawing goes on and warns of some of what is due. -/
def Tells (drawing after : Drawing) (due : List Diagnostic) : Prop :=
  ∃ told, after.warnings = drawing.warnings ++ told ∧ told.Subperm due

section

variable {drawing middle after : Drawing} {due later : List Diagnostic}

/-- Nothing is told, whatever else happens. -/
theorem Tells.nothing (same : after.warnings = drawing.warnings) : Tells drawing after due :=
  ⟨[], same.trans (List.append_nil _).symm, List.nil_subperm⟩

theorem Tells.append (first : Tells drawing middle due) (second : Tells middle after later) :
    Tells drawing after (due ++ later) := by
  obtain ⟨told, tells, within⟩ := first
  obtain ⟨told', tells', within'⟩ := second
  exact ⟨told ++ told', by rw [tells', tells, List.append_assoc], within.append within'⟩

theorem Tells.mono (tells : Tells drawing after due) (more : due.Subperm later) :
    Tells drawing after later := by
  obtain ⟨told, tells, within⟩ := tells
  exact ⟨told, tells, within.trans more⟩

/-- What is drawn around content tells nothing of its own. -/
theorem Tells.around (tells : Tells drawing middle due)
    (same : after.warnings = middle.warnings) : Tells drawing after due := by
  obtain ⟨told, tells, within⟩ := tells
  exact ⟨told, same.trans tells, within⟩

end

theorem warnings_drawComponent (context : DrawingContext) (element : Element) (name : Text)
    (inner? : Option Text) (drawing : Drawing) :
    (drawComponent context element name inner? drawing).2.warnings = drawing.warnings := by
  unfold drawComponent
  dsimp only
  split
  · rfl
  · split <;> rfl

/-- The end of an element that is left open is warned of, behind what its children call for. -/
theorem tells_endBody {context : DrawingContext} {drawing : Drawing} {tag : Tag} {ending : TagEnd}
    {children : List Node} {inner : Text × Drawing}
    (tells : Tells drawing inner.2 (Node.warningsOf children)) :
    Tells drawing (endBody context ⟨tag, ending, children⟩ inner).2
      (Node.warningsOf [.element tag ending children]) := by
  obtain ⟨html, middle⟩ := inner
  rw [Node.warningsOf_element]
  cases ending with
  | unterminated =>
      have own : Tells middle (endBody context ⟨tag, .unterminated, children⟩ (html, middle)).2
          [(⟨tag, .unterminated, children⟩ : Element).warning] :=
        ⟨_, rfl, .refl _⟩
      exact (tells.append own).mono List.perm_append_comm.subperm
  | _ => exact tells.around rfl

mutual

/-- Drawing a node warns of some of its elements that are left open, and of none twice. -/
theorem tells_drawNode (context : DrawingContext) (drawing : Drawing) (node : Node) :
    Tells drawing (drawNode context drawing node).2 (Node.warningsOf [node]) := by
  cases node with
  | element tag ending children =>
      have body := @tells_endBody context { drawing with previous := tag.region.last } tag ending
        children _ (tells_drawNodes context _ children)
      unfold drawNode
      dsimp only
      split
      · exact .nothing rfl
      split
      · split
        · exact body.around (warnings_drawComponent _ _ _ _ _)
        · exact .nothing (warnings_drawComponent _ _ _ _ _)
      · split
        · exact body
        · exact .nothing rfl
  | _ => exact .nothing rfl

theorem tells_drawNodes (context : DrawingContext) (drawing : Drawing) (nodes : List Node) :
    Tells drawing (drawNodes context drawing nodes).2 (Node.warningsOf nodes) := by
  cases nodes with
  | nil => exact .nothing rfl
  | cons node rest =>
      have whole : Node.warningsOf (node :: rest) =
          Node.warningsOf [node] ++ Node.warningsOf rest := Node.warningsOf_append [node] rest
      rw [whole]
      exact (tells_drawNode context drawing node).append (tells_drawNodes context _ rest)

end

/-- A drawing warns of some of the elements that are left open, and of none twice. -/
theorem tells_draw (context : DrawingContext) (surface : Surface) :
    (draw context surface).1.warnings.Subperm (Node.warningsOf context.tree.nodes) := by
  unfold draw
  split
  · exact List.nil_subperm
  · next node found =>
      obtain ⟨told, tells, within⟩ := tells_drawNode context ⟨surface, .start, []⟩ node
      obtain ⟨before, after, split⟩ := List.append_of_mem (List.mem_of_find?_eq_some found)
      have whole : context.tree.nodes = before ++ ([node] ++ after) := split
      dsimp only
      rw [tells, whole, Node.warningsOf_append, Node.warningsOf_append]
      refine within.trans (List.Sublist.subperm ?_)
      exact (List.sublist_append_left _ _).trans (List.sublist_append_right _ _)

end DesignHtml

/-- What a sound document warns of has been reported when its text was parsed. -/
theorem Document.warnings_designHtml {document : Document} (sound : document.Sound) :
    document.designHtml.1.warnings.Subperm (Tree.parse document.text).unclosed := by
  obtain ⟨after, parses, -⟩ := parse_eq sound
  unfold designHtml
  rw [parses]
  exact (DesignHtml.tells_draw _ _).trans (Tree.warnings_parse document.text).symm.subperm

namespace Tree

/--
Whatever the text, the reports about elements that are never closed correspond one to one to the
elements that are left open, each a warning with the full name of its element, where it begins, and
its opening tag.  Whatever was asked of a host, what the surface of a document with this text warns
of is some of these reports.
-/
theorem warns_once (text : Text) :
    (parse text).unclosed.Perm ((parse text).unterminated.map Element.warning) ∧
      ∀ {registry : Registry} {designers : DesignerRegistry} {options : Options} {host : Host}
        {document : Document}, Host.Reaches registry designers options host →
        host.document? = some document → document.text = text →
        document.designHtml.1.warnings.Subperm (parse text).unclosed := by
  refine ⟨warnings_parse text, fun reaches kept same => ?_⟩
  have sound := (Host.poised_of_reaches reaches).sound _ kept
  rw [← same]
  exact Document.warnings_designHtml sound

/-- A page with an element that a closing tag skips, one that the text leaves open, and raw text
without an end. -/
def leftOpen : Text := "<body><i></body><p><style>b"

/-- Of the three reports about the page, its surface shows the one about the first element. -/
theorem warns_once_leftOpen :
    ∃ document, (Host.runAll [.load leftOpen] (.new .standard .standard .standard)).document? =
        some document ∧ document.text = leftOpen ∧
      (parse leftOpen).unclosed.map (·.region.first) = [⟨1, 7⟩, ⟨1, 20⟩, ⟨1, 17⟩] ∧
      (parse leftOpen).unclosed.Perm ((parse leftOpen).unterminated.map Element.warning) ∧
      document.designHtml.1.warnings.map (·.region.first) = [⟨1, 7⟩] ∧
      document.designHtml.1.warnings.Subperm (parse leftOpen).unclosed := by
  have loads : (Host.runAll [.load leftOpen] (.new .standard .standard .standard)).document?.any
      (fun document => decide (document.text = leftOpen ∧
        document.designHtml.1.warnings.map (·.region.first) = [⟨1, 7⟩])) = true := by
    decide +kernel
  obtain ⟨document, kept, checks⟩ := (Option.any_eq_true _ _).mp loads
  obtain ⟨same, drawn⟩ := of_decide_eq_true checks
  obtain ⟨reported, warned⟩ := warns_once leftOpen
  have reaches : Host.Reaches .standard .standard .standard
      (Host.runAll [.load leftOpen] (.new .standard .standard .standard)) :=
    Host.reaches_runAll _ .refl
  exact ⟨document, kept, same, by decide +kernel, reported, drawn, warned reaches kept same⟩

end Tree

end PageDesigner
