import PageDesigner.Proofs.Document.Drawing
import PageDesigner.Proofs.Document.Sound
import PageDesigner.Proofs.Markup.Literal
import PageDesigner.Proofs.Text.Source

/-!
# Literal markup is shown as it is written

Markup that holds no controls, no scripts and no event attributes is drawn as its own
text (`Literal.restores_print`).  Drawing a node writes what was printed for it and
moves on to its end; the text between the nodes is copied from the source, each stretch
once.

Capitals make a difference only to what is written: names are compared without regard to
letter case, and `ONCLICK` is an event attribute like any other (`Document.drops_capitals`).
-/

namespace PageDesigner

namespace DesignHtml

/-! ## Tags -/

/-- An attribute that is neither `runat` nor an event is shown. -/
theorem isWiring_literal (stated : LiteralAttribute) : isWiring stated.name = false :=
  isWiring_eq_false_iff.mpr ⟨stated.notRunat, stated.notEvent⟩

theorem literalAttribute_stated (location : Location) (attributes : List LiteralAttribute) :
    (TagBody.stated location (attributes.map LiteralAttribute.entry)).flatMap literalAttribute =
      attributes.flatMap LiteralAttribute.print := by
  induction attributes generalizing location with
  | nil => rfl
  | cons stated attributes ih =>
      rw [List.map_cons, TagBody.stated, List.flatMap_cons, List.flatMap_cons, ih]
      simp [literalAttribute, isWiring_literal, stated.print_eq, LiteralAttribute.entry]

variable (name : LiteralName) (attributes : List LiteralAttribute) (single : Bool)
  (first : Location)

theorem openTag_literal :
    openTag ((name.tag attributes).tagAt single first) = (name.tag attributes).markup := by
  unfold openTag
  rw [name.markup_tag]
  simp [StatedTag.tagAt, LiteralName.tag, literalAttribute_stated]

/-- No literal element is a server control. -/
theorem isServerControl_literal :
    ((name.tag attributes).tagAt single first).isServerControl = false := by
  have runs : ((name.tag attributes).tagAt single first).runsAtServer = false := by
    rw [← Tag.runsAtServer_entries, ← (name.tag attributes).tagOf_inFrontOf single [],
      TagText.entries_tagOf, StatedTag.entries_inFrontOf]
    refine List.any_eq_false.mpr fun entry member => ?_
    obtain ⟨_, listed, rfl⟩ := List.mem_map.mp member
    obtain ⟨stated, _, rfl⟩ := List.mem_map.mp listed
    have named : (Name.ofText stated.entry.1).isWritten "runat" = false := by
      rw [Name.isWritten, Name.text_ofText]
      exact stated.notRunat
    rw [named, Bool.false_and]
    exact Bool.false_ne_true
  unfold Tag.isServerControl
  rw [runs]
  simp [StatedTag.tagAt, LiteralName.tag, name.unprefixed]

theorem is_literal {special : Text} (listed : special ∈ specialNames) :
    ((name.tag attributes).tagAt single first).name.is special = false :=
  name.is_eq_false listed

/-- Nothing is put into a literal element. -/
theorem lead_literal (context : DrawingContext) (surface : Surface) :
    lead context surface ((name.tag attributes).tagAt single first).name = [] := by
  unfold lead
  rw [is_literal name attributes single first (by decide),
    is_literal name attributes single first (by decide)]
  rfl

/-! ## Elements -/

section

variable {context : DrawingContext}

mutual

/-- An element is drawn as it was printed. -/
theorem drawNode_literal (literal : Literal) {front back : Text}
    (whole : context.tree.source = front ++ (literal.print ++ back)) (drawing : Drawing) :
    drawNode context drawing (literal.nodeAt (Location.start.advance front)) =
      (literal.print,
        { drawing with previous := Location.start.advance (front ++ literal.print) }) := by
  cases literal with
  | single name attributes =>
      have text : (Literal.single name attributes).print =
          (name.tag attributes).markup ++ StatedTag.mark true := by
        rw [Literal.print, name.markup_tag]
        rfl
      rw [Literal.nodeAt, drawNode_single (is_literal name attributes true _ (by decide))
        (isServerControl_literal name attributes true _) _ _ _ rfl, openTag_literal, text,
        Location.advance_append]
      rfl
  | paired name holds attributes content =>
      have text : (Literal.paired name holds attributes content).print =
          (name.tag attributes).markup ++ StatedTag.mark false ++
            (content.print ++ ("</" ++ name.written ++ ">")) := by
        rw [Literal.print, name.markup_tag]
        simp [StatedTag.mark]
      rw [text] at whole ⊢
      generalize opens : (name.tag attributes).markup ++ StatedTag.mark false = opening at whole ⊢
      have last : ((name.tag attributes).tagAt false (Location.start.advance front)).region.last =
          Location.start.advance (front ++ opening) := by
        rw [Location.advance_append, ← opens]
        rfl
      rw [Literal.nodeAt, drawNode_paired (is_literal name attributes false _ (by decide))
        (isServerControl_literal name attributes false _) _ _ _ rfl, openTag_literal, last]
      have whole' : context.tree.source =
          front ++ opening ++ (content.print ++ (("</" ++ name.written ++ ">") ++ back)) := by
        rw [whole]
        simp
      obtain ⟨shown, rest, split, drawn⟩ := @drawNodes_literal content _ _ whole'
        { drawing with previous := Location.start.advance (front ++ opening) } rfl
      have trailing : context.tree.slice (Location.start.advance (front ++ opening ++ shown))
          (Location.start.advance (front ++ opening ++ content.print)) = rest := by
        rw [split, List.append_assoc shown, ← List.append_assoc (front ++ opening)] at whole'
        rw [split, ← List.append_assoc (front ++ opening)]
        exact Tree.slice_part whole'
      have named : ((name.tag attributes).tagAt false (Location.start.advance front)).name.text =
          name.written := Name.text_ofText name.written
      dsimp only
      rw [drawn, endBody_closed, lead_literal, named]
      dsimp only
      rw [← Location.advance_append, trailing, ← Location.advance_append, split, ← opens]
      simp [StatedTag.mark]

/-- Content is drawn as it was printed, up to its last text. -/
theorem drawNodes_literal (content : LiteralContent) {front back : Text}
    (whole : context.tree.source = front ++ (content.print ++ back)) {drawing : Drawing}
    (here : drawing.previous = Location.start.advance front) :
    ∃ shown last, content.print = shown ++ last ∧
      drawNodes context drawing (content.nodesAt (Location.start.advance front)) =
        (shown, { drawing with previous := Location.start.advance (front ++ shown) }) := by
  cases content with
  | text last =>
      refine ⟨[], last.text, rfl, ?_⟩
      rw [List.append_nil, ← here]
      rfl
  | element before element rest =>
      have whole' : context.tree.source =
          front ++ before.text ++ (element.print ++ (rest.print ++ back)) := by
        rw [whole, LiteralContent.print]
        simp
      rw [List.append_assoc] at whole'
      have gap := Tree.slice_part whole'
      rw [← List.append_assoc] at whole'
      have drawn := drawNode_literal element whole' drawing
      rw [← List.append_assoc] at whole'
      obtain ⟨shown, last, split, later⟩ := @drawNodes_literal rest _ _ whole'
        { drawing with previous := Location.start.advance (front ++ before.text ++ element.print) } rfl
      refine ⟨before.text ++ element.print ++ shown, last, ?_, ?_⟩
      · rw [LiteralContent.print, split]
        simp
      · rw [LiteralContent.nodesAt, drawNodes]
        dsimp only
        rw [← Location.advance_append, ← Location.advance_append, drawn, later]
        have first : (element.nodeAt (Location.start.advance (front ++ before.text))).region.first =
            Location.start.advance (front ++ before.text) := by
          cases element <;> rfl
        rw [here, first, gap, List.append_assoc]
        simp

end

end

end DesignHtml

/-- Printed markup is read as the tree that was printed, and nothing is reported.  Whatever document
has it for its text shows it as it is, without a warning. -/
theorem Literal.restores_print (literal : Literal) :
    Tree.parse literal.print = ⟨[literal.nodeAt .start], [], literal.print⟩ ∧
      ∀ document : Document, document.Sound → document.text = literal.print →
        document.designHtml.1 = ⟨literal.print, []⟩ := by
  have parses := literal.parse_print
  refine ⟨parses, fun document sound text => ?_⟩
  obtain ⟨after, parsed, _, agrees, _⟩ := Document.parse_eq sound
  rw [text, parses] at parsed
  have drawn := @DesignHtml.drawNode_literal
    ⟨⟨[literal.nodeAt .start], [], literal.print⟩, after.designers, after.options.context⟩ literal
    [] [] (by simp) ⟨after.surface, .start, []⟩
  rw [Location.advance_nil] at drawn
  have element : (literal.nodeAt .start).element?.isSome = true := by
    cases literal <;> rfl
  unfold Document.designHtml DesignHtml.draw
  rw [parsed]
  dsimp only
  rw [List.find?_cons, element]
  dsimp only
  rw [drawn]

/-- A paragraph with text, a line break and a value that needs references. -/
def Literal.greeting : Literal :=
  .paired ⟨"p", by decide, by decide, by decide, by decide⟩ (by decide)
    [⟨"title", "1 < \"2\"", by decide, by decide, by decide, by decide⟩]
    (.element ⟨"Hello", by decide⟩
      (.single ⟨"br", by decide, by decide, by decide, by decide⟩ [])
      (.text ⟨" you", by decide⟩))

theorem Literal.restores_greeting :
    (Document.ofText .standard .standard .standard Literal.greeting.print).designHtml.1 =
      ⟨"<p title=\"1 &lt; &quot;2&quot;\">Hello<br /> you</p>", []⟩ :=
  Literal.greeting.restores_print.2 _ (.ofText _ _ _ _) rfl

/-- What a new document with a text shows. -/
def Document.shown (context text : Text) : DesignHtml :=
  (ofText .standard .standard ⟨context, Options.defaultScanPasses⟩ text).designHtml.1

/-- Names are compared without regard to letter case, so none of the names that are left out here is
kept by its capitals. -/
theorem Document.drops_capitals :
    ("ONCLICK" : Text) ≠ "runat" ∧ ¬ ("on" : Text) <+: "ONCLICK" ∧
      shown [] "<div ONCLICK=\"go()\" />" = ⟨"<div />", []⟩ ∧
    ("RUNAT" : Text) ≠ "runat" ∧ ¬ ("on" : Text) <+: "RUNAT" ∧
      shown [] "<div RUNAT=\"x\" />" = ⟨"<div />", []⟩ ∧
    (∀ name ∈ (["SCRIPT", "STYLE", "HEAD", "BODY"] : List Text), name ∉ specialNames) ∧
      shown [] "<SCRIPT></SCRIPT>" = ⟨[], []⟩ ∧
      (Tree.parse "<STYLE><b /></STYLE>").elements.length = 1 ∧
      shown "x" "<HEAD></HEAD>" = ⟨"<HEAD>x</HEAD>", []⟩ ∧
      (shown [] "<BODY></BODY>").html ≠ "<BODY></BODY>" := by
  decide +kernel

end PageDesigner
