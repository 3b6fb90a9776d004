import PageDesigner.Proofs.Document.Marking
import PageDesigner.Proofs.Host.Correspondence

/-!
# What a surface shows of its components

What a document shows is an outline of text and markers (`Document.outline`).  After every load
and after every later scan, each component is shown at most once and in place of its own tag, and
the root not at all, just in case no tag of an unknown type is shown that has the id of a
component: scans pass over such a tag, but the component is drawn in its place all the same
(`marksOwn_of_scan`).
-/

namespace PageDesigner

open DesignHtml (componentOf?)
open Outline (DrawnOnce textOf marksOf)

namespace Document

/-- The outline of what a document shows. -/
def outline (document : Document) : List Outline.Piece :=
  Outline.outline ⟨Tree.parse document.text, document.designers, document.options.context⟩
    document.surface

/-- The outline is that of the HTML, and components are in place of their own tags unless a tag of
an unknown type is in the way. -/
structure MarksOwn (registry : Registry) (document : Document) : Prop where
  shows : textOf document.outline = document.designHtml.1.html
  drawnOnce_iff : DrawnOnce registry document.surface (marksOf document.outline) ↔
    ∀ element ∈ (Tree.parse document.text).shown document.surface,
      registry.resolve? element.name = none → componentOf? document.surface element.toTag = none

/-- The outline of a sound document is that of its HTML. -/
theorem Sound.textOf_outline {document : Document} (sound : document.Sound) :
    textOf document.outline = document.designHtml.1.html := by
  obtain ⟨after, parses, -, agrees, surface, -⟩ := parse_eq sound
  unfold designHtml outline
  rw [parses]
  dsimp only
  rw [surface, agrees.designers_eq, agrees.options_eq]
  exact Outline.textOf_outline _ _

theorem marksOwn_of_reconciled {document : Document} (sound : document.Sound)
    {registry : Registry} {mode : ScanMode}
    (reconciled : Surface.Reconciled registry mode (Tree.parse document.text).controls
      document.surface) : document.MarksOwn registry :=
  ⟨sound.textOf_outline, Outline.drawnOnce_iff reconciled⟩

end Document

namespace Host

open Document (persist)

/-- A document as a load or a later scan has left it. -/
inductive LeftByScan (registry : Registry) (document : Document) : Prop
  | load {designers : DesignerRegistry} {options : Options} {text : Text} {report : ScanReport}
      {host : Host} (loads : load text (new registry designers options) = .ok report host)
      (kept : host.document? = some document) : LeftByScan registry document
  | persist {before : Document} {report : ScanReport} (sound : before.Sound)
      (types : before.registry = registry) (done : persist before = .ok report document) :
      LeftByScan registry document

/-- After every load and after every later scan, each component is drawn at most once and in place
of its own tag, unless a tag of an unknown type is shown that has the id of a component. -/
theorem marksOwn_of_scan {registry : Registry} {document : Document}
    (left : LeftByScan registry document) : document.MarksOwn registry := by
  cases left with
  | load loads kept =>
      obtain ⟨document', kept', sound, reconciled⟩ := reconciled_of_load loads
      rw [kept] at kept'
      obtain rfl := Option.some.inj kept'
      exact Document.marksOwn_of_reconciled sound reconciled
  | persist sound types done =>
      obtain ⟨sound', -, reconciled⟩ := Document.reconciled_of_persist sound done
      rw [types] at reconciled
      exact Document.marksOwn_of_reconciled sound' reconciled

/-- A label behind a tag of an unknown type that has its id. -/
def doubledText : Text :=
  "<div><my:Foo id=\"L\" /><asp:Label id=\"L\" runat=\"server\" /></div>"

/-- What is shown of it has the label twice. -/
def doubledHtml : Text :=
  "<div><div class=\"designer_component\" data-component-id=\"L\"><span id=\"L\">[L]</span></div>" ++
    "<div class=\"designer_component\" data-component-id=\"L\"><span id=\"L\">[L]</span></div></div>"

/-- A later scan leaves a label that is drawn once; behind a load one is drawn twice. -/
theorem marksOwn_of_scan_doubled :
    (∃ document, LeftByScan .standard document ∧ document.MarksOwn .standard ∧
      document.names = ["Page1", "t"] ∧
      DrawnOnce .standard document.surface (marksOf document.outline)) ∧
    ∃ document, LeftByScan .standard document ∧ document.MarksOwn .standard ∧
      document.text = doubledText ∧ document.designHtml.1.html = doubledHtml ∧
      ¬ DrawnOnce .standard document.surface (marksOf document.outline) := by
  constructor
  · have clear : succeedsWith (fun _ after => after.names == (["Page1", "t"] : List Text) &&
        ((Tree.parse after.text).shown after.surface).all fun element =>
          (Registry.standard.resolve? element.name).isSome) persist driftedDocument = true := by
      decide +kernel
    obtain ⟨report, after, ran, facts⟩ := exists_of_succeedsWith clear
    obtain ⟨names, known⟩ := Bool.and_eq_true_iff.mp facts
    have left : LeftByScan .standard after := .persist sound_driftedDocument rfl ran
    have own := marksOwn_of_scan left
    refine ⟨after, left, own, eq_of_beq names, own.drawnOnce_iff.mpr ?_⟩
    intro element member unknown
    have resolved := List.all_eq_true.mp known element member
    rw [unknown] at resolved
    cases resolved
  · have loads : succeedsWith (fun _ host => host.document?.any fun document =>
        document.text == doubledText && document.designHtml.1.html == doubledHtml &&
          ((Tree.parse document.text).shown document.surface).any fun element =>
            (Registry.standard.resolve? element.name).isNone &&
              (componentOf? document.surface element.toTag).isSome)
        (load doubledText) (new .standard .standard .standard) = true := by decide +kernel
    obtain ⟨report, host, loaded, facts⟩ := exists_of_succeedsWith loads
    simp only [Option.any_eq_true, Bool.and_eq_true, beq_iff_eq, List.any_eq_true,
      Option.isNone_iff_eq_none] at facts
    obtain ⟨document, kept, ⟨same, html⟩, element, member, unknown, drawn⟩ := facts
    have left : LeftByScan .standard document := .load loaded kept
    have own := marksOwn_of_scan left
    refine ⟨document, left, own, same, html, fun once => ?_⟩
    rw [own.drawnOnce_iff.mp once element member unknown] at drawn
    cases drawn

end Host

end PageDesigner
