import PageDesigner.Proofs.Document.FirstReport
import PageDesigner.Proofs.Host.Settling

/-!
# What a load reports

Scanning once more right behind a load reports all that there is to report of the tags:
each one of no known type, and each attribute that names a property and does not convert.
The load itself is meant to report the same, however many passes it took.  It does so
just in case there is nothing to report of the tags of known types in front of the one
with the last id that it has written (`reports_iff_of_load`).
-/

namespace PageDesigner.Host

open Document (overtaken persist)
open ScanPass (complaints untyped)

variable {registry : Registry} {designers : DesignerRegistry} {options : Options} {text : Text}

/--
A later scan right behind a load succeeds, leaves the text and reports of all tags what
there is to report.  Apart from the issues of directives the load has reported of the
tags in front of the one with its last id only those of no known type, and of the others
the same.  So the two reports agree just in case there is nothing to report of the tags
of known types in front.
-/
theorem reports_iff_of_load
    (valid : ∀ controlType ∈ registry.all, Naming.isValid controlType.name = true)
    {report : ScanReport} {host : Host}
    (loaded : load text (new registry designers options) = .ok report host) :
    ∃ document, host.document? = some document ∧
      ∃ report' after, persist document = .ok report' after ∧ after.text = document.text ∧
        report'.issues = (Tree.parse document.text).controls.flatMap (complaints registry) ∧
        ∃ front back, (Tree.parse document.text).controls = front ++ back ∧
          overtaken registry report.ids (Tree.parse document.text).controls = front ∧
          report.issues.filter (!·.isOfDirective) =
            untyped registry front ++ back.flatMap (complaints registry) ∧
          (report.issues.filter (!·.isOfDirective) = report'.issues ↔
            ∀ element ∈ front, (registry.resolve? element.name).isSome = true →
              complaints registry element = []) := by
  obtain ⟨document, created, kept⟩ := created_of_load loaded
  have sound := sound_startDocument registry designers options text
  have bare := bare_rootSurface registry
  obtain ⟨scanned, sameRegistry, allowed⟩ := Document.scanned_of_createControls sound bare created
  obtain ⟨sameOptions, front, back, split, inFront, issues⟩ :=
    Document.issues_of_createControls sound bare valid created
  have registry_eq : document.registry = registry := sameRegistry
  obtain ⟨report', after, persists, text_eq, issues'⟩ :=
    scanned.exists_persist bare (by rw [sameOptions]; exact allowed)
  rw [registry_eq] at issues'
  refine ⟨document, kept, report', after, persists, text_eq, issues', front, back, split, inFront,
    issues, ?_⟩
  have issues_eq : report.issues.filter (!·.isOfDirective) =
      untyped registry front ++ back.flatMap (complaints registry) := issues
  rw [issues_eq, issues', split, List.flatMap_append, List.append_cancel_right_eq]
  exact ScanPass.untyped_eq_iff

/-- The text box in front of a label that gets an id has a length that is no number.  The load does
not report it, and the scan right behind it does. -/
theorem reports_iff_of_load_overtaken :
    ∃ (report : ScanReport) (host : Host),
      load "<asp:TextBox id=\"t\" runat=\"server\" MaxLength=\"abc\" /><asp:Label runat=\"server\" />"
        (new .standard .standard .standard) = .ok report host ∧ report.issues = [] ∧
      ∃ document, host.document? = some document ∧
        ∃ report' after, persist document = .ok report' after ∧
          report'.issues.map (·.message) = ["MaxLength: 'abc' is not a valid integer"] ∧
          report.issues.filter (!·.isOfDirective) ≠ report'.issues := by
  have loads : succeedsWith (fun report host => report.issues == [] &&
      host.document?.any fun document =>
        ((Tree.parse document.text).controls.flatMap (complaints .standard)).map (·.message) ==
            ["MaxLength: 'abc' is not a valid integer"] &&
          (overtaken .standard report.ids (Tree.parse document.text).controls).any fun element =>
            (Registry.standard.resolve? element.name).isSome &&
              !(complaints .standard element).isEmpty)
      (load
        "<asp:TextBox id=\"t\" runat=\"server\" MaxLength=\"abc\" /><asp:Label runat=\"server\" />")
      (new .standard .standard .standard) = true := by decide +kernel
  obtain ⟨report, host, loaded, checked⟩ := exists_of_succeedsWith loads
  obtain ⟨none', checked⟩ := Bool.and_eq_true_iff.mp checked
  obtain ⟨document, kept, report', after, persists, -, issues, front, -, -, inFront, -, agree⟩ :=
    reports_iff_of_load isValid_standard loaded
  rw [kept, Option.any_some] at checked
  obtain ⟨messages, some'⟩ := Bool.and_eq_true_iff.mp checked
  refine ⟨report, host, loaded, eq_of_beq none', document, kept, report', after, persists, ?_, ?_⟩
  · rw [issues]
    exact eq_of_beq messages
  · obtain ⟨element, member, found⟩ := List.any_eq_true.mp some'
    obtain ⟨known, refused⟩ := Bool.and_eq_true_iff.mp found
    rw [inFront] at member
    rw [Ne, agree]
    intro nothing
    rw [nothing element member known] at refused
    cases refused

end PageDesigner.Host
