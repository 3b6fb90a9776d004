import PageDesigner.Proofs.Document.Redrawing
import PageDesigner.Proofs.Host.Reachable
import PageDesigner.Proofs.Host.Succeeding

/-!
# Drawing a loaded page

Drawing the surface only reads it: what it changes of a host are the tree that is kept and the
addresses that links have resolved, neither of which shows (`Host.html_drawn_again`).
-/

namespace PageDesigner.Host

/-- The design-time HTML of the document, and what is wrong with it. -/
def drawn : Action DesignHtml := onDocument (modifyGet Document.designHtml)

/--
A host with a document draws it, and leaves everything else as it is.  Of the document no name, no
property, no handler, no list of children, no selection and nothing of the text or its history
changes, and it is drawn the same again.
-/
theorem html_drawn_again {host : Host} {document : Document}
    (kept : host.document? = some document) :
    ∃ html after document', drawn host = .ok html after ∧
      after = { host with document? := some document' } ∧ document.Undisturbed document' ∧
      ∃ again, drawn after = .ok html again := by
  have draws : drawn host =
      .ok document.designHtml.1 { host with document? := some document.designHtml.2 } :=
    onDocument_of_ok kept rfl
  refine ⟨_, _, document.designHtml.2, draws, rfl, document.undisturbed_designHtml, ?_⟩
  rw [← document.html_designHtml_again]
  exact ⟨_, onDocument_of_ok rfl rfl⟩

/-- A page with a link below the root of the site and a button without a text. -/
def linkedPage : Host :=
  runAll [.load ("<body><asp:HyperLink id=\"L\" NavigateUrl=\"~/home\" runat=\"server\"/>" ++
    "<asp:Button id=\"B\" runat=\"server\"/></body>")] (new .standard .standard .standard)

/-- Drawing the page resolves the address of the link, and draws the same again. -/
theorem html_drawn_again_linkedPage :
    ∃ document html after document', linkedPage.document? = some document ∧
      drawn linkedPage = .ok html after ∧ after.document? = some document' ∧
      document.Undisturbed document' ∧ document'.surface ≠ document.surface ∧
      ∃ again, drawn after = .ok html again := by
  have runs : succeedsWith (fun _ after =>
      after.document?.map (·.surface) ≠ linkedPage.document?.map (·.surface)) drawn linkedPage =
        true := by
    decide +kernel
  have loaded : linkedPage.document?.isSome = true := by decide +kernel
  obtain ⟨document, kept⟩ := Option.isSome_iff_exists.mp loaded
  obtain ⟨html, after, document', draws, rfl, undisturbed, again⟩ := html_drawn_again kept
  obtain ⟨_, _, ran, changed⟩ := exists_of_succeedsWith runs
  rw [draws] at ran
  obtain ⟨-, rfl⟩ := EStateM.Result.ok.inj ran
  refine ⟨document, html, _, document', kept, draws, rfl, undisturbed, fun same => ?_, again⟩
  rw [kept, Option.map_some, Option.map_some, same] at changed
  exact of_decide_eq_true changed rfl

end PageDesigner.Host
