import PageDesigner.Proofs.Document.Addressing
import PageDesigner.Proofs.Host.Loading
import PageDesigner.Proofs.Host.Reachable

/-!
# Which tag an operation on a component edits

Properties, handlers and names are written to the tag that the name of the component leads
to.  Whatever was asked of a host, this is a tag of the component's type unless another tag
with that id stands in front.  After every load and after every later scan, only a tag of
no known type can stand there (`leads_iff_of_reaches`).
-/

namespace PageDesigner.Host

open Document (persist tagOf)
open Surface (Masked Owns)

/-- After a load every component but the root has a tag of its own, and only a tag of no known type
can take the edits. -/
theorem addresses_of_load {registry : Registry} {designers : DesignerRegistry} {options : Options}
    {text : Text} {report : ScanReport} {host : Host}
    (loads : load text (new registry designers options) = .ok report host) :
    ∃ document, host.document? = some document ∧ document.Addresses registry := by
  obtain ⟨document, kept, sound, reconciled⟩ := reconciled_of_load loads
  exact ⟨document, kept, Document.addresses_of_reconciled sound reconciled⟩

/-- The same holds after a later scan. -/
theorem addresses_of_persist {document after : Document} {report : ScanReport}
    (sound : document.Sound) (done : persist document = .ok report after) :
    after.Addresses document.registry := by
  obtain ⟨sound', _, reconciled⟩ := Document.reconciled_of_persist sound done
  exact Document.addresses_of_reconciled sound' reconciled

/--
In every state of a host, the name of a component that has a tag of its type leads to such a
tag just in case no other tag with that id stands in front of all of them.  If the state is
what a load or a later scan has left, every component but the root has a tag of its own, and
only a tag of no known type can stand in front of it.
-/
theorem leads_iff_of_reaches {registry : Registry} (regular : registry.Regular)
    {designers : DesignerRegistry} {options : Options} {host : Host}
    (reaches : Reaches registry designers options host) {document : Document}
    (kept : host.document? = some document) :
    (∀ site ∈ document.surface.controlSites, ∀ element ∈ (Tree.parse document.text).controls,
      Owns registry site element → ∃ found after, tagOf site.name document = .ok found after ∧
        (Owns registry site found ↔ ¬ Masked registry (Tree.parse document.text).controls site)) ∧
    (∀ text report, load text (new registry designers options) = .ok report host →
      document.Addresses registry) ∧
    ∀ before report, before.Sound → persist before = .ok report document →
      document.Addresses before.registry := by
  have orderly := (orderly_of_reaches regular reaches).document document kept
  refine ⟨fun site _ element member owns => Document.tagOf_owns_iff orderly.sound member owns,
    fun text report loads => ?_, fun before report sound done => addresses_of_persist sound done⟩
  obtain ⟨document', kept', addresses⟩ := addresses_of_load loads
  rw [kept] at kept'
  rw [Option.some.inj kept']
  exact addresses

/-- A label behind a tag of an unknown type that has its id. -/
def shadowedText : Text := "<my:Foo id=\"Label1\" /><asp:Label id=\"Label1\" runat=\"server\" />"

/-- The name of the label leads to the tag of the unknown type, although it has a tag of its own. -/
theorem leads_iff_of_reaches_shadowed :
    ∃ report host document,
      load shadowedText (new .standard .standard .standard) = .ok report host ∧
      host.document? = some document ∧ document.Addresses .standard ∧
      ∃ site ∈ document.surface.controlSites, site.name = "Label1" ∧
        Masked .standard (Tree.parse document.text).controls site ∧
        ∃ found after, tagOf site.name document = .ok found after ∧
          ¬ Owns .standard site found := by
  have loads : succeedsWith (fun _ host => host.document?.any fun document =>
      document.surface.controlSites.any fun site => site.name == "Label1" &&
        ((Tree.parse document.text).controls.any (fun element => Owns .standard site element) &&
          ((Tree.parse document.text).control? site.name).any
            fun found => ¬ Owns .standard site found))
      (load shadowedText) (new .standard .standard .standard) = true := by decide +kernel
  obtain ⟨report, host, loaded, owned⟩ := exists_of_succeedsWith loads
  simp only [Option.any_eq_true, List.any_eq_true, Bool.and_eq_true, beq_iff_eq,
    decide_eq_true_eq] at owned
  obtain ⟨document, kept, site, member, named, ⟨element, member', owns⟩, found, leads,
    foreign⟩ := owned
  have reaches : Reaches .standard .standard .standard host :=
    .single ⟨.load shadowedText, (leaves_of_ok (discard_of_ok loaded)).symm⟩
  obtain ⟨iff, scanned, _⟩ := leads_iff_of_reaches (by decide +kernel) reaches kept
  obtain ⟨found', after, leads', owns_iff⟩ := iff site member element member' owns
  have sound := ((orderly_of_reaches (by decide +kernel) reaches).document document kept).sound
  rw [Document.tagOf_eq sound, leads] at leads'
  obtain ⟨rfl, rfl⟩ := EStateM.Result.ok.inj leads'
  refine ⟨report, host, document, loaded, kept, scanned _ _ loaded, site, member, named, ?_, found,
    document.parse.2, ?_, foreign⟩
  · exact not_not.mp fun clear => foreign (owns_iff.mpr clear)
  · rw [Document.tagOf_eq sound, leads]

end PageDesigner.Host
