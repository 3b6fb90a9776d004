import PageDesigner.Proofs.Document.Reachable
import PageDesigner.Proofs.Host.Loading

/-!
# Tags and components after a scan

When a scan has succeeded, be it the first scan of a page that loads or a later one of
any document, tags and components correspond one to one (`corresponds_of_scan`).  After
a later scan, moreover, every component is what its own tag makes of a fresh one
(`readsAsFresh_of_persist`).

The documents are those with distinct names and a tree, if any, that is the one of
their text.  Every document that comes up is one of them (`Document.sound_of_reaches`).
-/

namespace PageDesigner.Host

open Document (persist)

/--
Tags of known types and components but the root correspond one to one after every
later scan and after every load, each tag naming a component of its type.
-/
theorem corresponds_of_scan :
    (∀ {document after : Document} {report : ScanReport}, document.Sound →
      persist document = .ok report after →
      Surface.Corresponds document.registry (Tree.parse after.text).controls after.surface) ∧
    ∀ {registry : Registry} {designers : DesignerRegistry} {options : Options} {text : Text}
      {report : ScanReport} {host : Host},
      load text (new registry designers options) = .ok report host →
      ∃ document, host.document? = some document ∧
        Surface.Corresponds registry (Tree.parse document.text).controls document.surface := by
  constructor
  · intro document after report sound done
    obtain ⟨_, _, reconciled⟩ := Document.reconciled_of_persist sound done
    exact reconciled.corresponds
  · intro registry designers options text report host loaded
    obtain ⟨document, created, kept⟩ := created_of_load loaded
    obtain ⟨scanned, sameRegistry, _⟩ := Document.scanned_of_createControls
      (sound_startDocument registry designers options text) (bare_rootSurface registry) created
    have reconciled := scanned.reconciled
    have registry_eq : document.registry = registry := sameRegistry
    rw [registry_eq] at reconciled
    exact ⟨document, kept, reconciled.corresponds⟩

/-- A label, and components from before: a label of its name with another text, and a button. -/
def driftedDocument : Document :=
  { startDocument .standard .standard .standard
      "<asp:Label id=\"t\" runat=\"server\" Text=\"a\" />" with
    surface := ⟨⟨[⟨"Page1", .fresh Builtin.page⟩,
      ⟨"t", { Component.fresh Builtin.label with values := [("Text", .string "b")] }⟩,
      ⟨"u", .fresh Builtin.button⟩]⟩, some "Page1", .empty⟩ }

theorem sound_driftedDocument : driftedDocument.Sound :=
  (Document.Sound.ofText _ _ _ _).withSurface (by decide)

/-- A later scan of the label succeeds. -/
theorem exists_persist_driftedDocument :
    ∃ report after, persist driftedDocument = .ok report after ∧ after.names = ["Page1", "t"] := by
  have persists : succeedsWith (fun _ after => after.names == (["Page1", "t"] : List Text))
      persist driftedDocument = true := by decide +kernel
  obtain ⟨report, after, ran, names⟩ := exists_of_succeedsWith persists
  exact ⟨report, after, ran, eq_of_beq names⟩

/-- A later scan and a load that succeed. -/
theorem corresponds_of_scan_label :
    (∃ report after, persist driftedDocument = .ok report after ∧ after.names = ["Page1", "t"] ∧
      Surface.Corresponds .standard (Tree.parse after.text).controls after.surface) ∧
    ∃ report host, load "<asp:Label runat=\"server\">" (new .standard .standard .standard) =
        .ok report host ∧
      ∃ document, host.document? = some document ∧
        Surface.Corresponds .standard (Tree.parse document.text).controls document.surface := by
  constructor
  · obtain ⟨report, after, ran, names⟩ := exists_persist_driftedDocument
    exact ⟨report, after, ran, names, corresponds_of_scan.1 sound_driftedDocument ran⟩
  · have loads : succeedsWith (fun _ _ => true) (load "<asp:Label runat=\"server\">")
        (new .standard .standard .standard) = true := by decide +kernel
    obtain ⟨report, host, loaded, -⟩ := exists_of_succeedsWith loads
    exact ⟨report, host, loaded, corresponds_of_scan.2 loaded⟩

/--
After a later scan every component but the root has a tag of its own, and every property
and handler is what a fresh component of its type gets from that tag.
-/
theorem readsAsFresh_of_persist {document after : Document} {report : ScanReport}
    (sound : document.Sound) (done : persist document = .ok report after) :
    ∀ site ∈ after.surface.controlSites,
      (∃ element ∈ (Tree.parse after.text).controls,
        Surface.StandsFor document.registry after.surface element site) ∧
      ∀ element ∈ (Tree.parse after.text).controls,
        Surface.StandsFor document.registry after.surface element site →
        site.component.ReadsAsFresh element := by
  obtain ⟨_, _, reconciled⟩ := Document.reconciled_of_persist sound done
  intro site member
  refine ⟨reconciled.exists_tag member, ?_⟩
  intro element listed stands
  exact reconciled.readsAsFresh listed stands

/-- The text of the label is again the one of its tag. -/
theorem readsAsFresh_of_persist_label :
    ∃ report after, persist driftedDocument = .ok report after ∧ after.names = ["Page1", "t"] ∧
      ∀ site ∈ after.surface.controlSites,
        (∃ element ∈ (Tree.parse after.text).controls,
          Surface.StandsFor .standard after.surface element site) ∧
        ∀ element ∈ (Tree.parse after.text).controls,
          Surface.StandsFor .standard after.surface element site →
          site.component.ReadsAsFresh element := by
  obtain ⟨report, after, ran, names⟩ := exists_persist_driftedDocument
  exact ⟨report, after, ran, names, readsAsFresh_of_persist sound_driftedDocument ran⟩

/-- A text box whose tag states a length that is no number, while the component has one. -/
def unreadDocument : Document :=
  { startDocument .standard .standard .standard
      "<asp:TextBox id=\"t\" runat=\"server\" MaxLength=\"abc\" />" with
    surface := ⟨⟨[⟨"Page1", .fresh Builtin.page⟩,
      ⟨"t", { Component.fresh Builtin.textBox with values := [("MaxLength", .integer 5)] }⟩]⟩,
      some "Page1", .empty⟩ }

/-- A type that declares one property in two spellings. -/
def twofold : ControlType :=
  ⟨"Twofold", some "asp", "Twofold", .control, [.string "Text" [], .string "TEXT" []], [], .label⟩

/-- A control with a text that its type declares twice. -/
def twofoldDocument : Document :=
  { startDocument (Registry.empty.register twofold) .standard .standard
      "<asp:Twofold id=\"t\" runat=\"server\" Text=\"a\" />" with
    surface := ⟨⟨[⟨"t", .fresh twofold⟩]⟩, none, .empty⟩ }

/-- A later scan leaves a component whose property has one value, while a fresh component of its
type reads another one from the tag. -/
def Drifts (document : Document) (name : Text) (value read : Value) : Prop :=
  ∃ report after, persist document = .ok report after ∧
    ∃ site ∈ after.surface.controlSites, ∃ element ∈ (Tree.parse after.text).controls,
      Surface.StandsFor document.registry after.surface element site ∧
      site.component.get? name = some value ∧
      ((Component.fresh site.component.controlType).readTag element false).1.get? name = some read

/-- It is enough to look at all components and all tags. -/
theorem drifts_of_all {document : Document} {name : Text} {value read : Value}
    (sound : document.Sound)
    (all : succeedsWith (fun _ after =>
      !after.surface.controlSites.isEmpty && after.surface.controlSites.all fun site =>
        site.component.get? name == some value &&
          (Tree.parse after.text).controls.all fun element =>
            ((Component.fresh site.component.controlType).readTag element false).1.get? name ==
              some read) persist document = true) : Drifts document name value read := by
  obtain ⟨report, after, ran, checked⟩ := exists_of_succeedsWith all
  obtain ⟨some', each⟩ := Bool.and_eq_true_iff.mp checked
  obtain ⟨site, rest, sites⟩ : ∃ site rest, after.surface.controlSites = site :: rest := by
    cases sites : after.surface.controlSites with
    | nil => rw [sites] at some'; cases some'
    | cons site rest => exact ⟨site, rest, rfl⟩
  have member : site ∈ after.surface.controlSites := by
    rw [sites]
    exact List.mem_cons_self
  obtain ⟨_, _, reconciled⟩ := Document.reconciled_of_persist sound ran
  obtain ⟨element, listed, stands⟩ := reconciled.exists_tag member
  obtain ⟨has, reads⟩ := Bool.and_eq_true_iff.mp (List.all_eq_true.mp each site member)
  exact ⟨report, after, ran, site, member, element, listed, stands, eq_of_beq has,
    eq_of_beq (List.all_eq_true.mp reads element listed)⟩

/--
A property that its tag states in no form that converts keeps the value that it had, and
one that its type declares in two spellings is put back although the tag states it.
-/
theorem drifts_unread :
    unreadDocument.Sound ∧ Drifts unreadDocument "MaxLength" (.integer 5) (.integer 0) ∧
    twofoldDocument.Sound ∧ Drifts twofoldDocument "Text" (.string []) (.string "a") := by
  have sound : unreadDocument.Sound := (Document.Sound.ofText _ _ _ _).withSurface (by decide)
  have sound' : twofoldDocument.Sound := (Document.Sound.ofText _ _ _ _).withSurface (by decide)
  exact ⟨sound, drifts_of_all sound (by decide +kernel), sound',
    drifts_of_all sound' (by decide +kernel)⟩

end PageDesigner.Host
