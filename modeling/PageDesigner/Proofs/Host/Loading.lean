import PageDesigner.Host.Basic
import PageDesigner.Proofs.Document.Creation
import PageDesigner.Proofs.Keeping

/-!
# Loading

Loading a text into a new host sites the root page and runs the first scan; the rest
of loading only tells what happened.

The main statement is `load_again`: the text that a load leaves is one on which
loading has nothing left to do.
-/

namespace PageDesigner.Host

open Document (createControls Scanned)

/-- The name of the root page. -/
def rootName (registry : Registry) : Text := Naming.unused (pageType registry).name []

/-- A surface with nothing but the root page. -/
def rootSurface (registry : Registry) : Surface :=
  ⟨⟨[⟨rootName registry, .fresh (pageType registry)⟩]⟩, some (rootName registry), .empty⟩

/-- A document before its first scan. -/
def startDocument (registry : Registry) (designers : DesignerRegistry) (options : Options)
    (text : Text) : Document :=
  { Document.ofText registry designers options text with surface := rootSurface registry }

theorem bare_rootSurface (registry : Registry) : Document.Bare (rootSurface registry) := by
  intro name member
  rw [List.mem_singleton.mp member]
  exact Text.sameName_refl _

theorem distinct_rootSurface (registry : Registry) :
    (rootSurface registry).container.Distinct :=
  List.nodup_singleton _

theorem sound_startDocument (registry : Registry) (designers : DesignerRegistry)
    (options : Options) (text : Text) : (startDocument registry designers options text).Sound :=
  (Document.Sound.ofText registry designers options text).withSurface
    (distinct_rootSurface registry)

variable {registry : Registry} {designers : DesignerRegistry} {options : Options} {text : Text}

theorem siteRoot_eq :
    Document.siteRoot (pageType registry) (Document.ofText registry designers options text) =
      .ok (rootName registry) (startDocument registry designers options text) :=
  rfl

/-- A host whose root page has been sited. -/
def startHost (registry : Registry) (designers : DesignerRegistry) (options : Options)
    (document : Document) : Host :=
  { new registry designers options with
    phase := .loading
    document? := some document
    events := [.added (rootName registry) (pageType registry).name] }

/-- Loading is the first scan behind the siting of the root page. -/
theorem load_eq :
    load text (new registry designers options) =
      match createControls (startDocument registry designers options text) with
      | .ok report document =>
          (do
            tellChanges { report with removed := [] }
            modify fun host => { host with phase := .loaded }
            tell [.loadComplete (report.created.length + 1) report.issues.length]
            pure report : Action ScanReport) (startHost registry designers options document)
      | .error failure document =>
          (do reset; throw failure : Action ScanReport)
            (startHost registry designers options document) := by
  unfold load
  simp only [bind, EStateM.bind, get_eq]
  rw [if_neg (by simp [new])]
  simp only [EStateM.bind, set_eq, new, onDocument, siteRoot_eq, tell,
    modify_eq, attempt, List.nil_append]
  cases createControls (startDocument registry designers options text) <;> rfl

theorem load_of_ok {report : ScanReport} {document : Document}
    (created : createControls (startDocument registry designers options text) =
      .ok report document) :
    ∃ host, load text (new registry designers options) = .ok report host ∧
      host.document? = some document := by
  rw [load_eq, created]
  exact ⟨_, rfl, rfl⟩

theorem load_of_error {failure : DesignError} {document : Document}
    (created : createControls (startDocument registry designers options text) =
      .error failure document) :
    ∃ host, load text (new registry designers options) = .error failure host := by
  rw [load_eq, created]
  exact ⟨_, rfl⟩

/-- A load that succeeds is a first scan that does. -/
theorem created_of_load {report : ScanReport} {host : Host}
    (loaded : load text (new registry designers options) = .ok report host) :
    ∃ document, createControls (startDocument registry designers options text) =
        .ok report document ∧ host.document? = some document := by
  cases created : createControls (startDocument registry designers options text) with
  | error failure document =>
      obtain ⟨host', failed⟩ := load_of_error created
      rw [loaded] at failed
      cases failed
  | ok report' document =>
      obtain ⟨host', done, kept⟩ := load_of_ok created
      rw [loaded] at done
      injection done with sameReport sameHost
      subst sameReport sameHost
      exact ⟨document, rfl, kept⟩

/-- A load that succeeds leaves a sound document whose components are in line with the tags. -/
theorem reconciled_of_load {report : ScanReport} {host : Host}
    (loads : load text (new registry designers options) = .ok report host) :
    ∃ document, host.document? = some document ∧ document.Sound ∧
      Surface.Reconciled registry .initial (Tree.parse document.text).controls
        document.surface := by
  obtain ⟨document, created, kept⟩ := created_of_load loads
  obtain ⟨scanned, registry_eq, -⟩ := Document.scanned_of_createControls
    (sound_startDocument registry designers options text) (bare_rootSurface registry) created
  have reconciled := scanned.reconciled
  rw [registry_eq] at reconciled
  exact ⟨document, kept, scanned.sound, reconciled⟩

/-- No refresh waits behind a load. -/
theorem waiting_of_load {report : ScanReport} {host : Host}
    (loaded : load text (new registry designers options) = .ok report host) :
    host.waiting = [] := by
  obtain ⟨document, created, _⟩ := created_of_load loaded
  rw [load_eq, created] at loaded
  obtain ⟨-, rfl⟩ := EStateM.Result.ok.inj loaded
  rfl

/--
Loading a second time changes nothing: the text that a load leaves loads in one pass
in which no id is written, stays as it is, and gives the same components under the
same names in the same order.
-/
theorem load_again {report : ScanReport} {host : Host}
    (loaded : load text (new registry designers options) = .ok report host) :
    ∃ document, host.document? = some document ∧
      ∃ (report' : ScanReport) (host' : Host) (document' : Document),
        load document.text (new registry designers options) = .ok report' host' ∧
        host'.document? = some document' ∧ report'.passes = 1 ∧ report'.ids = [] ∧
        document'.text = document.text ∧ document'.surface = document.surface := by
  obtain ⟨document, created, kept⟩ := created_of_load loaded
  have bare := bare_rootSurface registry
  obtain ⟨scanned, sameRegistry, allowed⟩ := Document.scanned_of_createControls
    (sound_startDocument registry designers options text) bare created
  have registry_eq : document.registry = registry := sameRegistry
  have claimable := scanned.claimable
  have surface := scanned.surface_eq
  rw [registry_eq] at claimable surface
  obtain ⟨report', document', created', scanned', text', registry', passes, ids⟩ :=
    Document.createControls_of_claimable
      (sound_startDocument registry designers options document.text) bare allowed claimable
  obtain ⟨host', loaded', kept'⟩ := load_of_ok created'
  have registry_eq' : document'.registry = registry := registry'
  have text_eq : document'.text = document.text := text'
  have surface' := scanned'.surface_eq
  rw [registry_eq', text_eq] at surface'
  refine ⟨document, kept, report', host', document', loaded', kept', passes, ids, text_eq, ?_⟩
  rw [surface, surface']
  rfl

/-- The hypothesis holds of a label without an id, which gets one in a second pass. -/
theorem load_again_of_label :
    ∃ document, (∃ (report : ScanReport) (host : Host),
        load "<asp:Label runat=\"server\" Text=\"a\">" (new .standard .standard .standard) =
          .ok report host ∧ report.passes = 2 ∧ host.document? = some document) ∧
      ∃ (report' : ScanReport) (host' : Host) (document' : Document),
        load document.text (new .standard .standard .standard) = .ok report' host' ∧
        host'.document? = some document' ∧ report'.passes = 1 ∧ report'.ids = [] ∧
        document'.text = document.text ∧ document'.surface = document.surface := by
  have loads : succeedsWith (fun report _ => report.passes == 2)
      (load "<asp:Label runat=\"server\" Text=\"a\">") (new .standard .standard .standard) =
        true := by decide +kernel
  obtain ⟨report, host, loaded, two⟩ := exists_of_succeedsWith loads
  obtain ⟨document, kept, again⟩ := load_again loaded
  exact ⟨document, ⟨report, host, loaded, eq_of_beq two, kept⟩, again⟩

end PageDesigner.Host
