import PageDesigner.Proofs.Host.Poised
import PageDesigner.Proofs.Surface.Clearing

/-!
# Nothing is left behind

A first scan that fails has created components already when the host is reset.  Neither such a
load nor a reset from any phase leaves anything but events behind: each component that was sited
is told to be gone once, the root last (`Host.Emptied`), and the next load goes as in a host that
never held a document (`Host.clean_of_reaches`).
-/

namespace PageDesigner.Host

/-- The surface of the document, if there is one. -/
def surface (host : Host) : Surface := (host.document?.map (·.surface)).getD .empty

/-- A host that holds nothing.  Behind what was told before, it told of each component of a surface
once that it is gone, and of the root last. -/
structure Emptied (surface : Surface) (told : List HostEvent) (host : Host) : Prop where
  phase_eq : host.phase = .idle
  document?_eq : host.document? = none
  names_eq : host.names = []
  selection_eq : host.selection = .empty
  removed : ∃ removals : List Text, host.events = told ++ removals.map .removed ∧
    removals.Perm surface.container.names ∧
    ∀ name ∈ surface.container.names, surface.isRoot name = true → removals.getLast? = some name

/-- What a load makes of a new host, behind all that a host has told, and with the transactions that
are open there. -/
def onward (host fresh : Host) : Host :=
  { fresh with transactions := host.transactions, events := host.events ++ fresh.events }

/-- A host loads when it holds nothing and refuses to otherwise, and whatever fails or is reset
leaves it as if it had never held a document. -/
structure Clean (registry : Registry) (designers : DesignerRegistry) (options : Options)
    (host : Host) : Prop where
  idle_iff : host.phase = .idle ↔ host.document? = none
  refuses : host.phase ≠ .idle → ∀ text, load text host = .error .hostNotReset host
  fails : ∀ text failure document, host.phase = .idle →
    Document.createControls (startDocument registry designers options text) =
      .error failure document →
    ∃ after, load text host = .error failure after ∧ Emptied document.surface
      (host.events ++ [.added (rootName registry) (pageType registry).name]) after
  resets : ∃ after, reset host = .ok () after ∧
    Emptied host.settled.surface host.settled.events after
  loads : host.phase = .idle → ∀ text,
    (∀ report fresh, load text (new registry designers options) = .ok report fresh →
      load text host = .ok report (host.onward fresh)) ∧
    ∀ failure fresh, load text (new registry designers options) = .error failure fresh →
      load text host = .error failure (host.onward fresh)

variable {registry : Registry} {designers : DesignerRegistry} {options : Options} {host : Host}

/-- An idle host that has told that a surface was cleared. -/
theorem emptied_of_clear {surface : Surface} (distinct : surface.container.Distinct)
    {told : List HostEvent} (idle : host.phase = .idle) (bare : host.document? = none)
    (events : host.events = told ++ surface.clear.1.map .removed) : Emptied surface told host where
  phase_eq := idle
  document?_eq := bare
  names_eq := by
    unfold names
    rw [bare]
    rfl
  selection_eq := by
    unfold selection
    rw [bare]
    rfl
  removed := ⟨surface.clear.1, events, surface.clear_perm distinct, fun _ sited rooted =>
    surface.getLast?_clear distinct sited rooted⟩

namespace Poised

variable (poised : Poised registry designers options host)

include poised

theorem distinct_surface : host.surface.container.Distinct := by
  unfold Host.surface
  cases kept : host.document? with
  | none => exact Container.distinct_empty
  | some document => exact (poised.sound document kept).distinct

/-- Every reset ends with nothing. -/
theorem emptied_reset : ∃ after, reset host = .ok () after ∧
    Emptied host.settled.surface host.settled.events after := by
  have settled : Poised registry designers options host.settled := keeps_settle host poised
  refine ⟨_, poised.reset_eq, emptied_of_clear settled.distinct_surface rfl rfl ?_⟩
  unfold Host.surface
  cases host.settled.document? with
  | none => rfl
  | some document => rfl

/-- A load whose first scan fails ends with nothing. -/
theorem emptied_load {text : Text} {failure : DesignError} {document : Document}
    (idle : host.phase = .idle)
    (failed : Document.createControls (startDocument registry designers options text) =
      .error failure document) :
    ∃ after, load text host = .error failure after ∧ Emptied document.surface
      (host.events ++ [.added (rootName registry) (pageType registry).name]) after := by
  have loads := poised.load_eq idle text
  rw [failed] at loads
  have scanned := Document.keeps_sound_scan .initial _
    (sound_startDocument registry designers options text)
  have sound : document.Sound := leaves_of_error failed ▸ scanned
  refine ⟨_, loads, emptied_of_clear sound.distinct idle (poised.idle_iff.mp idle) ?_⟩
  exact (List.append_assoc _ _ _).symm

/-- An idle host loads as a new one does. -/
theorem load_onward (idle : host.phase = .idle) (text : Text) :
    (∀ report fresh, load text (new registry designers options) = .ok report fresh →
      load text host = .ok report (host.onward fresh)) ∧
    ∀ failure fresh, load text (new registry designers options) = .error failure fresh →
      load text host = .error failure (host.onward fresh) := by
  have begins : Poised registry designers options (new registry designers options) :=
    poised_of_reaches .refl
  have first := begins.load_eq rfl text
  have again := poised.load_eq idle text
  have waiting := poised.waiting_eq (poised.idle_iff.mp idle)
  have bare := poised.idle_iff.mp idle
  obtain ⟨rfl, rfl, rfl, -, -, -⟩ := poised
  rw [first, again]
  cases Document.createControls
      (startDocument host.registry host.designers host.options text) with
  | ok report document =>
      refine ⟨fun report' fresh done => ?_, fun _ _ failed => nomatch failed⟩
      obtain ⟨rfl, rfl⟩ := EStateM.Result.ok.inj done
      unfold onward new
      rw [waiting]
      rfl
  | error failure document =>
      refine ⟨fun _ _ done => (nomatch done), fun failure' fresh failed => ?_⟩
      obtain ⟨rfl, rfl⟩ := EStateM.Result.error.inj failed
      unfold onward new
      rw [waiting, idle, bare]
      rfl

end Poised

/-- Whatever was asked of a host, loads that fail and resets leave nothing behind. -/
theorem clean_of_reaches (reaches : Reaches registry designers options host) :
    host.Clean registry designers options := by
  have poised := poised_of_reaches reaches
  exact ⟨poised.idle_iff, load_of_busy, fun _ _ _ => poised.emptied_load, poised.emptied_reset,
    poised.load_onward⟩

/-- Scans of one pass, which fail at a tag without an id. -/
def onePass : Options := Options.standard.withScanPasses 1

/-- A page with a label is loaded. -/
def labelled : Host :=
  runAll [.load "<asp:Label id=\"A\" runat=\"server\"/>"] (new .standard .standard onePass)

/-- The page is let go of, and the next one fails to load. -/
def bereft : Host := runAll [.reset, .load "<asp:Label/>"] labelled

theorem clean_of_reaches_labels :
    Reaches .standard .standard onePass labelled ∧ Reaches .standard .standard onePass bereft ∧
    load "<p>" labelled = .error .hostNotReset labelled ∧
    (∃ after, reset labelled = .ok () after ∧
      Emptied labelled.settled.surface labelled.settled.events after) ∧
    (∃ failure, ∃ document : Document, ∃ after, load "<asp:Label/>" bereft = .error failure after ∧
      Emptied document.surface
        (bereft.events ++ [.added (rootName .standard) (pageType .standard).name]) after) ∧
    ∃ report fresh, load "<p>" (new .standard .standard onePass) = .ok report fresh ∧
      load "<p>" bereft = .ok report (bereft.onward fresh) := by
  have reaches : Reaches .standard .standard onePass labelled := reaches_runAll _ .refl
  have reaches' : Reaches .standard .standard onePass bereft := reaches_runAll _ reaches
  have busy : labelled.phase ≠ .idle := by decide +kernel
  have idle : bereft.phase = .idle := by decide +kernel
  have fails : failsWith (fun _ _ => true) Document.createControls
      (startDocument .standard .standard onePass "<asp:Label/>") = true := by
    decide +kernel
  have succeeds : succeedsWith (fun _ _ => true) (load "<p>")
      (new .standard .standard onePass) = true := by
    decide +kernel
  obtain ⟨failure, document, failed, -⟩ := exists_of_failsWith fails
  obtain ⟨report, fresh, done, -⟩ := exists_of_succeedsWith succeeds
  have clean := clean_of_reaches reaches
  have clean' := clean_of_reaches reaches'
  exact ⟨reaches, reaches', clean.refuses busy _, clean.resets,
    ⟨failure, document, clean'.fails _ _ _ idle failed⟩, report, fresh, done,
    (clean'.loads idle _).1 _ _ done⟩

end PageDesigner.Host
