import PageDesigner.Proofs.Document.FirstScan

/-!
# Creating the controls of a document

The first scan registers the directives and then runs its passes.  Registering never
fails and touches neither the text nor the components, so what holds of the passes
holds of the whole scan.
-/

namespace PageDesigner.Document

/-- Registering directives changes only the table of directives. -/
theorem registerDirectives_eq (directives : List Directive) (report : ScanReport)
    (document : Document) :
    ∃ (report' : ScanReport) (table : DirectiveTable),
      registerDirectives report directives document =
        .ok report' { document with directives := table } ∧
      report'.passes = report.passes ∧ report'.ids = report.ids := by
  induction directives generalizing report document with
  | nil => exact ⟨report, document.directives, rfl, rfl, rfl⟩
  | cons directive rest ih =>
      unfold registerDirectives
      simp only [bind, EStateM.bind, get_eq]
      cases added : document.directives.addParsed directive with
      | error failure => exact ih _ document
      | ok entry => exact ih _ { document with directives := entry.2 }

/-- The first scan starts with an empty report and the same text and components. -/
theorem startScan_initial {document : Document} (sound : document.Sound) :
    ∃ (report : ScanReport) (after : Document), startScan .initial document = .ok report after ∧
      after.Sound ∧ Agrees document after ∧ after.surface = document.surface ∧
      report.passes = 0 ∧ report.ids = [] := by
  obtain ⟨parsedDocument, parses, sound', agrees, surface, _⟩ := parse_eq sound
  obtain ⟨report, table, registered, passes, ids⟩ := registerDirectives_eq
    (Tree.parse document.text).directives .empty
    { parsedDocument with directives := parsedDocument.directives.cleared }
  refine ⟨report, { parsedDocument with directives := table }, ?_,
    ⟨sound'.distinct, sound'.coherent⟩,
    ⟨agrees.text_eq, agrees.registry_eq, agrees.designers_eq, agrees.options_eq⟩, surface, passes,
    ids⟩
  unfold startScan
  simp only [parsed, bind, EStateM.bind, modify_eq, modifyGet_eq, parses]
  exact registered

/-- The first scan is its passes behind the start. -/
theorem createControls_of_start {document start : Document} {report : ScanReport}
    (started : startScan .initial { document with buffer := document.buffer.suppress } =
      .ok report start) :
    createControls document =
      match scanPasses .initial start.options.maxScanPasses report start with
      | .ok report after => .ok report { after with buffer := after.buffer.release }
      | .error failure after => .error failure { after with buffer := after.buffer.release } := by
  unfold createControls scan quietly
  simp only [bind, EStateM.bind, started, get_eq]
  cases scanPasses .initial start.options.maxScanPasses report start <;> rfl

/-- The start changes nothing that counts here. -/
theorem createControls_eq {document : Document} (sound : document.Sound) :
    ∃ (report : ScanReport) (start : Document), start.Sound ∧ Agrees document start ∧
      start.surface = document.surface ∧ report.passes = 0 ∧ report.ids = [] ∧
      createControls document =
        match scanPasses .initial document.options.maxScanPasses report start with
        | .ok report after => .ok report { after with buffer := after.buffer.release }
        | .error failure after => .error failure { after with buffer := after.buffer.release } := by
  have quiet : { document with buffer := document.buffer.suppress }.Sound :=
    sound.withBuffer rfl rfl
  obtain ⟨report, start, started, sound', agrees, surface, passes, ids⟩ := startScan_initial quiet
  refine ⟨report, start, sound',
    ⟨agrees.text_eq, agrees.registry_eq, agrees.designers_eq, agrees.options_eq⟩, surface, passes,
    ids, ?_⟩
  have options : start.options = document.options := agrees.options_eq
  rw [createControls_of_start started, options]

theorem Scanned.release {base : Surface} {document : Document} (scanned : Scanned base document) :
    Scanned base { document with buffer := document.buffer.release } := by
  obtain ⟨text, dirty⟩ := release_frame document.buffer
  have same : { document with buffer := document.buffer.release }.text = document.text := text
  exact ⟨scanned.sound.withBuffer text dirty, by rw [same]; exact scanned.surface_eq,
    by rw [same]; exact scanned.claimable, by rw [same]; exact scanned.reconciled⟩

/-- A first scan that succeeds has sited the controls of all tags of the text it leaves. -/
theorem scanned_of_createControls {document after : Document} {report : ScanReport}
    (sound : document.Sound) (bare : Bare document.surface)
    (done : createControls document = .ok report after) :
    Scanned document.surface after ∧ after.registry = document.registry ∧
      0 < document.options.maxScanPasses := by
  obtain ⟨report', start, sound', agrees, surface, _, _, runs⟩ := createControls_eq sound
  rw [runs] at done
  have begun : Begun document.surface start := by
    rw [← surface]
    exact .of_base sound'
  cases ran : scanPasses .initial document.options.maxScanPasses report' start with
  | error failure middle => rw [ran] at done; cases done
  | ok report'' middle =>
      rw [ran] at done
      injection done with _ same
      subst same
      obtain ⟨scanned, registry⟩ := scanned_of_scanPasses bare begun ran
      refine ⟨scanned.release, registry.trans agrees.registry_eq, ?_⟩
      refine Nat.pos_of_ne_zero fun none' => ?_
      rw [none'] at ran
      cases ran

section

variable {document : Document} (sound : document.Sound) (bare : Bare document.surface)
  (allowed : 0 < document.options.maxScanPasses)
  (claimable : ScanPass.Claimable document.registry document.surface []
    (Tree.parse document.text).controls)

include sound bare allowed claimable

/-- A first scan of a text whose tags lack no id settles at once, and changes nothing but the
components and the directives. -/
theorem createControls_settles :
    ∃ (report : ScanReport) (after : Document), createControls document = .ok report after ∧
      Scanned document.surface after ∧ Agrees document after ∧ report.passes = 1 ∧
      report.ids = [] := by
  obtain ⟨report, start, sound', agrees, surface, passes, ids, runs⟩ := createControls_eq sound
  obtain ⟨bound, limit⟩ := Nat.exists_eq_succ_of_ne_zero (Nat.ne_of_gt allowed)
  obtain ⟨report', after, scanned, agrees', passes', ids', ran⟩ := scanPasses_of_claimable sound'
    (by rw [surface]; exact bare)
    (by rw [surface, agrees.registry_eq, agrees.text_eq]; exact claimable) bound report
  rw [surface] at scanned
  rw [limit, ran] at runs
  refine ⟨report', _, runs, scanned.release, ⟨?_, agrees'.registry_eq.trans agrees.registry_eq,
    agrees'.designers_eq.trans agrees.designers_eq, agrees'.options_eq.trans agrees.options_eq⟩, ?_,
    ?_⟩
  · exact (release_frame after.buffer).1.trans (agrees'.text_eq.trans agrees.text_eq)
  · rw [passes', passes]
  · rw [ids', ids]

/-- Such a scan writes nothing. -/
theorem createControls_of_claimable :
    ∃ (report : ScanReport) (after : Document), createControls document = .ok report after ∧
      Scanned document.surface after ∧ after.text = document.text ∧
      after.registry = document.registry ∧ report.passes = 1 ∧ report.ids = [] := by
  obtain ⟨report, after, created, scanned, agrees, passes, ids⟩ :=
    createControls_settles sound bare allowed claimable
  exact ⟨report, after, created, scanned, agrees.text_eq, agrees.registry_eq, passes, ids⟩

end

end PageDesigner.Document
