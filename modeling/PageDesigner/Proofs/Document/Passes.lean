import PageDesigner.Proofs.Document.Sound

/-!
# Scans as runs of passes

A scan repeats passes until one walks over all tags.  `scanPasses_cases` is one turn of
that loop: the scan is finished, or an id is written into the first tag that lacks one
and the scan goes on with the edited document.
-/

namespace PageDesigner

namespace Document

open ScanPass (Walk takenIds)

/-- A pass before its first tag. -/
def startOf (document : Document) (report : ScanReport) : ScanPass :=
  ⟨document.surface, report, [], []⟩

/-- The id that is written into a tag of a type. -/
def newId (document : Document) (pass : ScanPass) (controlType : ControlType) : Text :=
  Naming.unused controlType.name
    (pass.surface.container.names ++ takenIds (Tree.parse document.text))

/-- A pass that has walked over the tags up to one of a known type that lacks an id. -/
structure StopsAt (document : Document) (mode : ScanMode) (report : ScanReport)
    (former : List Element) (element : Element) (latter : List Element)
    (controlType : ControlType) (pass : ScanPass) : Prop where
  split : (Tree.parse document.text).controls = former ++ element :: latter
  walk : Walk document.registry mode (document.startOf report) former pass
  resolved : document.registry.resolve? element.name = some controlType
  lacks : pass.usableId? element.toTag = none

/-- A pass of a sound document goes over the tags of its text. -/
theorem scanPass_eq {document : Document} (sound : document.Sound) (mode : ScanMode)
    (report : ScanReport) :
    scanPass mode report document =
      match ScanPass.visitAll document.registry mode (takenIds (Tree.parse document.text))
          (Tree.parse document.text).controls (document.startOf report) with
      | .error failure pass => .error failure { document.parse.2 with surface := pass.surface }
      | .ok missing? pass =>
          .ok (missing?, pass) { document.parse.2 with surface := pass.surface } := by
  obtain ⟨parsedDocument, parses, _, agrees, surface, _⟩ := parse_eq sound
  have same : parsedDocument.startOf report = document.startOf report := by
    unfold startOf
    rw [surface]
  unfold scanPass
  simp only [parsed, bind, EStateM.bind, modifyGet_eq,
    get_eq, parses, agrees.registry_eq]
  rw [← same]
  unfold startOf
  cases ScanPass.visitAll document.registry mode (takenIds (Tree.parse document.text))
      (Tree.parse document.text).controls ⟨parsedDocument.surface, report, [], []⟩ <;> rfl

/-- A pass that comes to an end has gone over the tags, and leaves the tree of the text. -/
theorem scanPass_inv {document after : Document} {mode : ScanMode} {report : ScanReport}
    {missing? : Option MissingId} {pass : ScanPass} (sound : document.Sound)
    (done : scanPass mode report document = .ok (missing?, pass) after) :
    ScanPass.visitAll document.registry mode (takenIds (Tree.parse document.text))
        (Tree.parse document.text).controls (document.startOf report) = .ok missing? pass ∧
      after = { document.parse.2 with surface := pass.surface } := by
  rw [scanPass_eq sound] at done
  cases visited : ScanPass.visitAll document.registry mode (takenIds (Tree.parse document.text))
      (Tree.parse document.text).controls (document.startOf report) with
  | error failure final => rw [visited] at done; cases done
  | ok missing?' final =>
      rw [visited] at done
      obtain ⟨same, rfl⟩ := EStateM.Result.ok.inj done
      obtain ⟨rfl, rfl⟩ := Prod.mk.inj same
      exact ⟨rfl, rfl⟩

/-- A pass of a sound document stops at the first tag that lacks an id, if there is one. -/
theorem scanPass_cases {document : Document} (sound : document.Sound) (mode : ScanMode)
    (report : ScanReport) :
    ∃ pass after, after.Sound ∧ Agrees document after ∧ after.surface = pass.surface ∧
      ((Walk document.registry mode (document.startOf report)
            (Tree.parse document.text).controls pass ∧
          scanPass mode report document = .ok (none, pass) after) ∨
        ∃ former element latter controlType,
          document.StopsAt mode report former element latter controlType pass ∧
          scanPass mode report document =
            .ok (some ⟨element.toTag, document.newId pass controlType⟩, pass) after) := by
  obtain ⟨parsedDocument, parses, sound', agrees, _⟩ := parse_eq sound
  obtain ⟨pass, distinct', outcome⟩ := @ScanPass.visitAll_cases document.registry mode
    (takenIds (Tree.parse document.text)) (Tree.parse document.text).controls
    (document.startOf report) sound.distinct
  have runs := scanPass_eq sound mode report
  rw [parses] at runs
  refine ⟨pass, { parsedDocument with surface := pass.surface }, sound'.withSurface distinct',
    ⟨agrees.text_eq, agrees.registry_eq, agrees.designers_eq, agrees.options_eq⟩, rfl, ?_⟩
  rcases outcome with ⟨walk, done⟩ |
    ⟨former, element, latter, controlType, split, walk, resolved, lacks, done⟩
  · left
    rw [runs, done]
    exact ⟨walk, rfl⟩
  · right
    rw [runs, done]
    exact ⟨former, element, latter, controlType, ⟨split, walk, resolved, lacks⟩, rfl⟩

section

variable {document after : Document} {mode : ScanMode} {report : ScanReport} {pass : ScanPass}

/-- A scan is finished with a pass that does not stop. -/
theorem scanPasses_of_settled
    (done : scanPass mode { report with passes := report.passes + 1 } document =
      .ok (none, pass) after) (bound : Nat) :
    scanPasses mode (bound + 1) report document = finishScan mode pass after := by
  unfold scanPasses
  simp only [bind, EStateM.bind, done]

/-- A scan goes on behind the edit of the tag at which a pass stops. -/
theorem scanPasses_of_stopped {missing : MissingId}
    (done : scanPass mode { report with passes := report.passes + 1 } document =
      .ok (some missing, pass) after) (bound : Nat) :
    scanPasses mode (bound + 1) report document =
      scanPasses mode bound { pass.report with ids := pass.report.ids ++ [missing.id] }
        (after.setAttribute missing.tag "id" missing.id).2 := by
  rw [scanPasses]
  simp only [bind, EStateM.bind, done]
  rfl

end

/-- One turn of a scan: it is finished, or it goes on behind the edit of the first tag that lacks
an id. -/
theorem scanPasses_cases {document : Document} (sound : document.Sound) (mode : ScanMode)
    (bound : Nat) (report : ScanReport) :
    ∃ pass after, after.Sound ∧ Agrees document after ∧ after.surface = pass.surface ∧
      ((Walk document.registry mode
            (document.startOf { report with passes := report.passes + 1 })
            (Tree.parse document.text).controls pass ∧
          scanPasses mode (bound + 1) report document = finishScan mode pass after) ∨
        ∃ former element latter controlType,
          document.StopsAt mode { report with passes := report.passes + 1 } former element latter
            controlType pass ∧
          scanPasses mode (bound + 1) report document =
            scanPasses mode bound
              { pass.report with ids := pass.report.ids ++ [document.newId pass controlType] }
              (after.setAttribute element.toTag "id" (document.newId pass controlType)).2) := by
  obtain ⟨pass, after, sound', agrees, surface, outcome⟩ :=
    scanPass_cases sound mode { report with passes := report.passes + 1 }
  refine ⟨pass, after, sound', agrees, surface, ?_⟩
  rcases outcome with ⟨walk, done⟩ | ⟨former, element, latter, controlType, stops, done⟩
  · exact .inl ⟨walk, scanPasses_of_settled done bound⟩
  · exact .inr ⟨former, element, latter, controlType, stops, scanPasses_of_stopped done bound⟩

/-- Finishing a first scan changes nothing. -/
theorem finishScan_initial (pass : ScanPass) (document : Document) :
    finishScan .initial pass document =
      .ok { pass.report with issues := pass.report.issues ++ pass.issues } document := rfl

/-- Finishing a later scan drops the components without a tag. -/
theorem finishScan_persist {pass : ScanPass} {document : Document} (sound : document.Sound)
    (surface : document.surface = pass.surface) :
    ∃ (final : ScanPass) (report : ScanReport), finishScan .persist pass document =
        .ok report { document with surface := final.surface } ∧
      final.surface.container.Distinct ∧ final.surface.root? = pass.surface.root? ∧
      (∀ name, name.lower ∈ pass.claimed → pass.surface.isRoot name = false →
        final.surface.container.site? name = pass.surface.container.site? name) ∧
      ∀ site ∈ final.surface.container.sites, pass.surface.isRoot site.name = false →
        site.name.lower ∈ pass.claimed := by
  obtain ⟨final, done, facts⟩ := @ScanPass.dropOrphans_eq
    { pass with report := { pass.report with issues := pass.report.issues ++ pass.issues } }
    (by rw [← surface]; exact sound.distinct)
  refine ⟨final, final.report, ?_, facts⟩
  unfold finishScan
  simp only [done]
  rfl

end Document

end PageDesigner
