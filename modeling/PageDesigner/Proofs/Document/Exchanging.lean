import PageDesigner.Proofs.Document.Accounts

/-!
# What a scan reports

A scan that succeeds reports the components that it has destroyed and created.  Striking
the former off the table of before and adding the latter behind gives the table that the
scan leaves (`Document.accounts_of_scan`).  A scan that fails has exchanged components all the
same, pass after pass up to the one at which it gave up (`Document.exchanged_scan`).

No edit of a tag makes another tag the first one with the name of a component that was created, so
the passes of a scan keep accounts together as each of them does.
-/

namespace PageDesigner

namespace Document

open ScanPass (Accounts Answered Records claims takenIds)

/-! ## All passes -/

section

variable {document : Document} {base : Surface} {report : ScanReport}

/-- The tags of the current text. -/
def controlTags (document : Document) : List Tag :=
  (Tree.parse document.text).controls.map (·.toTag)

/-- A pass of a sound document records what it does. -/
theorem records_scanPass {mode : ScanMode} {missing? : Option MissingId} {pass : ScanPass}
    {after : Document} (sound : document.Sound)
    (records : Records document.registry document.controlTags base (document.startOf report))
    (done : scanPass mode report document = .ok (missing?, pass) after) :
    Records document.registry document.controlTags base pass := by
  obtain ⟨visited, -⟩ := scanPass_inv sound done
  exact @ScanPass.records_visitAll document.registry base (document.startOf report) pass mode
    (takenIds (Tree.parse document.text)) (Tree.parse document.text).controls missing?
    sound.distinct records rfl visited

/-- Writing an id into the tag at which a pass stops leaves the first tags of other names. -/
theorem claimant?_edited {mode : ScanMode} {former latter : List Element} {element : Element}
    {controlType : ControlType} {pass : ScanPass} {middle : Document}
    (stops : document.StopsAt mode report former element latter controlType pass)
    (valid : Naming.isValid controlType.name = true) (agrees : Agrees document middle)
    {entry : Text × Text} (answered : Answered document.registry document.controlTags base entry)
    (root : pass.surface.root? = base.root?) (listed : entry.1 ∈ pass.surface.container.names) :
    document.registry.claimant?
        (middle.setAttribute element.toTag "id" (document.newId pass controlType)).2.controlTags
        entry.1 =
      document.registry.claimant? document.controlTags entry.1 := by
  obtain ⟨_, edited, behind, tags, name, id, profiles, _⟩ := stops.exists_edited valid agrees
  obtain ⟨split, walk, resolved, lacks⟩ := stops
  unfold controlTags
  rw [split]
  refine (congrArg (document.registry.claimant? · entry.1) tags).trans ?_
  rw [List.map_append, List.map_cons, Registry.claimant?_append, Registry.claimant?_append]
  cases before : document.registry.claimant? (former.map (·.toTag)) entry.1 with
  | some other => rfl
  | none =>
      rw [Option.none_or, Option.none_or, Registry.claimant?_cons, Registry.claimant?_cons]
      -- The tag has lacked an id, so the name is not its id.
      have foreign : document.registry.claims? entry.1 element.toTag = none := by
        unfold Registry.claims?
        cases named : element.toTag.id? with
        | none => rfl
        | some own =>
            rw [Option.any_some]
            refine if_neg fun same => ?_
            have usable : pass.usableId? element.toTag = some own := by
              refine ScanPass.usableId?_eq_some.mpr ⟨named, ?_, ?_, ?_⟩
              · rw [Naming.isValid_congr (Text.sameName_iff.mp same)]
                exact answered.valid
              · rw [walk.claimed_eq, Text.sameName_iff.mp same]
                exact Registry.lower_not_mem_claims before
              · unfold Surface.isRoot
                rw [root]
                exact (Surface.isRoot_congr same).trans answered.notRoot
            rw [lacks] at usable
            cases usable
      -- Nor is it the new id, which differs from every name.
      have fresh : document.registry.claims? entry.1 edited = none := by
        unfold Registry.claims?
        rw [id]
        split
        · rw [Option.any_some]
          refine if_neg fun same => ?_
          exact newId_free document pass controlType (List.mem_append_left _ listed)
            (Text.sameName_iff.mp same).symm
        · rfl
      rw [foreign, fresh, Option.none_or, Option.none_or]
      refine (Registry.claimant?_of_profiles profiles)

/-- Finishing a scan whose last pass has walked over all tags reports the orphans it drops. -/
theorem exchanged_finishScan {mode : ScanMode} {pass : ScanPass} {middle after : Document}
    {report' : ScanReport} (sound : middle.Sound) (surface : middle.surface = pass.surface)
    (walk : ScanPass.Walk document.registry mode (document.startOf report)
      (Tree.parse document.text).controls pass)
    (records : Records document.registry document.controlTags base pass)
    (done : finishScan mode pass middle = .ok report' after) :
    base.Exchanged report'.removed report'.created after.surface ∧
      ∀ name ∈ report'.removed, base.isRoot name = false := by
  have distinct : pass.surface.container.Distinct := by
    rw [← surface]
    exact sound.distinct
  cases mode with
  | initial =>
      rw [finishScan_initial] at done
      obtain ⟨rfl, rfl⟩ := EStateM.Result.ok.inj done
      rw [surface]
      exact ⟨records.exchanged distinct, fun name member => (records.former name member).1⟩
  | persist =>
      unfold finishScan at done
      dsimp only at done
      cases dropped : ScanPass.dropOrphans { pass with
          report := { pass.report with issues := pass.report.issues ++ pass.issues } } with
      | error failure final => rw [dropped] at done; cases done
      | ok _ final =>
          rw [dropped] at done
          obtain ⟨rfl, rfl⟩ := EStateM.Result.ok.inj done
          have reported : Records document.registry document.controlTags base
              { pass with report :=
                { pass.report with issues := pass.report.issues ++ pass.issues } } :=
            records.resting rfl rfl rfl rfl rfl
          refine @ScanPass.exchanged_dropOrphans document.registry base
            { pass with report := { pass.report with issues := pass.report.issues ++ pass.issues } }
            final _ distinct reported (fun entry created => ?_) dropped
          -- What was created has a tag, so its name is claimed.
          obtain ⟨controlType, claims, -⟩ :=
            Option.map_eq_some_iff.mp (records.answered entry created).claimant
          rw [walk.claimed_eq]
          exact Registry.lower_mem_claims claims

/-- The records of a pass go on behind the edit of the tag at which it stops. -/
theorem records_edited {mode : ScanMode} {former latter : List Element} {element : Element}
    {controlType : ControlType} {pass : ScanPass} {middle : Document}
    (stops : document.StopsAt mode report former element latter controlType pass)
    (valid : Naming.isValid controlType.name = true) (agrees : Agrees document middle)
    (surface : middle.surface = pass.surface)
    (records : Records document.registry document.controlTags base pass) :
    Records document.registry
      (middle.setAttribute element.toTag "id" (document.newId pass controlType)).2.controlTags base
      ((middle.setAttribute element.toTag "id" (document.newId pass controlType)).2.startOf
        { pass.report with ids := pass.report.ids ++ [document.newId pass controlType] }) := by
  obtain ⟨surface', -⟩ := setAttribute_frame middle element.toTag "id"
    (document.newId pass controlType)
  have sameSurface := surface'.trans surface
  unfold startOf
  rw [sameSurface]
  refine ⟨⟨records.root?_eq, records.table_eq, records.former, fun entry member => ?_⟩,
    records.selection_eq, records.recreated⟩
  have answered := records.answered entry member
  have listed : entry.1 ∈ pass.surface.container.names := by
    rw [Container.names_eq_table, records.table_eq]
    exact List.mem_map_of_mem (List.mem_append_right _ member)
  refine ⟨answered.valid, answered.notRoot, ?_⟩
  rw [claimant?_edited stops valid agrees answered records.root?_eq listed]
  exact answered.claimant

/-- The passes of a scan exchange components, even when they fail, and those that succeed report
what they exchange. -/
theorem exchanged_scanPasses {mode : ScanMode} {bound : Nat} (sound : document.Sound)
    (valid : ∀ controlType ∈ document.registry.all, Naming.isValid controlType.name = true)
    (records : Records document.registry document.controlTags base (document.startOf report)) :
    ∃ removed created,
      base.Exchanged removed created
        (leaves (scanPasses mode bound report) document).surface ∧
      (∀ name ∈ removed, base.isRoot name = false) ∧
      ∀ report' after, scanPasses mode bound report document = .ok report' after →
        report'.removed = removed ∧ report'.created = created := by
  induction bound generalizing document report with
  | zero =>
      exact ⟨report.removed, report.created, records.exchanged sound.distinct,
        fun name member => (records.former name member).1, fun _ _ done => (nomatch done)⟩
  | succ bound ih =>
      have counted : Records document.registry document.controlTags base
          (document.startOf { report with passes := report.passes + 1 }) :=
        records.resting rfl rfl rfl rfl rfl
      obtain ⟨pass, middle, sound', agrees, surface, outcome⟩ :=
        scanPass_cases sound mode { report with passes := report.passes + 1 }
      rcases outcome with ⟨walk, ran⟩ | ⟨former, element, latter, controlType, stops, ran⟩
      · have records' := records_scanPass sound counted ran
        have settles := scanPasses_of_settled ran bound
        obtain ⟨report', after, finished⟩ : ∃ report' after,
            finishScan mode pass middle = .ok report' after := by
          cases mode with
          | initial => exact ⟨_, _, finishScan_initial pass middle⟩
          | persist =>
              obtain ⟨final, report', finished, -⟩ := finishScan_persist sound' surface
              exact ⟨report', _, finished⟩
        rw [leaves_of_ok (settles.trans finished), settles, finished]
        obtain ⟨exchanged, controls⟩ :=
          exchanged_finishScan sound' surface walk records' finished
        refine ⟨_, _, exchanged, controls, fun report'' after' done => ?_⟩
        obtain ⟨rfl, -⟩ := EStateM.Result.ok.inj done
        exact ⟨rfl, rfl⟩
      · have records' := records_scanPass sound counted ran
        have stopped := scanPasses_of_stopped ran bound
        have named := valid controlType (Registry.mem_all_of_resolve? stops.resolved)
        obtain ⟨-, registry', -⟩ := setAttribute_frame middle element.toTag "id"
          (document.newId pass controlType)
        have sameRegistry := registry'.trans agrees.registry_eq
        have later := @ih
          (middle.setAttribute element.toTag "id" (document.newId pass controlType)).2
          { pass.report with ids := pass.report.ids ++ [document.newId pass controlType] }
          (sound'.setAttribute _ _ _) (by rw [sameRegistry]; exact valid) (by
            rw [sameRegistry]
            exact records_edited stops named agrees surface records')
        unfold leaves at later ⊢
        rw [stopped]
        exact later

end

/-! ## The whole scan -/

/-- Registering directives creates and destroys nothing. -/
theorem registerDirectives_report {directives : List Directive} {report report' : ScanReport}
    {document after : Document}
    (done : registerDirectives report directives document = .ok report' after) :
    report'.created = report.created ∧ report'.removed = report.removed := by
  induction directives generalizing report document with
  | nil =>
      obtain ⟨rfl, -⟩ := EStateM.Result.ok.inj done
      exact ⟨rfl, rfl⟩
  | cons directive rest ih =>
      unfold registerDirectives at done
      simp only [bind, EStateM.bind, get_eq] at done
      cases added : document.directives.addParsed directive with
      | error failure =>
          rw [added] at done
          exact @ih { report with
            issues := report.issues ++
              [⟨"%@ " ++ directive.name, none, directive.region.first, failure.message⟩] }
            document done
      | ok entry =>
          rw [added] at done
          exact @ih { report with directives := report.directives + 1 }
            { document with directives := entry.2 } done

/-- A scan starts with nothing created and nothing destroyed. -/
theorem startScan_cases {document : Document} (sound : document.Sound) (mode : ScanMode) :
    ∃ (report : ScanReport) (start : Document), startScan mode document = .ok report start ∧
      start.Sound ∧ start.registry = document.registry ∧ start.surface = document.surface ∧
      report.created = [] ∧ report.removed = [] := by
  cases mode with
  | persist => exact ⟨.empty, document, rfl, sound, rfl, rfl, rfl, rfl⟩
  | initial =>
      obtain ⟨report, start, started, sound', agrees, surface, -⟩ := startScan_initial sound
      refine ⟨report, start, started, sound', agrees.registry_eq, surface, ?_⟩
      unfold startScan at started
      obtain ⟨_, _, _, registered⟩ := ok_of_bind started
      obtain ⟨_, _, _, registered⟩ := ok_of_bind registered
      exact registerDirectives_report registered

/-- A scan exchanges components, even when it fails, and one that succeeds reports what it
exchanges. -/
theorem exchanged_scan {mode : ScanMode} {document : Document} (sound : document.Sound)
    (valid : ∀ controlType ∈ document.registry.all, Naming.isValid controlType.name = true) :
    ∃ removed created,
      document.surface.Exchanged removed created (leaves (scan mode) document).surface ∧
      (∀ name ∈ removed, document.surface.isRoot name = false) ∧
      ∀ report after, scan mode document = .ok report after →
        report.removed = removed ∧ report.created = created := by
  have quiet : { document with buffer := document.buffer.suppress }.Sound :=
    sound.withBuffer rfl rfl
  obtain ⟨first, start, started, sound', registry, surface, created, removed⟩ :=
    startScan_cases quiet mode
  have records : Records start.registry start.controlTags document.surface
      (start.startOf first) := by
    have untouched := document.surface.exchanged_refl
    unfold startOf
    refine ⟨⟨congrArg Surface.root? surface, ?_, ?_, ?_⟩, ?_, ?_⟩ <;> dsimp only
    · rw [created, removed, surface]
      exact untouched.table_eq
    · rw [removed]
      exact fun _ member => (nomatch member)
    · rw [created]
      exact fun _ member => (nomatch member)
    · rw [removed, surface]
      exact untouched.selection_eq
    · rw [removed]
      exact fun _ _ member => (nomatch member)
  obtain ⟨removed', created', exchanged, controls, reported⟩ := @exchanged_scanPasses start
    document.surface first mode start.options.maxScanPasses sound' (by rw [registry]; exact valid)
    records
  have ran : (do
      let report ← startScan mode
      scanPasses mode (← get).options.maxScanPasses report : Action ScanReport)
        { document with buffer := document.buffer.suppress } =
      scanPasses mode start.options.maxScanPasses first start := by
    rw [bind_of_ok started]
    rfl
  refine ⟨removed', created', ?_, controls, fun report after done => ?_⟩
  · unfold leaves at exchanged ⊢
    unfold scan quietly
    dsimp only
    rw [ran]
    cases ended : scanPasses mode start.options.maxScanPasses first start <;>
      rw [ended] at exchanged <;> exact exchanged
  · obtain ⟨middle, ended, -⟩ := quietly_eq_ok done
    rw [ran] at ended
    exact reported report middle ended

/--
A scan that succeeds reports what it has destroyed and created: what was there is struck
off the table, without the root, and what is new stands behind.
-/
theorem accounts_of_scan {mode : ScanMode} {document after : Document} {report : ScanReport}
    (sound : document.Sound)
    (valid : ∀ controlType ∈ document.registry.all, Naming.isValid controlType.name = true)
    (done : scan mode document = .ok report after) :
    after.surface.container.table =
        document.surface.container.table.filter (·.1 ∉ report.removed) ++ report.created ∧
      ∀ name ∈ report.removed,
        document.surface.isRoot name = false ∧ name ∈ document.surface.container.names := by
  obtain ⟨removed, created, exchanged, controls, reported⟩ := @exchanged_scan mode _ sound valid
  obtain ⟨rfl, rfl⟩ := reported report after done
  rw [leaves_of_ok done] at exchanged
  exact ⟨exchanged.table_eq,
    fun name member => ⟨controls name member, exchanged.former name member⟩⟩

/-! ## The root -/

/-- The passes of a scan leave the root, even when they fail. -/
theorem root?_scanPasses {mode : ScanMode} {bound : Nat} {report : ScanReport}
    {document : Document} (sound : document.Sound) :
    (leaves (scanPasses mode bound report) document).surface.root? = document.surface.root? := by
  induction bound generalizing report document with
  | zero => rfl
  | succ bound ih =>
      obtain ⟨pass, middle, sound', agrees, surface, outcome⟩ :=
        scanPasses_cases sound mode bound report
      rcases outcome with ⟨walk, turn⟩ | ⟨_, element, _, controlType, stops, turn⟩
      · cases mode with
        | initial =>
            rw [leaves_of_ok (turn.trans (finishScan_initial pass middle)), surface]
            exact walk.root?_eq
        | persist =>
            obtain ⟨final, report', finished, -, root, -⟩ := finishScan_persist sound' surface
            rw [leaves_of_ok (turn.trans finished)]
            exact root.trans walk.root?_eq
      · obtain ⟨surface', -⟩ := setAttribute_frame middle element.toTag "id"
          (document.newId pass controlType)
        have later := @ih
          { pass.report with ids := pass.report.ids ++ [document.newId pass controlType] } _
          (sound'.setAttribute element.toTag "id" (document.newId pass controlType))
        rw [surface', surface, stops.walk.root?_eq] at later
        unfold leaves at later ⊢
        rw [turn]
        exact later

/-- A scan leaves the root, even when it fails. -/
theorem root?_scan {document : Document} (sound : document.Sound) (mode : ScanMode) :
    (leaves (scan mode) document).surface.root? = document.surface.root? := by
  obtain ⟨bound, report, start, sound', surface, -, runs⟩ := scan_eq sound mode
  have passes := @root?_scanPasses mode bound report start sound'
  rw [surface] at passes
  unfold leaves at passes ⊢
  rw [runs]
  cases ran : scanPasses mode bound report start <;> rw [ran] at passes <;> exact passes

end Document

end PageDesigner
