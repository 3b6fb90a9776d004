import PageDesigner.Proofs.Document.Creation
import PageDesigner.Proofs.Document.Issues
import PageDesigner.Proofs.Keeping

/-!
# Scanning a second time

A later scan that succeeds leaves the tree of its last pass, a buffer with no notice held
back, and a component for every tag that is as the tag makes it.  So the next scan is one
pass that finds nothing to do and reports the same issues (`persist_again`).

A component that a scan creates has its tag read into it, but nothing in it is reset before the
next scan.  That tells the two scans apart only for what a type declares in two spellings
(`persist_resets_respelled`).
-/

namespace PageDesigner

/-- Holding notices back and releasing them again shows only if one was waiting. -/
theorem Buffer.release_suppress {buffer : Buffer}
    (idle : buffer.guards = 0 → buffer.isPending = false) :
    buffer.suppress.release = buffer := by
  obtain ⟨history, tracker, isDirty, generation, guards, isPending, notices⟩ := buffer
  cases guards with
  | zero =>
      obtain rfl := idle rfl
      rfl
  | succ guards => rfl

/-- No notice waits behind the release of a guard. -/
theorem Buffer.isPending_release {buffer : Buffer} (guarded : buffer.guards ≠ 0)
    (free : buffer.release.guards = 0) : buffer.release.isPending = false := by
  obtain ⟨history, tracker, isDirty, generation, guards, isPending, notices⟩ := buffer
  match guards, guarded with
  | 1, _ => cases isPending <;> rfl
  | _ + 2, _ => cases free

theorem Buffer.guards_notify (buffer : Buffer) : buffer.notify.guards = buffer.guards := by
  unfold notify
  split <;> rfl

/-- Edits leave the guards alone. -/
theorem Buffer.guards_edit (buffer : Buffer) (edit : Edit) :
    (buffer.edit edit).2.guards = buffer.guards := by
  have committed : ∀ history tracker,
      (buffer.commit history tracker).guards = buffer.guards := fun _ _ => guards_notify _
  unfold Buffer.edit
  cases edit with
  | undo =>
      dsimp only
      split
      · exact committed _ _
      · rfl
  | redo =>
      dsimp only
      split
      · exact committed _ _
      · rfl
  | _ => exact committed _ _

namespace ScanPass

theorem continues_destroy {name : Text} {pass final : ScanPass}
    (done : destroy name pass = .ok () final) : pass.report.Continues final.report := by
  unfold destroy at done
  simp only [modify_eq] at done
  cases destroyed : pass.surface.destroy? name with
  | none =>
      rw [destroyed] at done
      injection done with _ same
      rw [← same]
      exact .refl _
  | some result =>
      rw [destroyed] at done
      injection done with _ same
      rw [← same]
      exact ⟨rfl, rfl, rfl, rfl, List.prefix_rfl⟩

theorem continues_forM_destroy {names : List Text} {pass final : ScanPass}
    (done : names.forM destroy pass = .ok () final) : pass.report.Continues final.report := by
  induction names generalizing pass with
  | nil =>
      injection done with _ same
      rw [← same]
      exact .refl _
  | cons name names ih =>
      change EStateM.bind (destroy name) (fun _ => names.forM destroy) pass = _ at done
      unfold EStateM.bind at done
      cases destroyed : destroy name pass with
      | ok _ middle =>
          rw [destroyed] at done
          exact (continues_destroy destroyed).trans (ih done)
      | error failure middle => rw [destroyed] at done; cases done

/-- A pass, finished or not, keeps what the report said before. -/
theorem continues_visitAll {registry : Registry} {mode : ScanMode} {taken : List Text}
    {elements : List Element} {pass final : ScanPass} {missing? : Option MissingId}
    (distinct : pass.surface.container.Distinct)
    (done : visitAll registry mode taken elements pass = .ok missing? final) :
    pass.report.Continues final.report ∧ final.surface.container.Distinct := by
  obtain ⟨final', distinct', outcome⟩ := visitAll_cases registry mode taken elements distinct
  rcases outcome with ⟨walk, done'⟩ | ⟨_, _, _, _, _, walk, _, _, done'⟩
  · rw [done'] at done
    injection done with _ same
    rw [← same]
    exact ⟨walk.continues, distinct'⟩
  · rw [done'] at done
    injection done with _ same
    rw [← same]
    exact ⟨walk.continues, distinct'⟩

end ScanPass

namespace Document

open ScanPass (claims dropOrphans tagIssues takenIds visitAll)

theorem guards_setAttribute (document : Document) (tag : Tag) (key value : Text) :
    (document.setAttribute tag key value).2.buffer.guards = document.buffer.guards := by
  have edited : ∀ edit, (document.edited edit).buffer.guards = document.buffer.guards :=
    fun edit => Buffer.guards_edit _ edit
  unfold setAttribute updateAttribute insertAttribute
  split
  · split
    · rfl
    · exact edited _
  · exact edited _

/-- A document has a tree once it was parsed. -/
theorem cached?_parse (document : Document) :
    document.parse.2.cached? = some document.parse.1 := by
  unfold parse
  cases kept : document.cached? with
  | some tree => exact kept
  | none =>
      unfold cached? keep Buffer.markClean Buffer.snapshot
      simp

theorem guards_parse (document : Document) :
    document.parse.2.buffer.guards = document.buffer.guards := by
  unfold parse keep Buffer.markClean
  split
  · rfl
  · dsimp only
    split <;> rfl

/-- Dropping orphans does not change what was reported of the tags. -/
theorem report_finishScan {pass : ScanPass} {document after : Document} {report : ScanReport}
    (done : finishScan .persist pass document = .ok report after) :
    report.issues = pass.report.issues ++ pass.issues ∧
      report.directives = pass.report.directives ∧
      pass.report.created <+: report.created := by
  unfold finishScan at done
  dsimp only at done
  cases dropped : dropOrphans { pass with
      report := { pass.report with issues := pass.report.issues ++ pass.issues } } with
  | error failure final => rw [dropped] at done; cases done
  | ok _ final =>
      have continues := ScanPass.continues_forM_destroy dropped
      rw [dropped] at done
      injection done with same _
      rw [← same]
      exact ⟨continues.issues_eq, continues.directives_eq, continues.created_prefix⟩

/-- The tags have been read with restoring into all their components but those that are reported as
created. -/
def Restored (registry : Registry) (controls : List Element) (report : ScanReport)
    (surface : Surface) : Prop :=
  ∀ element ∈ controls, ∀ id component,
    ((registry.resolve? element.name).bind fun _ => element.id?) = some id →
    surface.container.get? id = some component →
    (∃ type, (id, type) ∈ report.created) ∨
      ∃ earlier : Component, component = (earlier.readTag element true).1

/-- What a later scan that succeeds leaves: a tree for the text, the issues of its tags, components
into which these have been read, and as many guards as before. -/
structure Leaves (document : Document) (report : ScanReport) (report' : ScanReport)
    (after : Document) : Prop where
  parsed : after.cached?.isSome = true
  issues_eq : report'.issues = report.issues ++
    (Tree.parse after.text).controls.flatMap (tagIssues document.registry after.surface)
  directives_eq : report'.directives = report.directives
  restored : Restored document.registry (Tree.parse after.text).controls report' after.surface
  guards_eq : after.buffer.guards = document.buffer.guards
  options_eq : after.options = document.options

/-- The pass that settles a later scan reports the issues of all tags. -/
theorem leaves_of_settled {report report' : ScanReport} {document middle after : Document}
    {pass : ScanPass} (sound : document.Sound)
    (ran : scanPass .persist report document = .ok (none, pass) middle)
    (done : finishScan .persist pass middle = .ok report' after) :
    document.Leaves report report' after := by
  obtain ⟨parsedDocument, parses, sound', agrees, _, _⟩ := parse_eq sound
  have kept := cached?_parse document
  have guards := guards_parse document
  obtain ⟨visited, rfl⟩ := scanPass_inv sound ran
  rw [parses] at kept guards done
  dsimp only at kept guards done
  have walk := ScanPass.walk_of_visitAll sound.distinct visited
  have issues := ScanPass.issues_visitAll sound.distinct visited
  obtain ⟨continues, distinct⟩ := ScanPass.continues_visitAll sound.distinct visited
  obtain ⟨issues', directives, created⟩ := report_finishScan done
  obtain ⟨final, report'', finished, _, _, keeps, _⟩ :=
    finishScan_persist (sound'.withSurface distinct) rfl
  rw [finished] at done
  injection done with _ same
  subst same
  have text : { parsedDocument with surface := final.surface }.text = document.text :=
    agrees.text_eq
  -- Dropping orphans leaves the components of the tags.
  have stays : ∀ id ∈ claims document.registry (Tree.parse document.text).controls,
      final.surface.container.get? id = pass.surface.container.get? id := by
    intro id listed
    obtain ⟨element, member, known, named⟩ := Surface.mem_claims.mp listed
    obtain ⟨controlType, resolved⟩ := Option.isSome_iff_exists.mp known
    obtain ⟨id', component, stands⟩ := walk.stands sound.distinct member resolved
    obtain rfl := Option.some.inj (named.symm.trans stands.named)
    refine congrArg (Option.map Site.component) (keeps id ?_ stands.notRoot)
    rw [walk.claimed_eq]
    exact List.mem_append_right _ (List.mem_map_of_mem listed)
  refine ⟨congrArg Option.isSome kept, ?_, directives.trans continues.directives_eq, ?_, guards,
    agrees.options_eq⟩
  · rw [issues', issues, text, continues.issues_eq]
    exact congrArg (_ ++ ·) (ScanPass.tagIssues_congr stays).symm
  · rw [text]
    intro element member id component claimed found
    rw [stays id (List.mem_filterMap.mpr ⟨element, member, claimed⟩)] at found
    rcases walk.created_or_restored member claimed found with ⟨type, new⟩ | restored
    · exact .inl ⟨type, created.subset new⟩
    · exact .inr restored

/-- So does the whole scan, since the edits of tags change neither the types nor the guards. -/
theorem leaves_of_scanPasses {bound : Nat} {report report' : ScanReport}
    {document after : Document} (sound : document.Sound)
    (done : scanPasses .persist bound report document = .ok report' after) :
    document.Leaves report report' after := by
  induction bound generalizing report document with
  | zero => cases done
  | succ bound ih =>
      obtain ⟨pass, middle, sound', agrees, _, outcome⟩ :=
        scanPass_cases sound .persist { report with passes := report.passes + 1 }
      rcases outcome with ⟨_, ran⟩ | ⟨_, _, _, _, _, ran⟩
      · rw [scanPasses_of_settled ran] at done
        obtain ⟨parsed, issues, directives, restored, guards, options⟩ :=
          leaves_of_settled sound ran done
        exact ⟨parsed, issues, directives, restored, guards, options⟩
      · rw [scanPasses_of_stopped ran] at done
        obtain ⟨visited, shape⟩ := scanPass_inv sound ran
        obtain ⟨continues, _⟩ := ScanPass.continues_visitAll sound.distinct visited
        have guards : middle.buffer.guards = document.buffer.guards := by
          rw [shape]
          exact guards_parse document
        obtain ⟨_, registry, _, options⟩ := setAttribute_frame middle _ "id" _
        have left := ih (sound'.setAttribute _ "id" _) done
        refine ⟨left.parsed, ?_, left.directives_eq.trans continues.directives_eq, ?_, ?_, ?_⟩
        · rw [left.issues_eq, registry.trans agrees.registry_eq]
          exact congrArg (· ++ _) continues.issues_eq
        · have restored := left.restored
          rw [registry.trans agrees.registry_eq] at restored
          exact restored
        · exact (left.guards_eq.trans (guards_setAttribute _ _ _ _)).trans guards
        · exact (left.options_eq.trans options).trans agrees.options_eq

/-! ## The second scan -/

theorem parse_of_cached? {document : Document} {tree : Tree}
    (kept : document.cached? = some tree) : document.parse = (tree, document) := by
  unfold parse
  rw [kept]

/-- A surface on which a later scan finds nothing to do for the tags of a text. -/
structure AtRest (registry : Registry) (controls : List Element) (surface : Surface) : Prop where
  rests : ∀ element ∈ controls, ScanPass.Rests registry surface element
  once : ((claims registry controls).map Text.lower).Nodup
  only : ∀ site ∈ surface.controlSites, site.name.lower ∈ (claims registry controls).map Text.lower

/-- No component is an orphan when every one is named by a tag. -/
theorem AtRest.orphans_eq {registry : Registry} {controls : List Element} {surface : Surface}
    (atRest : AtRest registry controls surface) {container : Container}
    (names : container.names = surface.container.names) (report : ScanReport)
    (issues : List Issue) :
    ScanPass.orphans ⟨{ surface with container }, report,
      (claims registry controls).map Text.lower, issues⟩ = [] := by
  unfold ScanPass.orphans
  rw [names, List.filter_eq_nil_iff]
  intro name member orphan
  obtain ⟨site, sited, rfl⟩ := List.mem_map.mp member
  simp only [Bool.and_eq_true, Bool.not_eq_true', List.contains_eq_mem,
    decide_eq_false_iff_not] at orphan
  exact orphan.2 (atRest.only site (Surface.mem_controlSites.mpr ⟨sited, orphan.1⟩))

/-- The components of a document when its tags are read into them once more. -/
def reread (document : Document) : Container :=
  ScanPass.reread document.registry (Tree.parse document.text).controls document.surface.container

/-- A later scan of a surface at rest is one pass that finds nothing to do. -/
theorem scanPasses_resting {document : Document} (sound : document.Sound)
    (atRest : AtRest document.registry (Tree.parse document.text).controls document.surface)
    (bound : Nat) (report : ScanReport) :
    scanPasses .persist (bound + 1) report document =
      .ok { report with
          passes := report.passes + 1
          issues := report.issues ++ (Tree.parse document.text).controls.flatMap
            (tagIssues document.registry document.surface) }
        { document.parse.2 with
          surface := { document.surface with container := document.reread } } := by
  have visited := @ScanPass.visitAll_again document.registry
    (takenIds (Tree.parse document.text)) (Tree.parse document.text).controls
    (document.startOf { report with passes := report.passes + 1 }) atRest.rests atRest.once
    (fun _ _ => List.not_mem_nil)
  have runs := scanPass_eq sound .persist { report with passes := report.passes + 1 }
  rw [visited] at runs
  rw [scanPasses]
  simp only [bind, EStateM.bind, runs]
  unfold finishScan dropOrphans
  simp only [bind, EStateM.bind, get_eq, startOf, List.nil_append,
    atRest.orphans_eq (ScanPass.names_reread _ _)]
  rfl

/-- When the text is parsed already, nothing shows of the pass. -/
theorem scanPasses_atRest {document : Document} (sound : document.Sound)
    (parsed : document.cached?.isSome = true)
    (atRest : AtRest document.registry (Tree.parse document.text).controls document.surface)
    (bound : Nat) (report : ScanReport) :
    scanPasses .persist (bound + 1) report document =
      .ok { report with
          passes := report.passes + 1
          issues := report.issues ++ (Tree.parse document.text).controls.flatMap
            (tagIssues document.registry document.surface) }
        { document with surface := { document.surface with container := document.reread } } := by
  obtain ⟨tree, kept⟩ := Option.isSome_iff_exists.mp parsed
  have runs := scanPasses_resting sound atRest bound report
  rw [parse_of_cached? kept] at runs
  exact runs

/-- The whole scan: no notice waits, so that the buffer stays as it is. -/
theorem persist_atRest {document : Document} (sound : document.Sound)
    (parsed : document.cached?.isSome = true)
    (idle : document.buffer.guards = 0 → document.buffer.isPending = false)
    (allowed : 0 < document.options.maxScanPasses)
    (atRest : AtRest document.registry (Tree.parse document.text).controls document.surface) :
    persist document =
      .ok { ScanReport.empty with
          passes := 1
          issues := (Tree.parse document.text).controls.flatMap
            (tagIssues document.registry document.surface) }
        { document with surface := { document.surface with container := document.reread } } := by
  obtain ⟨bound, limit⟩ := Nat.exists_eq_succ_of_ne_zero (Nat.ne_of_gt allowed)
  have start : { document with buffer := document.buffer.suppress }.Sound :=
    sound.withBuffer rfl rfl
  have ran := scanPasses_atRest start parsed atRest bound .empty
  rw [persist_eq, limit, ran]
  dsimp only
  rw [Buffer.release_suppress idle]
  rfl

/-- The components of a surface at rest are similar when their tags are read once more. -/
theorem AtRest.similar_reread {registry : Registry} {controls : List Element} {surface : Surface}
    (atRest : AtRest registry controls surface) :
    surface.container.Related Component.Similar
      (ScanPass.reread registry controls surface.container) := by
  refine ScanPass.related_reread Component.Similar.refl (fun _ _ _ => Component.Similar.trans)
    atRest.once fun element member id claimed component found => ?_
  obtain ⟨controlType, resolved, named⟩ := Option.bind_eq_some_iff.mp claimed
  obtain ⟨id', component', named', _, _, found', _, similar⟩ :=
    atRest.rests element member controlType resolved
  obtain rfl := Option.some.inj (named.symm.trans named')
  rw [Option.some.inj (found.symm.trans found')]
  exact similar

/-- Nothing tells a component that was not created from what it is when its tag is read once
more. -/
theorem Restored.alike_reread {registry : Registry} {controls : List Element}
    {report : ScanReport} {surface : Surface}
    (restored : Restored registry controls report surface)
    (once : ((claims registry controls).map Text.lower).Nodup) {name : Text}
    (uncreated : ∀ entry ∈ report.created, entry.1.sameName name = false) :
    Option.Rel Component.Alike (surface.container.get? name)
      ((ScanPass.reread registry controls surface.container).get? name) := by
  by_cases claimed : name.lower ∈ (claims registry controls).map Text.lower
  · obtain ⟨id, listed, lower⟩ := List.mem_map.mp claimed
    obtain ⟨element, member, claimed⟩ := List.mem_filterMap.mp listed
    have same : id.sameName name = true := Text.sameName_iff.mpr lower
    rw [← Container.get?_congr same, ← Container.get?_congr same,
      ScanPass.get?_reread once member claimed]
    cases found : surface.container.get? id with
    | none => exact .none
    | some component =>
        rcases restored element member id component claimed found with ⟨type, new⟩ | ⟨_, read⟩
        · rw [uncreated _ new] at same
          cases same
        · exact .some (Component.alike_readTag_again read)
  · rw [ScanPass.get?_reread_of_unclaimed claimed]
    cases surface.container.get? name with
    | none => exact .none
    | some component => exact .some (.refl component)

/-- Components that are in line with the tags after a later scan are at rest. -/
theorem atRest_of_reconciled {registry : Registry} {controls : List Element} {surface : Surface}
    (reconciled : Surface.Reconciled registry .persist controls surface) :
    AtRest registry controls surface := by
  refine ⟨?_, reconciled.once, reconciled.only⟩
  intro element member controlType resolved
  obtain ⟨site, stands, applied⟩ := reconciled.stands element member controlType resolved
  obtain ⟨controlType', resolved', sameType⟩ := stands.typed
  rw [resolved] at resolved'
  obtain rfl := Option.some.inj resolved'
  obtain ⟨id, named, valid, notRoot, found⟩ := stands.named
  refine ⟨id, site.component, named, valid, notRoot, congrArg (Option.map Site.component) found,
    sameType, ?_⟩
  rcases applied rfl with fresh | ⟨earlier, _, read⟩
  · exact Component.similar_readTag_fresh fresh
  · exact (Component.alike_readTag_again read).similar

/-- What is left by a later scan that succeeds: nothing waits, the issues of the tags are reported,
and the tags have been read into their components. -/
theorem leaves_of_persist {document after : Document} {report : ScanReport}
    (sound : document.Sound) (done : persist document = .ok report after) :
    after.cached?.isSome = true ∧ (after.buffer.guards = 0 → after.buffer.isPending = false) ∧
      0 < after.options.maxScanPasses ∧ report.directives = 0 ∧
      report.issues = (Tree.parse after.text).controls.flatMap
        (tagIssues document.registry after.surface) ∧
      Restored document.registry (Tree.parse after.text).controls report after.surface := by
  obtain ⟨middle, ran, rfl⟩ := quietly_eq_ok done
  change scanPasses .persist document.options.maxScanPasses .empty _ = _ at ran
  have quiet : { document with buffer := document.buffer.suppress }.Sound :=
    sound.withBuffer rfl rfl
  obtain ⟨parsed, issues, directives, restored, guards, options⟩ := leaves_of_scanPasses quiet ran
  obtain ⟨text, dirty⟩ := release_frame middle.buffer
  have same : { middle with buffer := middle.buffer.release }.text = middle.text := text
  refine ⟨?_, Buffer.isPending_release ?_, ?_, directives, ?_, ?_⟩
  · unfold cached? at parsed ⊢
    dsimp only
    rw [dirty]
    exact parsed
  · rw [guards]
    exact Nat.succ_ne_zero document.buffer.guards
  · rw [options]
    refine Nat.pos_of_ne_zero fun none' => ?_
    dsimp only at none'
    rw [none'] at ran
    cases ran
  · rw [same]
    exact issues
  · rw [same]
    exact restored

/--
Scanning again changes nothing.  When a later scan has succeeded, the next one is a single
pass that creates, destroys and writes nothing and reports the same issues; the document
is the same in everything but its components.  These are similar one by one, and nothing at
all tells those apart that the first of the two scans has not created.
-/
theorem persist_again {document after : Document} {report : ScanReport} (sound : document.Sound)
    (done : persist document = .ok report after) :
    ∃ container, persist after =
        .ok { report with passes := 1, created := [], removed := [], ids := [] }
          { after with surface := { after.surface with container } } ∧
      after.surface.container.Related Component.Similar container ∧
      ∀ name, (∀ entry ∈ report.created, entry.1.sameName name = false) →
        Option.Rel Component.Alike (after.surface.container.get? name) (container.get? name) := by
  obtain ⟨sound', registry, reconciled⟩ := reconciled_of_persist sound done
  obtain ⟨parsed, idle, allowed, directives, issues, restored⟩ := leaves_of_persist sound done
  have atRest := atRest_of_reconciled reconciled
  rw [← registry] at atRest issues restored
  have again := persist_atRest sound' parsed idle allowed atRest
  refine ⟨after.reread, ?_, atRest.similar_reread, fun name uncreated => ?_⟩
  · rw [again, directives, issues]
    rfl
  · exact restored.alike_reread atRest.once uncreated

/-- A text box that lacks an id and states a length that is no number, and a tag of no known type,
under a surface with a button that has no tag. -/
def unsettledDocument : Document :=
  { ofText .standard .standard .standard
      ("<asp:TextBox runat=\"server\" MaxLength=\"abc\" Text=\"a\" text=\"b\" />" ++
        "<my:Foo runat=\"server\" />") with
    surface := ⟨⟨[⟨"u", .fresh Builtin.button⟩]⟩, none, .empty⟩ }

/-- The second scan of an unsettled document reports its two issues once more, and nothing tells its
components from those of the first scan. -/
theorem persist_again_unsettledDocument :
    unsettledDocument.Sound ∧ ∃ report after, persist unsettledDocument = .ok report after ∧
      report.passes = 2 ∧ report.issues.length = 2 ∧
      ∃ container, persist after =
          .ok { report with passes := 1, created := [], removed := [], ids := [] }
            { after with surface := { after.surface with container } } ∧
        after.surface.container.Alike container := by
  have sound : unsettledDocument.Sound := (Sound.ofText _ _ _ _).withSurface (by decide)
  have persists : succeedsWith (fun report after =>
      report.passes == 2 && (report.issues.length == 2 &&
        decide (∀ site ∈ after.surface.container.sites, site.component.controlType.SpelledOnce)))
      persist unsettledDocument = true := by decide +kernel
  obtain ⟨report, after, ran, checked⟩ := exists_of_succeedsWith persists
  simp only [Bool.and_eq_true, beq_iff_eq, decide_eq_true_eq] at checked
  obtain ⟨passes, issues, spelled⟩ := checked
  obtain ⟨container, again, similar, -⟩ := persist_again sound ran
  exact ⟨sound, report, after, ran, passes, issues, container, again, similar.alike spelled⟩

/-- A type that declares a property and an event in two spellings each. -/
def respelled : ControlType :=
  ⟨"Respelled", some "asp", "Respelled", .control, [.string "Text" [], .string "TEXT" []],
    ["Click", "CLICK"], .label⟩

/-- A tag of such a type, for which there is no component yet. -/
def respelledDocument : Document :=
  ofText (Registry.empty.register respelled) .standard .standard
    "<asp:Respelled id=\"t\" runat=\"server\" Text=\"a\" OnClick=\"f\" />"

/--
The scan that creates a component reads what its tag states into it; the next one resets what the
tag does not state, and with the second spelling goes what stands under the first.
-/
theorem persist_resets_respelled :
    respelledDocument.Sound ∧
      ∃ report after report' again first second,
        persist respelledDocument = .ok report after ∧ persist after = .ok report' again ∧
        after.surface.container.get? "t" = some first ∧
        again.surface.container.get? "t" = some second ∧
        (first.get? "Text" = some (.string "a") ∧ second.get? "Text" = some (.string [])) ∧
        first.handler? "Click" = some ("f" : Text) ∧ second.handler? "Click" = none := by
  have persists : succeedsWith (fun _ after =>
      (after.surface.container.get? "t").any (fun first =>
        first.get? "Text" == some (.string "a") && first.handler? "Click" == some ("f" : Text)) &&
      succeedsWith (fun _ again =>
        (again.surface.container.get? "t").any fun second =>
          second.get? "Text" == some (.string []) && second.handler? "Click" == none)
        persist after) persist respelledDocument = true := by decide +kernel
  obtain ⟨report, after, ran, checked⟩ := exists_of_succeedsWith persists
  obtain ⟨stated, persists⟩ := Bool.and_eq_true_iff.mp checked
  obtain ⟨report', again, ran', reset⟩ := exists_of_succeedsWith persists
  simp only [Option.any_eq_true, Bool.and_eq_true, beq_iff_eq] at stated reset
  obtain ⟨first, found, value, handler⟩ := stated
  obtain ⟨second, found', value', handler'⟩ := reset
  exact ⟨.ofText _ _ _ _, report, after, report', again, first, second, ran, ran', found, found',
    ⟨value, value'⟩, handler, handler'⟩

end Document

end PageDesigner
