import PageDesigner.Proofs.Document.Reachable
import PageDesigner.Proofs.Keeping
import PageDesigner.Proofs.Surface.Turning

/-!
# The upkeep of documents

What is durable of surfaces is kept by scans, whether they end well or not
(`Document.Holds.keeps_scan`): they settle one tag after the other and drop components at
the end.  Drawing only resolves addresses of links, and everything else changes one
component or the text.  So a document stays orderly, that is sound with an orderly surface
(`Document.Orderly`), as long as the types of the registry are regular.
-/

namespace PageDesigner

variable {registry : Registry} {holds : Surface → Prop}

/-! ## Scans -/

/-- What is durable holds behind a settled tag. -/
theorem Surface.Settles.lasts {mode : ScanMode} {controlType : ControlType} {id : Text}
    {element : Element} {surface after : Surface}
    (settles : Surface.Settles mode controlType id element surface after)
    (durable : Surface.Durable registry holds) (held : holds surface)
    (listed : controlType ∈ registry.all) (valid : Naming.isValid id = true)
    (notRoot : surface.isRoot id = false) : holds after := by
  cases settles with
  | created free => exact durable.turned _ _ held (.sited listed (.readTag _ _) free valid)
  | kept => exact held
  | applied found => exact durable.turned _ _ held (.altered found (.readTag _ _))
  | @replaced site found =>
      have same := Container.sameName_of_site? found
      have gone : surface.destroy? site.name = some (site.name, surface.withoutControl site.name) :=
        by
          rw [Surface.destroy?_eq (by rw [Surface.isRoot_congr same, notRoot]),
            Container.site?_congr same, found]
          rfl
      exact durable.turned _ _ (durable.turned _ _ held (.destroyed gone)) (.sited listed
        (.readTag _ _)
        (Surface.Settles.free_of_replaced (durable.arranged _ held).distinct found) valid)

namespace ScanPass

/-- What is durable holds behind a walk over tags. -/
theorem Walk.lasts {mode : ScanMode} {pass final : ScanPass} {elements : List Element}
    (walk : Walk registry mode pass elements final) (durable : Surface.Durable registry holds)
    (held : holds pass.surface) : holds final.surface := by
  induction walk with
  | done => exact held
  | unknown _ _ _ ih => exact ih held
  | known resolved usable settled _ ih =>
      obtain ⟨_, valid, _, notRoot⟩ := usableId?_eq_some.mp usable
      exact ih (settled.settles.lasts durable held (Registry.mem_all_of_resolve? resolved) valid
        notRoot)

/-- What is durable holds behind the destruction of components. -/
theorem holds_forM_destroy (durable : Surface.Durable registry holds) {pass : ScanPass}
    (held : holds pass.surface) (names : List Text) :
    ∃ final, names.forM destroy pass = .ok () final ∧ holds final.surface := by
  induction names generalizing pass with
  | nil => exact ⟨pass, rfl, held⟩
  | cons name rest ih =>
      obtain ⟨middle, ran, held'⟩ : ∃ middle, destroy name pass = .ok () middle ∧
          holds middle.surface := by
        refine ⟨_, rfl, ?_⟩
        dsimp only
        split
        · exact held
        · next gone => exact durable.turned _ _ held (.destroyed gone)
      obtain ⟨final, done, held''⟩ := ih held'
      refine ⟨final, ?_, held''⟩
      show EStateM.bind (destroy name) (fun _ => rest.forM destroy) pass = _
      simp only [EStateM.bind, ran]
      exact done

end ScanPass

/-! ## Drawing -/

namespace DesignHtml

/-- What is durable holds behind drawing. -/
theorem holds_drawn (durable : Surface.Durable registry holds) (context : DrawingContext)
    {surface : Surface} (held : holds surface) : holds (draw context surface).2 := by
  refine holds_draw (fun surface name component drawn held found drawn' => ?_) context held
  refine durable.turned _ _ held (.altered found ?_)
  rcases drawn' with rfl | rfl
  · exact .kept
  · exact .prepared

end DesignHtml

namespace Document

/-- What is durable holds behind the end of a scan. -/
theorem holds_finishScan (durable : Surface.Durable registry holds) (mode : ScanMode)
    {pass : ScanPass} {document : Document} (surface : document.surface = pass.surface)
    (held : holds pass.surface) :
    ∃ report after, finishScan mode pass document = .ok report after ∧ holds after.surface ∧
      after.registry = document.registry := by
  cases mode with
  | initial =>
      exact ⟨_, document, finishScan_initial pass document, by rw [surface]; exact held, rfl⟩
  | persist =>
      obtain ⟨final, dropped, held'⟩ := @ScanPass.holds_forM_destroy _ _ durable
        { pass with report := { pass.report with issues := pass.report.issues ++ pass.issues } }
        held pass.orphans
      refine ⟨final.report, { document with surface := final.surface }, ?_, held', rfl⟩
      have drops : ScanPass.dropOrphans { pass with
          report := { pass.report with issues := pass.report.issues ++ pass.issues } } =
            .ok () final := dropped
      unfold finishScan
      simp only [drops]
      rfl

/-- A sound document of a registry, with a surface of which something holds. -/
structure Holds (registry : Registry) (holds : Surface → Prop) (document : Document) : Prop where
  sound : document.Sound
  registry_eq : document.registry = registry
  surface : holds document.surface

/-- What is durable holds behind the passes of a scan, even when they fail. -/
theorem holds_of_scanPasses (durable : Surface.Durable registry holds) {mode : ScanMode}
    {bound : Nat} {report : ScanReport} {document : Document}
    (held : document.Holds registry holds) :
    holds (leaves (scanPasses mode bound report) document).surface ∧
      (leaves (scanPasses mode bound report) document).registry = registry := by
  induction bound generalizing report document with
  | zero => exact ⟨held.surface, held.registry_eq⟩
  | succ bound ih =>
      obtain ⟨pass, middle, sound', agrees, surface, outcome⟩ :=
        scanPasses_cases held.sound mode bound report
      rw [held.registry_eq] at outcome
      rcases outcome with ⟨walk, turn⟩ | ⟨_, element, _, controlType, stops, turn⟩
      · have settled := walk.lasts durable held.surface
        obtain ⟨_, final, finished, held', registry'⟩ :=
          holds_finishScan durable mode surface settled
        rw [leaves_of_ok (turn.trans finished), registry', agrees.registry_eq, held.registry_eq]
        exact ⟨held', rfl⟩
      · have walk := stops.walk
        rw [held.registry_eq] at walk
        have settled := walk.lasts durable held.surface
        obtain ⟨surface', registry', _⟩ := setAttribute_frame middle element.toTag "id"
          (document.newId pass controlType)
        have later := @ih
          { pass.report with ids := pass.report.ids ++ [document.newId pass controlType] } _
          ⟨sound'.setAttribute _ _ _,
            (registry'.trans agrees.registry_eq).trans held.registry_eq,
            by rw [surface', surface]; exact settled⟩
        unfold leaves at later ⊢
        rw [turn]
        exact later

namespace Holds

/-- However a scan ends, what is durable holds of the document that it leaves. -/
theorem keeps_scan (durable : Surface.Durable registry holds) (mode : ScanMode) :
    Keeps (Holds registry holds) (scan mode) := by
  intro document held
  have sound := sound_of_scan held.sound (ends (scan mode) document)
  obtain ⟨bound, report, start, sound', surface, registry', runs⟩ := scan_eq held.sound mode
  have passes := @holds_of_scanPasses _ _ durable mode bound report start
    ⟨sound', registry'.trans held.registry_eq, by rw [surface]; exact held.surface⟩
  have left : (leaves (scan mode) document).surface =
        (leaves (scanPasses mode bound report) start).surface ∧
      (leaves (scan mode) document).registry =
        (leaves (scanPasses mode bound report) start).registry := by
    unfold leaves
    rw [runs]
    cases scanPasses mode bound report start <;> exact ⟨rfl, rfl⟩
  refine ⟨sound, ?_, ?_⟩
  · rw [left.2]
    exact passes.2
  · rw [left.1]
    exact passes.1

/-! ## Components -/

theorem withSurface {document : Document} (held : document.Holds registry holds)
    (durable : Surface.Durable registry holds) {surface : Surface} (held' : holds surface) :
    { document with surface }.Holds registry holds :=
  ⟨held.sound.withSurface (durable.arranged surface held').distinct, held.registry_eq, held'⟩

theorem turned {document : Document} (held : document.Holds registry holds)
    (durable : Surface.Durable registry holds) {surface : Surface}
    (turn : document.surface.Turn registry surface) :
    { document with surface }.Holds registry holds :=
  held.withSurface durable (durable.turned _ _ held.surface turn)

theorem keeps_destroy (durable : Surface.Durable registry holds) (name : Text) :
    Keeps (Holds registry holds) (destroy name) := by
  refine Keeps.bind .get fun document found middle held ran _ => ?_
  cases ran
  split
  · exact held
  · next gone => exact held.turned durable (.destroyed gone)

end Holds

/-! ## Edits of tags -/

/-- What neither a parse nor an edit of the text changes. -/
structure Textual (holds : Document → Prop) : Prop where
  parse : ∀ document, holds document → holds document.parse.2
  edited : ∀ document edit, holds document → holds (document.edited edit)

namespace Textual

variable {holds : Document → Prop} (textual : Textual holds)

include textual

theorem setAttribute {document : Document} (held : holds document) (tag : Tag)
    (key value : Text) : holds (document.setAttribute tag key value).2 := by
  unfold Document.setAttribute Document.updateAttribute Document.insertAttribute
  split
  · split
    · exact held
    · exact textual.edited document (.replace _ _) held
  · exact textual.edited document (.insert _ _) held

theorem removeAttribute {document : Document} (held : holds document) (tag : Tag) (key : Text) :
    holds (document.removeAttribute tag key).2 := by
  unfold Document.removeAttribute
  split
  · exact held
  · exact textual.edited document (.remove _) held

theorem keeps_parsed : Keeps holds parsed := .modifyGet textual.parse

theorem keeps_tagOf (id : Text) : Keeps holds (tagOf id) := by
  refine textual.keeps_parsed.seq fun tree => ?_
  split
  · exact .pure _
  · exact .throw _

theorem keeps_updateTag (controlType : ControlType) (id property : Text) (value : Value) :
    Keeps holds (updateTag controlType id property value) := by
  unfold updateTag
  split
  · exact .throw _
  · refine (textual.keeps_tagOf id).seq fun element => ?_
    split
    · exact .modifyGet fun _ held => textual.removeAttribute held _ _
    · dsimp only
      split
      · exact .pure _
      · split
        · exact .throw _
        · exact .modifyGet fun _ held => textual.setAttribute held _ _ _

theorem keeps_updateEvent (id event : Text) (handler? : Option Text) :
    Keeps holds (updateEvent id event handler?) := by
  refine (textual.keeps_tagOf id).seq fun element => ?_
  split
  · exact .modifyGet fun _ held => textual.setAttribute held _ _ _
  · exact .modifyGet fun _ held => textual.removeAttribute held _ _

theorem keeps_renameTag (id newId : Text) : Keeps holds (renameTag id newId) :=
  (textual.keeps_tagOf id).seq fun _ => .modifyGet fun _ held => textual.setAttribute held _ _ _

theorem keeps_removeTag (id : Text) : Keeps holds (removeTag id) := by
  refine (textual.keeps_tagOf id).seq fun element => ?_
  split
  · exact .throw _
  · exact .modify fun _ held => textual.edited _ _ held

theorem keeps_insertTag (markup : Text) : Keeps holds (insertTag markup) := by
  refine textual.keeps_parsed.seq fun tree => ?_
  split
  · exact .throw _
  · exact Keeps.seq (.modify fun _ held => textual.edited _ _ held) fun _ => .pure _

end Textual

/-- Neither a parse nor an edit of the text changes the surface. -/
theorem textual_surface (holds : Surface → Prop) :
    Textual fun document => holds document.surface := by
  refine ⟨fun document held => ?_, fun _ _ held => held⟩
  unfold Document.parse keep
  split <;> exact held

namespace Holds

/-- Whatever holds of the surface, neither a parse nor an edit of the text changes it. -/
theorem textual : Textual (Holds registry holds) := by
  refine ⟨fun document held => ?_, fun document edit held =>
    ⟨held.sound.edited edit, held.registry_eq, held.surface⟩⟩
  obtain ⟨after, parses, sound, agrees, surface', _⟩ := parse_eq held.sound
  rw [parses]
  refine ⟨sound, agrees.registry_eq.trans held.registry_eq, ?_⟩
  rw [surface']
  exact held.surface

theorem keeps_designHtml (durable : Surface.Durable registry holds) :
    Keeps (Holds registry holds) (modifyGet designHtml : Action DesignHtml) := by
  refine .modifyGet fun document held => ?_
  have parsed := textual.keeps_parsed document held
  exact parsed.withSurface durable (DesignHtml.holds_drawn durable _ parsed.surface)

end Holds

/-! ## Orderly documents -/

/-- The document is sound, and its surface is orderly. -/
structure Orderly (registry : Registry) (document : Document) : Prop where
  sound : document.Sound
  surface : document.surface.Orderly
  registry_eq : document.registry = registry

theorem orderly_iff (document : Document) :
    document.Holds registry Surface.Orderly ↔ document.Orderly registry :=
  ⟨fun held => ⟨held.sound, held.surface, held.registry_eq⟩,
    fun orderly => ⟨orderly.sound, orderly.registry_eq, orderly.surface⟩⟩

theorem Orderly.withSurface {document : Document} (orderly : Orderly registry document)
    {surface : Surface} (kept : surface.Orderly) : Orderly registry { document with surface } :=
  ⟨orderly.sound.withSurface kept.distinct, kept, orderly.registry_eq⟩

/-- However a scan ends, it leaves the document orderly. -/
theorem keeps_scan (regular : registry.Regular) (mode : ScanMode) :
    Keeps (Orderly registry) (scan mode) :=
  (Holds.keeps_scan (Surface.durable_orderly regular) mode).congr orderly_iff

theorem keeps_destroy (regular : registry.Regular) (name : Text) :
    Keeps (Orderly registry) (destroy name) :=
  (Holds.keeps_destroy (Surface.durable_orderly regular) name).congr orderly_iff

/-- An orderly document with the given surface. -/
structure Carries (registry : Registry) (surface : Surface) (document : Document) : Prop where
  orderly : document.Orderly registry
  surface_eq : document.surface = surface

variable {surface : Surface}

theorem textual_carries : Textual (Carries registry surface) := by
  have carries_iff : ∀ document : Document, document.Carries registry surface ↔
      document.Holds registry fun other => other.Orderly ∧ other = surface := fun document =>
    ⟨fun carries => ⟨carries.orderly.sound, carries.orderly.registry_eq, carries.orderly.surface,
        carries.surface_eq⟩,
      fun held => ⟨⟨held.sound, held.surface.1, held.registry_eq⟩, held.surface.2⟩⟩
  refine ⟨fun document carries => ?_, fun document edit carries => ?_⟩
  · exact (carries_iff _).mpr (Holds.textual.parse _ ((carries_iff _).mp carries))
  · exact (carries_iff _).mpr (Holds.textual.edited _ edit ((carries_iff _).mp carries))

/-- What keeps every surface keeps the document orderly. -/
theorem orderly_of_keeps {α : Type} {action : Action α}
    (keeps : ∀ surface, Keeps (Carries registry surface) action) :
    Keeps (Orderly registry) action :=
  fun document orderly => (keeps document.surface document ⟨orderly, rfl⟩).orderly

end Document

end PageDesigner
