import Mathlib.Logic.Relation
import PageDesigner.Document.DesignHtml
import PageDesigner.Proofs.Document.Creation

/-!
# Documents that can be reached

`Document.Step` lists what can happen to a document: edits of its text, undoing and
redoing among them, changes of its components that the text does not show, parsing,
drawing and scans, whether they fail or not.  Every document that such steps reach from
a new one is sound (`sound_of_reaches`).
-/

namespace PageDesigner

namespace DesignHtml

/-! ## Drawing -/

theorem surface_endBody (context : DrawingContext) (element : Element) (children : Text × Drawing) :
    (endBody context element children).2.surface = children.2.surface := by
  unfold endBody
  dsimp only
  split <;> rfl

/-- A designer only prepares the component it draws. -/
theorem draw_cases (designer : Designer) (site : Text) (component : Component) :
    (designer.draw site component).2 = component ∨
      (designer.draw site component).2 = component.prepared := by
  unfold Designer.draw
  split
  · exact .inl rfl
  · exact .inr rfl

/-- What does not change when a component is put back or prepared. -/
def Drawable (holds : Surface → Prop) : Prop :=
  ∀ surface name component drawn, holds surface →
    surface.container.get? name = some component →
    drawn = component ∨ drawn = component.prepared →
    holds { surface with container := surface.container.update name fun _ => drawn }

variable {holds : Surface → Prop}

theorem holds_drawComponent (drawable : Drawable holds) (context : DrawingContext)
    (element : Element) (name : Text) (inner? : Option Text) {drawing : Drawing}
    (held : holds drawing.surface) :
    holds (drawComponent context element name inner? drawing).2.surface := by
  unfold drawComponent
  dsimp only
  split
  · exact held
  next component found =>
  split
  · exact held
  · exact drawable _ _ _ _ held found (draw_cases _ _ _)

mutual

/-- Drawing a node only prepares components. -/
theorem holds_drawNode (drawable : Drawable holds) (context : DrawingContext) {drawing : Drawing}
    (held : holds drawing.surface) (node : Node) :
    holds (drawNode context drawing node).2.surface := by
  cases node with
  | element tag ending children =>
      have below := fun drawing (held : holds (Drawing.surface drawing)) =>
        holds_drawNodes drawable context held children
      have body := fun drawing (held : holds (Drawing.surface drawing)) =>
        (surface_endBody context ⟨tag, ending, children⟩ _) ▸ below drawing held
      unfold drawNode
      dsimp only
      split
      · exact held
      · split
        · split
          · exact holds_drawComponent drawable _ _ _ _ (body _ held)
          · exact holds_drawComponent drawable _ _ _ _ held
        · split
          · exact body _ held
          · exact held
  | _ => exact held

theorem holds_drawNodes (drawable : Drawable holds) (context : DrawingContext) {drawing : Drawing}
    (held : holds drawing.surface) (nodes : List Node) :
    holds (drawNodes context drawing nodes).2.surface := by
  cases nodes with
  | nil => exact held
  | cons node rest =>
      exact holds_drawNodes drawable context (holds_drawNode drawable context held node) rest

end

theorem holds_draw (drawable : Drawable holds) (context : DrawingContext) {surface : Surface}
    (held : holds surface) : holds (draw context surface).2 := by
  unfold draw
  split
  · exact held
  · exact @holds_drawNode holds drawable context ⟨surface, .start, []⟩ held _

/-- Drawing keeps the names. -/
theorem names_draw (context : DrawingContext) (surface : Surface) :
    (draw context surface).2.container.names = surface.container.names := by
  refine @holds_draw (·.container.names = surface.container.names) ?_ context surface rfl
  intro drawing name component drawn same _ _
  rw [Container.names_update]
  exact same

end DesignHtml

namespace Document

/-- A scan leaves the document sound even when it fails. -/
theorem sound_of_scanPasses {mode : ScanMode} {bound : Nat} {report : ScanReport}
    {document after : Document} (sound : document.Sound)
    (ended : (∃ report', scanPasses mode bound report document = .ok report' after) ∨
      ∃ failure, scanPasses mode bound report document = .error failure after) : after.Sound := by
  induction bound generalizing report document with
  | zero =>
      rcases ended with ⟨_, done⟩ | ⟨_, failed⟩
      · cases done
      · injection failed with _ same
        rw [← same]
        exact sound
  | succ bound ih =>
      obtain ⟨pass, middle, sound', _, surface, outcome⟩ :=
        scanPasses_cases sound mode bound report
      rcases outcome with ⟨_, turn⟩ | ⟨_, _, _, _, _, turn⟩
      · cases mode with
        | initial =>
            rw [turn, finishScan_initial] at ended
            rcases ended with ⟨_, done⟩ | ⟨_, failed⟩
            · injection done with _ same
              rw [← same]
              exact sound'
            · cases failed
        | persist =>
            obtain ⟨final, _, finished, distinct, _⟩ := finishScan_persist sound' surface
            rw [turn, finished] at ended
            rcases ended with ⟨_, done⟩ | ⟨_, failed⟩
            · injection done with _ same
              rw [← same]
              exact sound'.withSurface distinct
            · cases failed
      · rw [turn] at ended
        exact ih (sound'.setAttribute _ _ _) ended

theorem Sound.release {document : Document} (sound : document.Sound) :
    { document with buffer := document.buffer.release }.Sound :=
  sound.withBuffer (release_frame document.buffer).1 (release_frame document.buffer).2

/-- Something that happens to a document. -/
inductive Step (document : Document) : Document → Prop
  | edited (edit : Edit) : Step document (document.edited edit)
  | staled : Step document { document with buffer := document.buffer.markDirty }
  | parsed : Step document document.parse.2
  | drawn : Step document document.designHtml.2
  | rooted {page : ControlType} {name : Text} {after : Document}
      (done : siteRoot page document = .ok name after) : Step document after
  | sited {name? : Option Text} {component : Component} {name : Text} {surface : Surface}
      (done : document.surface.siteControl name? component = .ok (name, surface)) :
      Step document { document with surface }
  | changed (name : Text) (change : Component → Component) :
      Step document { document with
        surface := { document.surface with
          container := document.surface.container.update name change } }
  | renamed {name newName previous : Text} {surface : Surface}
      (done : document.surface.rename name newName = .ok (previous, surface)) :
      Step document { document with surface }
  | destroyed {name stored : Text} {surface : Surface}
      (done : document.surface.destroy? name = some (stored, surface)) :
      Step document { document with surface }
  | selected (names : List Text) (primary : Nat) :
      Step document (document.onSurface (·.select names primary))
  | scanned {mode : ScanMode} {report : ScanReport} {after : Document}
      (done : scan mode document = .ok report after) : Step document after
  | failed {mode : ScanMode} {failure : DesignError} {after : Document}
      (done : scan mode document = .error failure after) : Step document after

/-- A scan is its passes, behind what comes before them and with notices held back. -/
theorem scan_eq {document : Document} (sound : document.Sound) (mode : ScanMode) :
    ∃ bound report start, start.Sound ∧ start.surface = document.surface ∧
      start.registry = document.registry ∧
      scan mode document =
        match scanPasses mode bound report start with
        | .ok report after => .ok report { after with buffer := after.buffer.release }
        | .error failure after => .error failure { after with buffer := after.buffer.release } := by
  cases mode with
  | initial =>
      obtain ⟨report, start, sound', agrees, surface, _, _, runs⟩ := createControls_eq sound
      exact ⟨_, report, start, sound', surface, agrees.registry_eq, runs⟩
  | persist =>
      exact ⟨document.options.maxScanPasses, .empty,
        { document with buffer := document.buffer.suppress }, sound.withBuffer rfl rfl, rfl, rfl,
        persist_eq document⟩

/-- However a scan ends, it leaves a sound document sound. -/
theorem sound_of_scan {mode : ScanMode} {document after : Document} (sound : document.Sound)
    (ended : (∃ report, scan mode document = .ok report after) ∨
      ∃ failure, scan mode document = .error failure after) : after.Sound := by
  obtain ⟨bound, report, start, sound', _, _, runs⟩ := scan_eq sound mode
  rw [runs] at ended
  cases ran : scanPasses mode bound report start with
  | ok report' middle =>
      rw [ran] at ended
      rcases ended with ⟨_, done⟩ | ⟨_, failed⟩
      · injection done with _ same
        rw [← same]
        exact (sound_of_scanPasses sound' (.inl ⟨_, ran⟩)).release
      · cases failed
  | error failure middle =>
      rw [ran] at ended
      rcases ended with ⟨_, done⟩ | ⟨_, failed⟩
      · cases done
      · injection failed with _ same
        rw [← same]
        exact (sound_of_scanPasses sound' (.inr ⟨_, ran⟩)).release

/-- Every step leaves a sound document sound. -/
theorem Step.sound {document after : Document} (step : Step document after)
    (sound : document.Sound) : after.Sound := by
  cases step with
  | edited edit => exact sound.edited edit
  | staled => exact .of_isDirty sound.distinct rfl
  | parsed =>
      obtain ⟨parsed, parses, sound', _⟩ := parse_eq sound
      rw [parses]
      exact sound'
  | drawn =>
      obtain ⟨parsed, parses, sound', _⟩ := parse_eq sound
      unfold designHtml
      rw [parses]
      refine sound'.withSurface ?_
      unfold Container.Distinct
      rw [DesignHtml.names_draw]
      exact sound'.distinct
  | @rooted page name _ done =>
      unfold siteRoot at done
      simp only [bind, EStateM.bind, get_eq] at done
      cases rooted : document.surface.root? with
      | some root =>
          rw [rooted] at done
          injection done with _ same
          rw [← same]
          exact sound
      | none =>
          rw [rooted] at done
          cases sited : document.surface.siteRoot (.fresh page) with
          | error failure => rw [sited] at done; cases done
          | ok result =>
              rw [sited] at done
              injection done with _ same
              rw [← same]
              exact sound.withSurface (Surface.distinct_siteRoot sound.distinct sited)
  | sited done => exact sound.withSurface (Surface.distinct_siteControl sound.distinct done)
  | changed name change => exact sound.withSurface (sound.distinct.update name change)
  | renamed done => exact sound.withSurface (Surface.distinct_rename sound.distinct done)
  | destroyed done => exact sound.withSurface (Surface.distinct_destroy? sound.distinct done)
  | selected names primary => exact sound.withSurface sound.distinct
  | scanned done => exact sound_of_scan sound (.inl ⟨_, done⟩)
  | failed done => exact sound_of_scan sound (.inr ⟨_, done⟩)

/-- Whatever happens to a new document, it stays sound. -/
theorem sound_of_reaches {registry : Registry} {designers : DesignerRegistry} {options : Options}
    {text : Text} {document : Document}
    (reaches : Relation.ReflTransGen Step (ofText registry designers options text) document) :
    document.Sound := by
  induction reaches with
  | refl => exact .ofText registry designers options text
  | tail _ step ih => exact step.sound ih

end Document

end PageDesigner
