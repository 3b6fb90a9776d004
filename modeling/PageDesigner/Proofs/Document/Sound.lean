import PageDesigner.Proofs.Buffer.Editing
import PageDesigner.Proofs.Document.Pass
import PageDesigner.Proofs.Document.TagEdit

/-!
# Sound documents

A document is sound when its names are distinct and a tree that it would still use is
the tree of its text (`Document.Sound`).  A new document is sound, every edit of the
text and every operation on the surface leaves it sound, and so does a scan.
-/

namespace PageDesigner

namespace Document

/-- The names are distinct, and a kept tree that counts is the tree of the text. -/
structure Sound (document : Document) : Prop where
  distinct : document.surface.container.Distinct
  coherent : ∀ tree, document.cached? = some tree → tree = Tree.parse document.text

/-- The text and everything that a scan does not change. -/
structure Agrees (document other : Document) : Prop where
  text_eq : other.text = document.text
  registry_eq : other.registry = document.registry
  designers_eq : other.designers = document.designers
  options_eq : other.options = document.options

theorem Agrees.refl (document : Document) : Agrees document document := ⟨rfl, rfl, rfl, rfl⟩

/-! ## Operations on the text -/

theorem Sound.ofText (registry : Registry) (designers : DesignerRegistry) (options : Options)
    (text : Text) : (Document.ofText registry designers options text).Sound where
  distinct := Container.distinct_empty
  coherent := fun tree kept => by cases kept

/-- A changed text has no tree until it is parsed. -/
theorem cached?_of_isDirty {document : Document} (dirty : document.buffer.isDirty = true) :
    document.cached? = none := by
  unfold cached?
  rw [if_pos dirty]

theorem Sound.of_isDirty {document : Document} (distinct : document.surface.container.Distinct)
    (dirty : document.buffer.isDirty = true) : document.Sound where
  distinct := distinct
  coherent := fun tree kept => by rw [cached?_of_isDirty dirty] at kept; cases kept

/-- An edit begins a new generation, or there is nothing to undo or redo. -/
theorem edited_cases (document : Document) (edit : Edit) :
    document.buffer.Advances (document.edited edit).buffer ∨ document.edited edit = document := by
  obtain ⟨-, advances⟩ | ⟨-, same⟩ := document.buffer.edit_cases edit
  · exact .inl advances
  · refine .inr ?_
    change { document with buffer := (document.buffer.edit edit).2 } = _
    rw [same]

/-- An edit leaves the document sound. -/
theorem Sound.edited {document : Document} (sound : document.Sound) (edit : Edit) :
    (document.edited edit).Sound := by
  obtain advances | same := document.edited_cases edit
  · exact .of_isDirty sound.distinct advances.isDirty_eq
  · rw [same]
    exact sound

/-- Changing the surface leaves the document sound as long as the names are distinct. -/
theorem Sound.withSurface {document : Document} (sound : document.Sound) {surface : Surface}
    (distinct : surface.container.Distinct) : { document with surface }.Sound :=
  ⟨distinct, sound.coherent⟩

theorem Sound.setAttribute {document : Document} (sound : document.Sound) (tag : Tag)
    (key value : Text) : (document.setAttribute tag key value).2.Sound := by
  unfold Document.setAttribute updateAttribute insertAttribute
  split
  · split
    · exact sound
    · dsimp only
      exact sound.edited _
  · dsimp only
    exact sound.edited _

theorem setAttribute_frame (document : Document) (tag : Tag) (key value : Text) :
    (document.setAttribute tag key value).2.surface = document.surface ∧
      (document.setAttribute tag key value).2.registry = document.registry ∧
      (document.setAttribute tag key value).2.designers = document.designers ∧
      (document.setAttribute tag key value).2.options = document.options := by
  unfold Document.setAttribute updateAttribute insertAttribute
  split
  · split <;> exact ⟨rfl, rfl, rfl, rfl⟩
  · exact ⟨rfl, rfl, rfl, rfl⟩

/-! ## Parsing -/

/-- Parsing a sound document gives the tree of its text. -/
theorem parse_eq {document : Document} (sound : document.Sound) :
    ∃ after, document.parse = (Tree.parse document.text, after) ∧ after.Sound ∧
      Agrees document after ∧ after.surface = document.surface ∧
      after.directives = document.directives := by
  unfold parse
  cases kept : document.cached? with
  | some tree =>
      rw [← sound.coherent tree kept]
      exact ⟨document, rfl, sound, .refl document, rfl, rfl⟩
  | none =>
      have marked : (document.buffer.markClean document.buffer.generation).2 =
          { document.buffer with isDirty := false } := by
        unfold Buffer.markClean
        rw [if_pos rfl]
      refine ⟨_, rfl, ⟨sound.distinct, ?_⟩, ⟨?_, rfl, rfl, rfl⟩, rfl, rfl⟩
      · intro tree found
        unfold cached? keep Buffer.snapshot at found
        dsimp only at found
        rw [marked, if_neg (by simp)] at found
        rw [← Option.some.inj found]
        unfold keep Buffer.snapshot text
        dsimp only
        rw [marked]
        rfl
      · unfold keep Buffer.snapshot text
        dsimp only
        rw [marked]
        rfl

/-! ## Notices -/

theorem Sound.withBuffer {document : Document} (sound : document.Sound) {buffer : Buffer}
    (text : buffer.text = document.buffer.text) (dirty : buffer.isDirty = document.buffer.isDirty) :
    { document with buffer }.Sound where
  distinct := sound.distinct
  coherent := by
    intro tree kept
    unfold cached? at kept
    dsimp only at kept
    rw [dirty] at kept
    unfold Document.text
    dsimp only
    rw [text]
    exact sound.coherent tree kept

theorem release_frame (buffer : Buffer) :
    buffer.release.text = buffer.text ∧ buffer.release.isDirty = buffer.isDirty := by
  unfold Buffer.release Buffer.notify
  split
  · exact ⟨rfl, rfl⟩
  · dsimp only
    split
    · split <;> exact ⟨rfl, rfl⟩
    · exact ⟨rfl, rfl⟩
  · exact ⟨rfl, rfl⟩

/-- Holding notices back does not matter for the result of an action. -/
theorem quietly_eq_ok {α : Type} {action : Action α} {document after : Document} {result : α}
    (done : quietly action document = .ok result after) :
    ∃ middle, action { document with buffer := document.buffer.suppress } = .ok result middle ∧
      after = { middle with buffer := middle.buffer.release } := by
  unfold quietly at done
  dsimp only at done
  split at done
  · next result' middle ran =>
      injection done with sameResult sameAfter
      subst sameResult
      exact ⟨middle, ran, sameAfter.symm⟩
  · cases done

end Document

end PageDesigner
