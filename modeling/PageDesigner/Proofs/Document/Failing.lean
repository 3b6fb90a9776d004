import PageDesigner.Document.TagEdit
import PageDesigner.Proofs.Keeping
import PageDesigner.Proofs.Surface.Alike

/-!
# Edits of tags that fail

A document is unedited when only its tree may be new (`Document.Unedited`).  An operation
on the tag of a component that fails leaves the document unedited.  Two documents resemble
each other when their texts, with the history, and their directives are the same and their
surfaces look alike (`Document.Resembles`).
-/

namespace PageDesigner.Document

/-- The same text with the same history, and the same directives. -/
structure SameText (document other : Document) : Prop where
  history_eq : other.buffer.history = document.buffer.history
  tracker_eq : other.buffer.tracker = document.buffer.tracker
  generation_eq : other.buffer.generation = document.buffer.generation
  directives_eq : other.directives = document.directives

theorem SameText.refl (document : Document) : document.SameText document := ⟨rfl, rfl, rfl, rfl⟩

theorem SameText.trans {first second third : Document} (same : first.SameText second)
    (same' : second.SameText third) : first.SameText third where
  history_eq := same'.history_eq.trans same.history_eq
  tracker_eq := same'.tracker_eq.trans same.tracker_eq
  generation_eq := same'.generation_eq.trans same.generation_eq
  directives_eq := same'.directives_eq.trans same.directives_eq

/-- Nothing has changed but the tree that is kept. -/
structure Unedited (document other : Document) : Prop extends SameText document other where
  surface_eq : other.surface = document.surface

theorem Unedited.refl (document : Document) : document.Unedited document :=
  ⟨.refl document, rfl⟩

theorem Unedited.trans {first second third : Document} (unedited : first.Unedited second)
    (unedited' : second.Unedited third) : first.Unedited third :=
  ⟨unedited.toSameText.trans unedited'.toSameText,
    unedited'.surface_eq.trans unedited.surface_eq⟩

/-- The same text with the same history, the same directives, and surfaces that look alike. -/
structure Resembles (document other : Document) : Prop extends SameText document other where
  surface : document.surface.Alike other.surface

theorem Unedited.resembles {document other : Document} (unedited : document.Unedited other) :
    document.Resembles other :=
  ⟨unedited.toSameText, by rw [unedited.surface_eq]; exact .refl _⟩

theorem Resembles.trans {first second third : Document} (resembles : first.Resembles second)
    (resembles' : second.Resembles third) : first.Resembles third :=
  ⟨resembles.toSameText.trans resembles'.toSameText,
    resembles.surface.trans resembles'.surface⟩

/-- A surface that was changed is put back beside the same text. -/
theorem SameText.withSurface {document other : Document} {surface : Surface}
    (same : { document with surface }.SameText other) (surface' : Surface) :
    document.SameText { other with surface := surface' } :=
  ⟨same.history_eq, same.tracker_eq, same.generation_eq, same.directives_eq⟩

theorem unedited_parse (document : Document) : document.Unedited document.parse.2 := by
  unfold parse keep Buffer.markClean
  split
  · exact .refl document
  · dsimp only
    split <;> exact ⟨⟨rfl, rfl, rfl, rfl⟩, rfl⟩

variable {base : Document}

theorem unedited_parsed : Keeps base.Unedited parsed :=
  .modifyGet fun document unedited => unedited.trans (unedited_parse document)

theorem unedited_tagOf (id : Text) : Keeps base.Unedited (tagOf id) := by
  refine unedited_parsed.seq fun tree => ?_
  split
  · exact .pure _
  · exact .throw _

theorem unedited_updateTag (controlType : ControlType) (id property : Text) (value : Value) :
    FailsKeeping base.Unedited (updateTag controlType id property value) := by
  unfold updateTag
  split
  · exact .throw _
  · refine .seq (unedited_tagOf id) fun element => ?_
    split
    · exact .modifyGet _
    · dsimp only
      split
      · exact .pure _
      · split
        · exact .throw _
        · exact .modifyGet _

theorem unedited_renameTag (id newId : Text) :
    FailsKeeping base.Unedited (renameTag id newId) :=
  .seq (unedited_tagOf id) fun _ => .modifyGet _

theorem unedited_removeTag (id : Text) : FailsKeeping base.Unedited (removeTag id) := by
  refine .seq (unedited_tagOf id) fun element => ?_
  split
  · exact .throw _
  · exact .modify _

theorem unedited_insertTag (markup : Text) : FailsKeeping base.Unedited (insertTag markup) := by
  refine .seq unedited_parsed fun tree => ?_
  split
  · exact .throw _
  · exact fun _ _ _ _ failed => nomatch failed

end PageDesigner.Document
