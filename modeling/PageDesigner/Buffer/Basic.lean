import PageDesigner.Buffer.History
import PageDesigner.Buffer.Tracker

/-!
# The text buffer

All edits of the text under a designer go through its buffer.  The buffer counts
the edits (its generation), knows whether the text has changed since it was last
parsed, and notifies listeners of every change.  While a guard is alive the
notifications are held back; the last guard to go sends one for all of them.

The notices sent so far are part of the state, oldest first, each as the
generation it told.
-/

namespace PageDesigner

/-- An edit of the text. -/
inductive Edit where
  | insert (location : Location) (inserted : Text)
  | replace (region : Region) (inserted : Text)
  | remove (region : Region)
  | replaceAll (text : Text)
  | undo
  | redo
  deriving DecidableEq, Repr

/-- The text under a designer, with everything that follows its edits. -/
structure Buffer where
  history : History
  tracker : Tracker
  /-- The text has changed since it was last parsed. -/
  isDirty : Bool
  /-- Number of edits so far.  The designer counts in 64 bits, and no run is long enough for the
  count to wrap. -/
  generation : Nat
  /-- Guards that hold notices back. -/
  guards : Nat
  /-- A notice was held back. -/
  isPending : Bool
  /-- The notices sent so far. -/
  notices : List Nat
  deriving DecidableEq, Repr

/-- A text with the generation it belongs to. -/
structure Snapshot where
  text : Text
  generation : Nat
  deriving DecidableEq, Repr

namespace Buffer

/-- A buffer with a text that was neither edited nor parsed. -/
def ofText (text : Text) : Buffer := ⟨.ofText text, .empty, true, 0, 0, false, []⟩

/-- The current text. -/
def text (buffer : Buffer) : Text := buffer.history.text

/-- The current text with its generation. -/
def snapshot (buffer : Buffer) : Snapshot := ⟨buffer.text, buffer.generation⟩

/-- The text between two locations. -/
def between (buffer : Buffer) (first last : Location) : Text := buffer.history.between first last

/-- Send a notice of the current generation, or hold it back. -/
def notify (buffer : Buffer) : Buffer :=
  if 0 < buffer.guards then { buffer with isPending := true }
  else { buffer with notices := buffer.notices ++ [buffer.generation] }

/-- Take in an edited history. -/
def commit (buffer : Buffer) (history : History) (tracker : Tracker) : Buffer :=
  { buffer with
    history, tracker, isDirty := true, generation := buffer.generation + 1 }.notify

/-- Whether an edit finds something to do; only undoing and redoing may not. -/
def allows (buffer : Buffer) : Edit → Bool
  | .undo => buffer.tracker.canUndo
  | .redo => buffer.tracker.canRedo
  | _ => true

/-- Make an edit; also tells whether an undo or redo took place. -/
def edit (buffer : Buffer) (edit : Edit) : Bool × Buffer :=
  let history := buffer.history
  let finished := buffer.tracker.finish
  match edit with
  | .insert location inserted => (true, buffer.commit (history.insert location inserted) finished)
  | .replace region inserted => (true, buffer.commit (history.replace region inserted) finished)
  | .remove region => (true, buffer.commit (history.replace region []) finished)
  | .replaceAll text => (true, buffer.commit (history.replaceAll text) finished)
  | .undo =>
      if buffer.tracker.canUndo then
        (history.undo?.isSome, buffer.commit (history.undo?.getD history) buffer.tracker.undo)
      else (false, buffer)
  | .redo =>
      if buffer.tracker.canRedo then
        (history.redo?.isSome, buffer.commit (history.redo?.getD history) buffer.tracker.redo)
      else (false, buffer)

/-- Note that the text of a generation was parsed, unless it has been edited since. -/
def markClean (buffer : Buffer) (generation : Nat) : Bool × Buffer :=
  if buffer.generation = generation then (true, { buffer with isDirty := false })
  else (false, buffer)

/-- Have the text parsed again. -/
def markDirty (buffer : Buffer) : Buffer := { buffer with isDirty := true }

/-- Hold notices back until the guard is released. -/
def suppress (buffer : Buffer) : Buffer := { buffer with guards := buffer.guards + 1 }

/-- Release a guard; the last one sends the notice that was held back. -/
def release (buffer : Buffer) : Buffer :=
  match buffer.guards with
  | 0 => buffer
  | 1 =>
      let free := { buffer with guards := 0, isPending := false }
      if buffer.isPending then free.notify else free
  | guards + 2 => { buffer with guards := guards + 1 }

end Buffer

end PageDesigner
