/-!
# The undo tracker

The tracker counts how many edits can be undone and redone.  A new edit forgets
what could be redone; the counts never go below zero.
-/

namespace PageDesigner

/-- How many edits can be undone, and how many undone edits can be redone. -/
structure Tracker where
  undoLevels : Nat
  redoLevels : Nat
  deriving DecidableEq, Repr

namespace Tracker

/-- Nothing to undo or redo. -/
def empty : Tracker := ⟨0, 0⟩

/-- After a completed edit. -/
def finish (tracker : Tracker) : Tracker := ⟨tracker.undoLevels + 1, 0⟩

/-- After an undo; nothing happens when nothing can be undone. -/
def undo : Tracker → Tracker
  | ⟨0, redoLevels⟩ => ⟨0, redoLevels⟩
  | ⟨undoLevels + 1, redoLevels⟩ => ⟨undoLevels, redoLevels + 1⟩

/-- After a redo; nothing happens when nothing can be redone. -/
def redo : Tracker → Tracker
  | ⟨undoLevels, 0⟩ => ⟨undoLevels, 0⟩
  | ⟨undoLevels, redoLevels + 1⟩ => ⟨undoLevels + 1, redoLevels⟩

/-- Whether there is an edit to undo. -/
def canUndo (tracker : Tracker) : Bool := 0 < tracker.undoLevels

/-- Whether there is an edit to redo. -/
def canRedo (tracker : Tracker) : Bool := 0 < tracker.redoLevels

end Tracker

end PageDesigner
