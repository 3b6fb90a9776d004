import PageDesigner.Buffer.Basic

/-!
# What an edit does to a buffer

An edit that finds something to do begins a new generation, whatever it does to the text:
the text has to be parsed again, and a notice is sent or held back (`Buffer.Advances`).  An
undo or redo that finds nothing leaves the buffer as it is (`Buffer.edit_cases`).
-/

namespace PageDesigner.Buffer

/-- A new generation has begun. -/
structure Advances (buffer after : Buffer) : Prop where
  generation_eq : after.generation = buffer.generation + 1
  isDirty_eq : after.isDirty = true
  guards_eq : after.guards = buffer.guards
  /-- A notice is held back while a guard is alive. -/
  held : 0 < buffer.guards → after.isPending = true ∧ after.notices = buffer.notices
  /-- Otherwise one is sent, of the new generation. -/
  sent : buffer.guards = 0 → after.isPending = buffer.isPending ∧
    after.notices = buffer.notices ++ [after.generation]

theorem advances_commit (buffer : Buffer) (history : History) (tracker : Tracker) :
    buffer.Advances (buffer.commit history tracker) := by
  unfold commit notify
  dsimp only
  split
  next guarded =>
    refine ⟨rfl, rfl, rfl, fun _ => ⟨rfl, rfl⟩, fun free => ?_⟩
    omega
  next free =>
    refine ⟨rfl, rfl, rfl, fun guarded => ?_, fun _ => ⟨rfl, rfl⟩⟩
    omega

/-- An edit begins a new generation, or there is nothing to undo or redo. -/
theorem edit_cases (buffer : Buffer) (edit : Edit) :
    (buffer.allows edit = true ∧ buffer.Advances (buffer.edit edit).2) ∨
      (buffer.allows edit = false ∧ (buffer.edit edit).2 = buffer) := by
  cases edit with
  | insert location inserted => exact .inl ⟨rfl, advances_commit _ _ _⟩
  | replace region inserted => exact .inl ⟨rfl, advances_commit _ _ _⟩
  | remove region => exact .inl ⟨rfl, advances_commit _ _ _⟩
  | replaceAll text => exact .inl ⟨rfl, advances_commit _ _ _⟩
  | undo =>
      unfold Buffer.edit allows
      dsimp only
      split
      next can => exact .inl ⟨can, advances_commit _ _ _⟩
      next cannot => exact .inr ⟨Bool.eq_false_iff.mpr cannot, rfl⟩
  | redo =>
      unfold Buffer.edit allows
      dsimp only
      split
      next can => exact .inl ⟨can, advances_commit _ _ _⟩
      next cannot => exact .inr ⟨Bool.eq_false_iff.mpr cannot, rfl⟩

end PageDesigner.Buffer
