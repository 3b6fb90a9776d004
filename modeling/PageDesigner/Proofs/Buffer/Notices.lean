import Mathlib.Data.List.Induction
import PageDesigner.Proofs.Buffer.Editing

/-!
# Notices of changes

Listeners hear of a buffer through its notices, and guards hold them back.  Guards are taken
and dropped in any order.  A notice is due when no guard is alive and the generation is not
the one that was told last; each step sends the notice that is due behind it and no other
(`Guarded.Kept.notices_step`).

So an edit outside all guards sends one notice, a stretch under guards sends one at its end
if an edit took place in it, and no notice is lost or sent twice (`Guarded.notifies_run`).
-/

namespace PageDesigner

namespace Buffer

/-- The generation that was told last; nothing has to be told of generation 0. -/
def told (buffer : Buffer) : Nat := buffer.notices.getLast?.getD 0

/-- The last notice is of the generation, or a later one is held back. -/
structure Tells (buffer : Buffer) : Prop where
  told_le : buffer.told ≤ buffer.generation
  isPending_iff : buffer.isPending = true ↔ buffer.told < buffer.generation
  told_eq : buffer.guards = 0 → buffer.told = buffer.generation
  /-- Later notices are of later generations, and none is of generation 0. -/
  increasing : (0 :: buffer.notices).Pairwise (· < ·)

/-- The notice that is due when a generation was told last. -/
def due (told : Nat) (buffer : Buffer) : List Nat :=
  if buffer.guards = 0 ∧ told < buffer.generation then [buffer.generation] else []

variable {buffer after : Buffer}

theorem tells_ofText (text : Text) : (ofText text).Tells where
  told_le := Nat.le_refl 0
  isPending_iff := iff_of_false Bool.false_ne_true (Nat.lt_irrefl 0)
  told_eq := fun _ => rfl
  increasing := List.pairwise_singleton _ _

/-- The generation that was told last is the greatest one. -/
theorem Tells.le_told (tells : buffer.Tells) :
    ∀ notice ∈ 0 :: buffer.notices, notice ≤ buffer.told := by
  intro notice sent
  have increasing := tells.increasing
  unfold told
  obtain none | ⟨former, last, parted⟩ := List.eq_nil_or_concat buffer.notices
  · rw [none] at sent ⊢
    exact Nat.le_of_eq (List.mem_singleton.mp sent)
  · rw [List.concat_eq_append] at parted
    rw [parted, ← List.cons_append] at sent increasing
    rw [parted, List.getLast?_concat, Option.getD_some]
    obtain before | here := List.mem_append.mp sent
    · exact Nat.le_of_lt ((List.pairwise_append.mp increasing).2.2 _ before _
        (List.mem_singleton_self last))
    · exact Nat.le_of_eq (List.mem_singleton.mp here)

/-- One step of a buffer that sends what is due. -/
structure Sends (buffer after : Buffer) : Prop where
  tells : after.Tells
  notices_eq : after.notices = buffer.notices ++ due buffer.told after

/-- A notice of a later generation is the last one. -/
theorem Tells.send (tells : buffer.Tells) (free : after.guards = 0)
    (later : buffer.told < after.generation)
    (sent : after.notices = buffer.notices ++ [after.generation])
    (settled : after.isPending = false) : buffer.Sends after := by
  have last : after.told = after.generation := by
    unfold told
    rw [sent, List.getLast?_concat, Option.getD_some]
  refine ⟨⟨Nat.le_of_eq last, ?_, fun _ => last, ?_⟩, ?_⟩
  · rw [settled, last]
    exact iff_of_false Bool.false_ne_true (Nat.lt_irrefl _)
  · rw [sent, ← List.cons_append, List.pairwise_append]
    refine ⟨tells.increasing, List.pairwise_singleton _ _, fun notice before latest here => ?_⟩
    rw [List.mem_singleton.mp here]
    exact Nat.lt_of_le_of_lt (tells.le_told notice before) later
  · unfold due
    rw [if_pos ⟨free, later⟩]
    exact sent

/-- Without a notice, a generation that was not told is held back. -/
theorem Tells.hold (tells : buffer.Tells) (unsent : after.notices = buffer.notices)
    (told_le : buffer.told ≤ after.generation)
    (held : after.isPending = true ↔ buffer.told < after.generation)
    (told_eq : after.guards = 0 → buffer.told = after.generation) : buffer.Sends after := by
  have same : after.told = buffer.told := by
    unfold told
    rw [unsent]
  refine ⟨⟨?_, ?_, ?_, ?_⟩, ?_⟩
  · rw [same]
    exact told_le
  · rw [same]
    exact held
  · rw [same]
    exact told_eq
  · rw [unsent]
    exact tells.increasing
  · unfold due
    rw [if_neg fun owed => Nat.ne_of_lt owed.2 (told_eq owed.1), List.append_nil]
    exact unsent

theorem Tells.stay (tells : buffer.Tells) : buffer.Sends buffer :=
  tells.hold rfl tells.told_le tells.isPending_iff tells.told_eq

theorem Tells.suppress (tells : buffer.Tells) : buffer.Sends buffer.suppress :=
  tells.hold rfl tells.told_le tells.isPending_iff nofun

/-- A new generation is told at once or held back. -/
theorem Tells.advance (tells : buffer.Tells) (advances : buffer.Advances after) :
    buffer.Sends after := by
  have later : buffer.told < after.generation := by
    rw [advances.generation_eq]
    exact Nat.lt_succ_of_le tells.told_le
  by_cases free : buffer.guards = 0
  · obtain ⟨pending, sent⟩ := advances.sent free
    have settled : buffer.isPending = false := by
      rw [Bool.eq_false_iff, Ne, tells.isPending_iff, tells.told_eq free]
      exact Nat.lt_irrefl _
    exact tells.send (advances.guards_eq.trans free) later sent (pending.trans settled)
  · obtain ⟨pending, unsent⟩ := advances.held (Nat.pos_of_ne_zero free)
    refine tells.hold unsent (Nat.le_of_lt later) (iff_of_true pending later) fun none => ?_
    exact absurd (advances.guards_eq.symm.trans none) free

/-! ## Releasing guards -/

theorem release_of_pending (last : buffer.guards = 1) (pending : buffer.isPending = true) :
    buffer.release = { buffer with
      guards := 0
      isPending := false
      notices := buffer.notices ++ [buffer.generation] } := by
  unfold Buffer.release
  rw [last]
  dsimp only
  rw [if_pos pending]
  rfl

theorem release_of_settled (last : buffer.guards = 1) (settled : buffer.isPending = false) :
    buffer.release = { buffer with guards := 0, isPending := false } := by
  unfold Buffer.release
  rw [last]
  dsimp only
  rw [settled, if_neg Bool.false_ne_true]

theorem release_of_others {guards : Nat} (others : buffer.guards = guards + 2) :
    buffer.release = { buffer with guards := guards + 1 } := by
  unfold Buffer.release
  rw [others]

theorem generation_release (buffer : Buffer) : buffer.release.generation = buffer.generation := by
  unfold Buffer.release notify
  split
  · rfl
  · dsimp only
    split <;> rfl
  · rfl

/-- The last guard to go sends the notice that was held back. -/
theorem Tells.release (tells : buffer.Tells) (guarded : 0 < buffer.guards) :
    buffer.Sends buffer.release ∧ buffer.release.guards = buffer.guards - 1 := by
  obtain none | last | ⟨guards, others⟩ :
      buffer.guards = 0 ∨ buffer.guards = 1 ∨ ∃ guards, buffer.guards = guards + 2 := by
    match buffer.guards with
    | 0 => exact .inl rfl
    | 1 => exact .inr (.inl rfl)
    | guards + 2 => exact .inr (.inr ⟨guards, rfl⟩)
  · omega
  · rw [last]
    cases pending : buffer.isPending with
    | true =>
        rw [release_of_pending last pending]
        exact ⟨tells.send rfl (tells.isPending_iff.mp pending) rfl rfl, rfl⟩
    | false =>
        have told_le := tells.told_le
        have still : ¬ buffer.told < buffer.generation :=
          mt tells.isPending_iff.mpr (Bool.eq_false_iff.mp pending)
        rw [release_of_settled last pending]
        refine ⟨tells.hold rfl told_le (iff_of_false Bool.false_ne_true still) fun _ => ?_, rfl⟩
        dsimp only
        omega
  · rw [release_of_others others, others]
    exact ⟨tells.hold rfl tells.told_le tells.isPending_iff nofun, rfl⟩

end Buffer

/-! ## Guards -/

/-- What is done with a buffer; a guard goes by its number in the order of taking. -/
inductive GuardedStep where
  | edit (edit : Edit)
  | suppress
  | drop (number : Nat)
  deriving DecidableEq, Repr

/-- A buffer with the guards that were taken of it. -/
structure Guarded where
  buffer : Buffer
  /-- Whether each guard is alive, in the order of taking. -/
  guards : List Bool
  deriving DecidableEq, Repr

namespace Guarded

/-- A new buffer without guards. -/
def ofText (text : Text) : Guarded := ⟨.ofText text, []⟩

/-- Whether a guard is alive. -/
def isHeld (state : Guarded) : Bool := state.guards.contains true

/-- Edit, take a guard or drop one; nothing happens to a guard that is not alive. -/
def step (state : Guarded) : GuardedStep → Guarded
  | .edit edit => { state with buffer := (state.buffer.edit edit).2 }
  | .suppress => ⟨state.buffer.suppress, state.guards ++ [true]⟩
  | .drop number =>
      if state.guards[number]? = some true then
        ⟨state.buffer.release, state.guards.set number false⟩
      else state

/-- Take steps one after the other. -/
def run (state : Guarded) (steps : List GuardedStep) : Guarded := steps.foldl step state

/-- Whether a step is an edit that finds something to do. -/
def mutates (state : Guarded) : GuardedStep → Bool
  | .edit edit => state.buffer.allows edit
  | _ => false

/-- How many steps are edits that find something to do. -/
def mutations (state : Guarded) : List GuardedStep → Nat
  | [] => 0
  | step :: rest => (state.mutates step).toNat + (state.step step).mutations rest

theorem run_append (state : Guarded) (former latter : List GuardedStep) :
    state.run (former ++ latter) = (state.run former).run latter := List.foldl_append

theorem run_snoc (state : Guarded) (former : List GuardedStep) (step : GuardedStep) :
    state.run (former ++ [step]) = (state.run former).step step := run_append state former [step]

variable {state : Guarded} {number : Nat}

/-- The buffer counts the guards that are alive and sends what is due. -/
structure Kept (state : Guarded) : Prop where
  guards_eq : state.buffer.guards = state.guards.count true
  tells : state.buffer.Tells

theorem kept_ofText (text : Text) : (ofText text).Kept := ⟨rfl, Buffer.tells_ofText text⟩

theorem Kept.isHeld_iff (kept : state.Kept) : state.isHeld = true ↔ 0 < state.buffer.guards := by
  rw [kept.guards_eq, List.count_pos_iff]
  exact List.contains_iff_mem

theorem Kept.free (kept : state.Kept) (unheld : state.isHeld = false) :
    state.buffer.guards = 0 := by
  rw [Bool.eq_false_iff, Ne, kept.isHeld_iff] at unheld
  omega

/-- A step takes place in the buffer, or nothing happens. -/
theorem Kept.sends (kept : state.Kept) (step : GuardedStep) :
    (state.step step).Kept ∧ state.buffer.Sends (state.step step).buffer := by
  cases step with
  | edit edit =>
      obtain ⟨-, advances⟩ | ⟨-, same⟩ := state.buffer.edit_cases edit
      · have sends := kept.tells.advance advances
        exact ⟨⟨advances.guards_eq.trans kept.guards_eq, sends.tells⟩, sends⟩
      · unfold Guarded.step
        dsimp only
        rw [same]
        exact ⟨kept, kept.tells.stay⟩
  | suppress =>
      have sends := kept.tells.suppress
      refine ⟨⟨?_, sends.tells⟩, sends⟩
      unfold Guarded.step Buffer.suppress
      dsimp only
      rw [List.count_append, kept.guards_eq]
      rfl
  | drop number =>
      unfold Guarded.step
      dsimp only
      split
      next alive =>
        obtain ⟨within, here⟩ := List.getElem?_eq_some_iff.mp alive
        have member : true ∈ state.guards := List.mem_of_getElem? alive
        have counted : 0 < state.guards.count true := List.count_pos_iff.mpr member
        obtain ⟨sends, guards_eq⟩ := kept.tells.release (by rw [kept.guards_eq]; exact counted)
        refine ⟨⟨?_, sends.tells⟩, sends⟩
        dsimp only
        rw [guards_eq, kept.guards_eq, List.count_set within, here]
        rfl
      next => exact ⟨kept, kept.tells.stay⟩

/-- Each step sends the notice that is due behind it. -/
theorem Kept.notices_step (kept : state.Kept) (step : GuardedStep) :
    (state.step step).buffer.notices =
      state.buffer.notices ++ Buffer.due state.buffer.told (state.step step).buffer :=
  (kept.sends step).2.notices_eq

theorem Kept.run (kept : state.Kept) (steps : List GuardedStep) : (state.run steps).Kept := by
  induction steps generalizing state with
  | nil => exact kept
  | cons step rest ih => exact ih (kept.sends step).1

/-! ## Whole runs -/

theorem generation_step (state : Guarded) (step : GuardedStep) :
    (state.step step).buffer.generation =
      state.buffer.generation + (state.mutates step).toNat := by
  cases step with
  | edit edit =>
      unfold Guarded.step mutates
      dsimp only
      obtain ⟨allowed, advances⟩ | ⟨refused, same⟩ := state.buffer.edit_cases edit
      · rw [allowed]
        exact advances.generation_eq
      · rw [refused, same]
        rfl
  | suppress => rfl
  | drop number =>
      unfold Guarded.step
      dsimp only
      split
      · exact Buffer.generation_release state.buffer
      · rfl

/-- The generation counts the edits that took place. -/
theorem generation_run (state : Guarded) (steps : List GuardedStep) :
    (state.run steps).buffer.generation = state.buffer.generation + state.mutations steps := by
  induction steps generalizing state with
  | nil => rfl
  | cons step rest ih =>
      change ((state.step step).run rest).buffer.generation = _
      rw [ih, generation_step, mutations, Nat.add_assoc]

/-- A guard is alive behind each of some steps. -/
def HeldThrough (state : Guarded) (steps : List GuardedStep) : Prop :=
  ∀ former, former ≠ [] → former <+: steps → (state.run former).isHeld = true

/-- Nothing is sent while a guard is alive. -/
theorem Kept.notices_run (kept : state.Kept) {steps : List GuardedStep}
    (held : state.HeldThrough steps) : (state.run steps).buffer.notices = state.buffer.notices := by
  induction steps using List.reverseRecOn with
  | nil => rfl
  | append_singleton former step ih =>
      have before := ih fun inner some begins =>
        held inner some (begins.trans (List.prefix_append former [step]))
      have after := held (former ++ [step]) (List.concat_ne_nil step former) List.prefix_rfl
      have kept' := kept.run (former ++ [step])
      rw [kept'.isHeld_iff] at after
      rw [run_snoc] at after ⊢
      rw [(kept.run former).notices_step, before]
      unfold Buffer.due
      rw [if_neg fun owed => Nat.ne_of_gt after owed.1, List.append_nil]

/-- What the listeners of a buffer hear of a run of steps, and what they hear next. -/
structure Notifies (text : Text) (steps : List GuardedStep) : Prop where
  /-- The generation is the number of edits that took place. -/
  generation_eq : ((ofText text).run steps).buffer.generation = (ofText text).mutations steps
  /-- An edit made while no guard is alive sends one notice, of the generation it begins. -/
  edit_sends : ((ofText text).run steps).isHeld = false → ∀ edit,
    ((ofText text).run (steps ++ [.edit edit])).buffer.notices =
      ((ofText text).run steps).buffer.notices ++
        if ((ofText text).run steps).buffer.allows edit then
          [((ofText text).run (steps ++ [.edit edit])).buffer.generation]
        else []
  /-- From there on nothing is sent as long as a guard is alive. -/
  held_sends : ((ofText text).run steps).isHeld = false → ∀ inside,
    ((ofText text).run steps).HeldThrough inside →
      ((ofText text).run (steps ++ inside)).buffer.notices =
        ((ofText text).run steps).buffer.notices
  /-- Once none is, one notice of the current generation is sent if an edit took place. -/
  freed_sends : ((ofText text).run steps).isHeld = false → ∀ inside last,
    ((ofText text).run steps).HeldThrough inside →
    ((ofText text).run (steps ++ inside ++ [last])).isHeld = false →
      ((ofText text).run (steps ++ inside ++ [last])).buffer.notices =
        ((ofText text).run steps).buffer.notices ++
          if 0 < ((ofText text).run steps).mutations (inside ++ [last]) then
            [((ofText text).run (steps ++ inside ++ [last])).buffer.generation]
          else []
  /-- Later notices are of later generations. -/
  increasing : ((ofText text).run steps).buffer.notices.Pairwise (· < ·)
  /-- While no guard is alive, the last notice is of the current generation. -/
  last_eq : ((ofText text).run steps).isHeld = false →
    ((ofText text).run steps).buffer.notices.getLast? =
      if 0 < (ofText text).mutations steps then
        some ((ofText text).run steps).buffer.generation
      else none

/-- Once no guard is alive, a stretch of steps sends one notice if an edit took place in it. -/
theorem Kept.notices_freed (kept : state.Kept) (free : state.isHeld = false)
    {inside : List GuardedStep} {last : GuardedStep} (held : state.HeldThrough inside)
    (freed : (state.run (inside ++ [last])).isHeld = false) :
    (state.run (inside ++ [last])).buffer.notices = state.buffer.notices ++
      if 0 < state.mutations (inside ++ [last]) then
        [(state.run (inside ++ [last])).buffer.generation]
      else [] := by
  have guards := (kept.run (inside ++ [last])).free freed
  have generation_eq := generation_run state (inside ++ [last])
  have told_eq : (state.run inside).buffer.told = state.buffer.generation := by
    rw [← kept.tells.told_eq (kept.free free)]
    unfold Buffer.told
    rw [kept.notices_run held]
  rw [run_snoc] at guards generation_eq ⊢
  rw [(kept.run inside).notices_step, kept.notices_run held, told_eq]
  unfold Buffer.due
  congr 1
  refine if_congr ⟨fun owed => ?_, fun some => ⟨guards, ?_⟩⟩ rfl rfl <;> omega

theorem heldThrough_nil (state : Guarded) : state.HeldThrough [] :=
  fun _ some begins => absurd (List.prefix_nil.mp begins) some

theorem mutations_edit (state : Guarded) (edit : Edit) :
    0 < state.mutations [.edit edit] ↔ state.buffer.allows edit = true := by
  change 0 < (state.buffer.allows edit).toNat + 0 ↔ _
  cases state.buffer.allows edit <;> decide

/-- Whatever is edited, and whichever guards are taken and dropped, each change is told once. -/
theorem notifies_run (text : Text) (steps : List GuardedStep) : Notifies text steps := by
  have kept := (kept_ofText text).run steps
  have generation_eq : ((ofText text).run steps).buffer.generation =
      (ofText text).mutations steps := (generation_run _ _).trans (Nat.zero_add _)
  have increasing := List.pairwise_cons.mp kept.tells.increasing
  refine ⟨generation_eq, fun free edit => ?_, fun free inside held => ?_,
    fun free inside last held freed => ?_, increasing.2, fun free => ?_⟩
  · rw [run_append]
    -- An edit outside all guards is a stretch of its own.
    have still : (((ofText text).run steps).run ([] ++ [.edit edit])).isHeld = false := free
    have sends := kept.notices_freed free (heldThrough_nil _) still
    rw [List.nil_append] at sends
    exact sends.trans (congrArg _ (if_congr (mutations_edit _ edit) rfl rfl))
  · rw [run_append]
    exact kept.notices_run held
  · rw [List.append_assoc, run_append] at freed ⊢
    exact kept.notices_freed free held freed
  · have told_eq := kept.tells.told_eq (kept.free free)
    unfold Buffer.told at told_eq
    rw [← generation_eq]
    cases latest : ((ofText text).run steps).buffer.notices.getLast? with
    | none =>
        rw [latest] at told_eq
        rw [← told_eq]
        rfl
    | some notice =>
        rw [latest, Option.getD_some] at told_eq
        have positive := increasing.1 notice (List.mem_of_getLast? latest)
        rw [← told_eq, if_pos positive]

/-- Two edits under guards that overlap are told in one notice. -/
example : ((ofText "a").run [.suppress, .edit (.replaceAll "b"), .suppress, .drop 0, .edit .undo,
    .edit .undo, .drop 1, .edit .redo]).buffer.notices = [2, 3] := by decide

end Guarded

end PageDesigner
