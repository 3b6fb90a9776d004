import PageDesigner.Proofs.Host.Handles

/-!
# Transactions that nest

What is told of transactions is properly nested if each one is opened and closed once, with its
own description, and those opened inside are closed inside (`TransactionEvent.Nested`).  Of a
sequence that is not complete, the transactions that are still open are known
(`TransactionEvent.Pending`): closing them, innermost first, makes it properly nested.

Whoever follows the events has the stack of open transactions (`TransactionStack.replay`).  A
ledger keeps up with what is told of it through every step (`Ledger.Bracketed`), as each handle
has the description of the transaction that it stands for.
-/

namespace PageDesigner

namespace TransactionEvent

/-- What is told when a transaction is opened. -/
def openings (description : Text) : List TransactionEvent :=
  [.opening description, .opened description]

/-- What is told when a transaction is closed. -/
def closings (description : Text) (commit : Bool) : List TransactionEvent :=
  [.closing description commit, .closed description commit]

/-- Every transaction is opened and then closed, and what is told in between is nested. -/
inductive Nested : List TransactionEvent → Prop
  | nil : Nested []
  | pair (description : Text) (commit : Bool) {inner rest : List TransactionEvent} :
      Nested inner → Nested rest →
      Nested (openings description ++ inner ++ closings description commit ++ rest)

/-- The transactions that are still open behind some events, innermost first. -/
inductive Pending : List TransactionEvent → List Text → Prop
  | outside {events : List TransactionEvent} : Nested events → Pending events []
  | inside (description : Text) {events inner : List TransactionEvent} {others : List Text} :
      Pending events others → Nested inner →
      Pending (events ++ (openings description ++ inner)) (description :: others)

variable {events more : List TransactionEvent} {others : List Text}

theorem Nested.append (nested : Nested events) (behind : Nested more) : Nested (events ++ more) := by
  induction nested with
  | nil => exact behind
  | pair description commit within _ _ ih =>
      rw [List.append_assoc]
      exact .pair description commit within ih

/-- A transaction with others in it. -/
theorem Nested.wrap (nested : Nested events) (description : Text) (commit : Bool) :
    Nested (openings description ++ events ++ closings description commit) := by
  have wrapped := Nested.pair description commit nested .nil
  rw [List.append_nil] at wrapped
  exact wrapped

theorem Pending.append (pending : Pending events others) (nested : Nested more) :
    Pending (events ++ more) others := by
  cases pending with
  | outside former => exact .outside (former.append nested)
  | inside description around former =>
      rw [List.append_assoc, List.append_assoc]
      exact .inside description around (former.append nested)

theorem Pending.push (pending : Pending events others) (description : Text) :
    Pending (events ++ openings description) (description :: others) :=
  .inside description pending .nil

theorem Pending.pop {description : Text} (pending : Pending events (description :: others))
    (commit : Bool) : Pending (events ++ closings description commit) others := by
  cases pending with
  | inside _ around inner =>
      rw [List.append_assoc]
      exact around.append (inner.wrap description commit)

/-- Closing what is open, innermost first, completes a nested sequence. -/
theorem Pending.complete (pending : Pending events others) (commit : Bool) :
    Nested (events ++ others.flatMap fun description => closings description commit) := by
  induction others generalizing events with
  | nil =>
      cases pending with
      | outside nested =>
          rw [List.flatMap_nil, List.append_nil]
          exact nested
  | cons description others ih =>
      rw [List.flatMap_cons, ← List.append_assoc]
      exact ih (pending.pop commit)

end TransactionEvent

namespace TransactionStack

open TransactionEvent

/-- A stack with an event recorded in it; transactions are numbered in the order of opening. -/
def recorded (stack : TransactionStack) : TransactionEvent → TransactionStack
  | .opened description =>
      ⟨⟨stack.nextId, description⟩ :: stack.frames, stack.nextId + 1⟩
  | .closed _ _ => { stack with frames := stack.frames.tail }
  | _ => stack

/-- The stack of those who have followed all events: what was opened and not closed. -/
def replay (events : List TransactionEvent) : TransactionStack := events.foldl recorded .empty

variable {stack : TransactionStack} {log : List TransactionEvent} {handle : Transaction}

theorem replay_append (former latter : List TransactionEvent) :
    replay (former ++ latter) = latter.foldl recorded (replay former) := List.foldl_append

/-- A stack keeps up with what is told of its transactions. -/
structure Bracketed (stack : TransactionStack) (log : List TransactionEvent) : Prop where
  replay_eq : replay log = stack
  pending : Pending log (stack.frames.map (·.description))
  id_lt : ∀ frame ∈ stack.frames, frame.id < stack.nextId

/-- A handle that was given for a transaction has the description of its frame. -/
structure Genuine (stack : TransactionStack) (handle : Transaction) : Prop where
  id_lt : handle.id < stack.nextId
  description_eq : ∀ frame ∈ stack.frames, frame.id = handle.id →
    frame.description = handle.description

theorem bracketed_empty : empty.Bracketed [] := ⟨rfl, .outside .nil, nofun⟩

theorem Bracketed.push (bracketed : stack.Bracketed log) (description : Text) :
    (stack.push description).2.1.Bracketed (log ++ openings description) where
  replay_eq := by
    rw [replay_append, bracketed.replay_eq]
    rfl
  pending := bracketed.pending.push description
  id_lt := by
    intro frame among
    obtain rfl | before := List.mem_cons.mp among
    · exact Nat.lt_succ_self _
    · exact Nat.lt_succ_of_lt (bracketed.id_lt frame before)

theorem Bracketed.pop {top : TransactionFrame} {rest : List TransactionFrame} {nextId : Nat}
    (bracketed : Bracketed ⟨top :: rest, nextId⟩ log) (commit : Bool) :
    Bracketed ⟨rest, nextId⟩ (log ++ closings top.description commit) where
  replay_eq := by
    rw [replay_append, bracketed.replay_eq]
    rfl
  pending := bracketed.pending.pop commit
  id_lt := fun frame among => bracketed.id_lt frame (List.mem_cons_of_mem top among)

/-- The handle of the transaction that was just opened. -/
theorem Bracketed.genuine_push (bracketed : stack.Bracketed log) (description : Text) :
    (stack.push description).2.1.Genuine (stack.push description).1 where
  id_lt := Nat.lt_succ_self _
  description_eq := by
    intro frame among same
    obtain rfl | before := List.mem_cons.mp among
    · rfl
    · exact absurd same (Nat.ne_of_lt (bracketed.id_lt frame before))

/-- A handle stays genuine as long as only later transactions are opened. -/
theorem Genuine.later (genuine : stack.Genuine handle) {after : TransactionStack}
    (nextId_le : stack.nextId ≤ after.nextId)
    (known : ∀ frame ∈ after.frames, frame ∈ stack.frames ∨ stack.nextId ≤ frame.id) :
    after.Genuine handle where
  id_lt := Nat.lt_of_lt_of_le genuine.id_lt nextId_le
  description_eq := by
    intro frame among same
    obtain before | new := known frame among
    · exact genuine.description_eq frame before same
    · have id_lt := genuine.id_lt
      omega

/-- What closing does: the innermost transaction is closed, or nothing happens. -/
theorem close_cases (stack : TransactionStack) (handle : Transaction) (commit : Bool) :
    (∃ problem, stack.close handle commit = .error problem) ∨
      ∃ top rest, stack.frames = top :: rest ∧ top.id = handle.id ∧
        stack.close handle commit = .ok ({ handle with isClosed := true },
          { stack with frames := rest }, closings handle.description commit) := by
  unfold close
  split
  · exact .inl ⟨_, rfl⟩
  · cases frames : stack.frames with
    | nil => exact .inl ⟨_, rfl⟩
    | cons top rest =>
        dsimp only
        by_cases same : top.id = handle.id
        · rw [if_pos same]
          exact .inr ⟨top, rest, rfl, same, rfl⟩
        · rw [if_neg same]
          exact .inl ⟨_, rfl⟩

/-- Closing with a genuine handle tells the description of the transaction. -/
theorem Bracketed.close (bracketed : stack.Bracketed log) (genuine : stack.Genuine handle)
    {commit : Bool} {handle' : Transaction} {after : TransactionStack}
    {events : List TransactionEvent}
    (closes : stack.close handle commit = .ok (handle', after, events)) :
    after.Bracketed (log ++ events) ∧ handle'.id = handle.id ∧
      handle'.description = handle.description ∧ after.nextId = stack.nextId ∧
      ∀ frame ∈ after.frames, frame ∈ stack.frames := by
  obtain ⟨problem, refused⟩ | ⟨top, rest, frames, same, closed⟩ := stack.close_cases handle commit
  · rw [refused] at closes
    cases closes
  · rw [closed] at closes
    obtain ⟨rfl, rfl, rfl⟩ : _ ∧ _ ∧ _ := by simpa using closes
    have own := genuine.description_eq top (by rw [frames]; exact List.mem_cons_self) same
    obtain ⟨stackFrames, nextId⟩ := stack
    cases frames
    refine ⟨?_, rfl, rfl, rfl, fun frame among => List.mem_cons_of_mem top among⟩
    rw [← own]
    exact bracketed.pop commit

end TransactionStack

namespace Ledger

open TransactionStack

/-- The stack keeps up with what was told, and every handle is genuine. -/
structure Bracketed (ledger : Ledger) : Prop where
  stack : ledger.stack.Bracketed ledger.told
  genuine : ∀ given ∈ ledger.handles, ledger.stack.Genuine given.handle

variable {ledger : Ledger} {number : Nat} {handle : Transaction}

theorem mem_of_handle? (there : ledger.handle? number = some handle) :
    ⟨handle, false⟩ ∈ ledger.handles := List.mem_of_getElem? (handle?_eq_some there)

/-- A transaction is closed through its handle. -/
theorem Bracketed.closed (bracketed : ledger.Bracketed) (there : ledger.handle? number = some handle)
    {commit : Bool} {handle' : Transaction} {after : TransactionStack}
    {events : List TransactionEvent}
    (closes : ledger.stack.close handle commit = .ok (handle', after, events)) (isDropped : Bool) :
    Bracketed ⟨after, ledger.handles.set number ⟨handle', isDropped⟩, ledger.told ++ events⟩ := by
  have own := bracketed.genuine _ (mem_of_handle? there)
  obtain ⟨kept, id_eq, description_eq, nextId_eq, within⟩ := bracketed.stack.close own closes
  have later : ∀ {other : Transaction}, ledger.stack.Genuine other → after.Genuine other :=
    fun genuine => genuine.later (Nat.le_of_eq nextId_eq.symm)
      fun frame among => .inl (within frame among)
  refine ⟨kept, fun given among => ?_⟩
  obtain other | rfl := List.mem_or_eq_of_mem_set among
  · exact later (bracketed.genuine given other)
  · refine later ⟨?_, ?_⟩
    · rw [id_eq]
      exact own.id_lt
    · rw [id_eq, description_eq]
      exact own.description_eq

/-- A handle that could not close its transaction is only marked. -/
theorem Bracketed.marked (bracketed : ledger.Bracketed)
    (there : ledger.handle? number = some handle) (isDropped : Bool) :
    Bracketed { ledger with handles := ledger.handles.set number ⟨handle, isDropped⟩ } := by
  have own := bracketed.genuine _ (mem_of_handle? there)
  refine ⟨bracketed.stack, fun given among => ?_⟩
  obtain other | rfl := List.mem_or_eq_of_mem_set among
  · exact bracketed.genuine given other
  · exact own

/-- Opening, closing and dropping keep the brackets. -/
theorem Bracketed.step (bracketed : ledger.Bracketed) (next : TransactionStep) :
    (ledger.step next).Bracketed := by
  cases next with
  | start description =>
      rw [step_start]
      refine ⟨bracketed.stack.push description, fun given among => ?_⟩
      obtain before | latest := List.mem_append.mp among
      · refine (bracketed.genuine given before).later (Nat.le_succ _) fun frame open' => ?_
        obtain rfl | former := List.mem_cons.mp open'
        · exact .inr (Nat.le_refl _)
        · exact .inl former
      · rw [List.mem_singleton.mp latest]
        exact bracketed.stack.genuine_push description
  | close number commit =>
      unfold Ledger.step
      dsimp only
      split
      · exact bracketed
      next handle there =>
        split
        · exact bracketed
        next handle' after events closes => exact bracketed.closed there closes false
  | drop number =>
      cases there : ledger.handle? number with
      | none =>
          rw [step_of_handle?_eq_none there]
          exact bracketed
      | some handle =>
          cases closes : ledger.stack.close handle false with
          | ok outcome =>
              obtain ⟨handle', after, events⟩ := outcome
              rw [step_drop_of_ok there closes]
              exact bracketed.closed there closes true
          | error problem =>
              rw [step_drop_of_error there closes, List.append_nil]
              exact bracketed.marked there true

end Ledger

end PageDesigner
