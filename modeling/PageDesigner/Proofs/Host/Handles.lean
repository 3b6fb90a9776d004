import Mathlib.Data.List.Induction
import PageDesigner.Host.Transaction

/-!
# Transactions and their handles

A ledger keeps every handle that was given for a transaction, in the order of opening,
beside the stack of open transactions.  The frames on the stack are those of the handles
that were not closed, in this order (`Ledger.Kept`).  They are those of the handles that are
still there as long as no handle is dropped inside whose transaction another one is open:
such a transaction cannot be rolled back, and no handle is left that could close it
(`Ledger.accounts_run`).
-/

namespace PageDesigner

/-- The frame of the transaction that a handle stands for. -/
def Transaction.frame (handle : Transaction) : TransactionFrame := ⟨handle.id, handle.description⟩

/-- A handle that was given for a transaction, and whether it was dropped. -/
structure GivenHandle where
  handle : Transaction
  isDropped : Bool
  deriving DecidableEq, Repr

namespace GivenHandle

/-- Whether the transaction was not closed, not even when the handle was dropped. -/
def isUnclosed (given : GivenHandle) : Bool := !given.handle.isClosed

/-- Whether the handle is neither closed nor dropped. -/
def isLive (given : GivenHandle) : Bool := given.isUnclosed && !given.isDropped

theorem isUnclosed_iff {given : GivenHandle} :
    given.isUnclosed = true ↔ given.handle.isClosed = false := Bool.not_eq_true' _ ▸ Iff.rfl

end GivenHandle

/-- What is done with transactions; a handle goes by its number in the order of opening. -/
inductive TransactionStep where
  | start (description : Text)
  | close (number : Nat) (commit : Bool)
  | drop (number : Nat)
  deriving DecidableEq, Repr

/--
The open transactions with every handle that was given, in the order of opening, and all that
was told.
-/
structure Ledger where
  stack : TransactionStack
  handles : List GivenHandle
  told : List TransactionEvent
  deriving DecidableEq, Repr

namespace Ledger

/-- No transaction was ever opened. -/
def empty : Ledger := ⟨.empty, [], []⟩

/-- The handle with a number, unless it was dropped. -/
def handle? (ledger : Ledger) (number : Nat) : Option Transaction :=
  (ledger.handles[number]?).bind fun given => if given.isDropped then none else some given.handle

/-- The handle as it is dropped: closed if its transaction could be rolled back. -/
def left (stack : TransactionStack) (handle : Transaction) : Transaction :=
  match stack.close handle false with
  | .ok (handle, _) => handle
  | .error _ => handle

/-- Open, close or drop; nothing happens to a handle that is not there. -/
def step (ledger : Ledger) : TransactionStep → Ledger
  | .start description =>
      let (handle, stack, events) := ledger.stack.push description
      ⟨stack, ledger.handles ++ [⟨handle, false⟩], ledger.told ++ events⟩
  | .close number commit =>
      match ledger.handle? number with
      | none => ledger
      | some handle =>
          match ledger.stack.close handle commit with
          | .error _ => ledger
          | .ok (handle, stack, events) =>
              ⟨stack, ledger.handles.set number ⟨handle, false⟩, ledger.told ++ events⟩
  | .drop number =>
      match ledger.handle? number with
      | none => ledger
      | some handle =>
          let (stack, events) := ledger.stack.drop handle
          ⟨stack, ledger.handles.set number ⟨left ledger.stack handle, true⟩,
            ledger.told ++ events⟩

/-- Take steps one after the other, from no transaction. -/
def run (steps : List TransactionStep) : Ledger := steps.foldl step empty

/-- The frames of those handles that count, in the order of opening. -/
def framesOf (counts : GivenHandle → Bool) (handles : List GivenHandle) : List TransactionFrame :=
  (handles.filter counts).map fun given => given.handle.frame

/-- The open transactions are those of the handles that are neither closed nor dropped. -/
def Lawful (ledger : Ledger) : Prop :=
  ledger.stack.frames.reverse = framesOf GivenHandle.isLive ledger.handles

instance (ledger : Ledger) : Decidable ledger.Lawful := inferInstanceAs (Decidable (_ = _))

/-- Whether a live handle stands for a transaction inside which another one is open. -/
def strands (ledger : Ledger) (number : Nat) : Bool :=
  (ledger.handle? number).any (fun handle => !handle.isClosed) &&
    (ledger.handles.drop (number + 1)).any GivenHandle.isUnclosed

theorem run_snoc (former : List TransactionStep) (next : TransactionStep) :
    run (former ++ [next]) = (run former).step next := by
  unfold run
  rw [List.foldl_append]
  rfl

theorem run_append (former latter : List TransactionStep) :
    run (former ++ latter) = latter.foldl step (run former) := List.foldl_append

/-! ## Handles among the others -/

section Among

variable {counts : GivenHandle → Bool} {given : GivenHandle} {former latter : List GivenHandle}

theorem framesOf_append (former latter : List GivenHandle) :
    framesOf counts (former ++ latter) = framesOf counts former ++ framesOf counts latter := by
  unfold framesOf
  rw [List.filter_append, List.map_append]

theorem framesOf_cons_of_pos (counted : counts given = true) (latter : List GivenHandle) :
    framesOf counts (given :: latter) = given.handle.frame :: framesOf counts latter := by
  unfold framesOf
  rw [List.filter_cons_of_pos counted, List.map_cons]

theorem framesOf_cons_of_neg (uncounted : counts given = false) (latter : List GivenHandle) :
    framesOf counts (given :: latter) = framesOf counts latter := by
  unfold framesOf
  rw [List.filter_cons_of_neg (by rw [uncounted]; exact Bool.false_ne_true)]

theorem framesOf_eq_nil (handles : List GivenHandle) :
    framesOf counts handles = [] ↔ handles.any counts = false := by
  unfold framesOf
  rw [List.map_eq_nil_iff, List.filter_eq_nil_iff, List.any_eq_false]

theorem mem_framesOf {frame : TransactionFrame} {handles : List GivenHandle}
    (counted : frame ∈ framesOf counts handles) :
    ∃ given ∈ handles, given.handle.frame = frame := by
  obtain ⟨given, among, same⟩ := List.mem_map.mp counted
  exact ⟨given, (List.mem_filter.mp among).1, same⟩

/-- Where a handle stands among the others. -/
theorem parted_of_getElem? {handles : List GivenHandle} {number : Nat}
    (here : handles[number]? = some given) :
    handles = handles.take number ++ given :: handles.drop (number + 1) ∧
      (handles.take number).length = number := by
  obtain ⟨within, rfl⟩ := List.getElem?_eq_some_iff.mp here
  refine ⟨?_, List.length_take_of_le (Nat.le_of_lt within)⟩
  rw [List.getElem_cons_drop, List.take_append_drop]

theorem handle?_eq_some {ledger : Ledger} {number : Nat} {handle : Transaction}
    (there : ledger.handle? number = some handle) :
    ledger.handles[number]? = some ⟨handle, false⟩ := by
  obtain ⟨⟨handle', isDropped⟩, here, same⟩ := Option.bind_eq_some_iff.mp there
  cases isDropped with
  | false =>
      obtain rfl := Option.some.inj same
      exact here
  | true => cases same

end Among

/-! ## What every step keeps -/

/--
Every handle goes by its number, and the open transactions are those of the handles that were
not closed.
-/
structure Kept (ledger : Ledger) : Prop where
  nextId_eq : ledger.stack.nextId = ledger.handles.length
  id_eq : ∀ (number : Nat) (given : GivenHandle), ledger.handles[number]? = some given →
    given.handle.id = number
  frames_eq : ledger.stack.frames.reverse = framesOf GivenHandle.isUnclosed ledger.handles

theorem kept_empty : empty.Kept := ⟨rfl, nofun, rfl⟩

section Kept

variable {ledger : Ledger} {number : Nat} {given : GivenHandle}

/-- The transactions that were opened later have greater ids. -/
theorem Kept.id_lt (kept : ledger.Kept) {other : GivenHandle}
    (later : other ∈ ledger.handles.drop (number + 1)) : number < other.handle.id := by
  obtain ⟨distance, here⟩ := List.getElem?_of_mem later
  rw [List.getElem?_drop] at here
  have id_eq := kept.id_eq _ _ here
  omega

/-- The open transactions around and inside the one of an open handle. -/
theorem Kept.frames_parted (kept : ledger.Kept) (here : ledger.handles[number]? = some given)
    (unclosed : given.isUnclosed = true) :
    ledger.stack.frames.reverse =
      framesOf GivenHandle.isUnclosed (ledger.handles.take number) ++ (given.handle.frame ::
        framesOf GivenHandle.isUnclosed (ledger.handles.drop (number + 1))) := by
  rw [kept.frames_eq, ← framesOf_cons_of_pos unclosed, ← framesOf_append,
    ← (parted_of_getElem? here).1]

/-- An open handle closes its transaction if none that was opened later is still open. -/
theorem Kept.close_of_innermost (kept : ledger.Kept)
    (here : ledger.handles[number]? = some given) (unclosed : given.isUnclosed = true)
    (innermost : (ledger.handles.drop (number + 1)).any GivenHandle.isUnclosed = false)
    (commit : Bool) :
    ledger.stack.close given.handle commit = .ok ({ given.handle with isClosed := true },
      { ledger.stack with
        frames := (framesOf GivenHandle.isUnclosed (ledger.handles.take number)).reverse },
      [.closing given.handle.description commit, .closed given.handle.description commit]) := by
  have frames := kept.frames_parted here unclosed
  rw [(framesOf_eq_nil _).mpr innermost, List.reverse_eq_iff,
    List.reverse_append, List.reverse_singleton, List.singleton_append] at frames
  unfold TransactionStack.close
  rw [frames, if_neg (by rw [GivenHandle.isUnclosed_iff.mp unclosed]; exact Bool.false_ne_true)]
  exact if_pos rfl

/-- A transaction is not closed while one that was opened later is still open. -/
theorem Kept.close_of_inner (kept : ledger.Kept)
    (here : ledger.handles[number]? = some given)
    (inner : (ledger.handles.drop (number + 1)).any GivenHandle.isUnclosed = true)
    (commit : Bool) : ∃ problem, ledger.stack.close given.handle commit = .error problem := by
  unfold TransactionStack.close
  split
  · exact ⟨_, rfl⟩
  next notClosed =>
    have unclosed : given.isUnclosed = true :=
      GivenHandle.isUnclosed_iff.mpr (Bool.eq_false_iff.mpr notClosed)
    have frames := kept.frames_parted here unclosed
    obtain opened | ⟨others, last, opened⟩ :=
      List.eq_nil_or_concat (framesOf GivenHandle.isUnclosed (ledger.handles.drop (number + 1)))
    · rw [framesOf_eq_nil, inner] at opened
      cases opened
    · rw [List.concat_eq_append] at opened
      obtain ⟨other, later, same⟩ := mem_framesOf (opened ▸ List.mem_append_right others
        (List.mem_singleton_self last))
      have greater := kept.id_lt later
      rw [opened, List.reverse_eq_iff] at frames
      simp only [List.reverse_append, List.reverse_cons, List.reverse_nil, List.nil_append,
        List.cons_append, List.append_assoc] at frames
      rw [frames, ← same]
      dsimp only
      rw [if_neg (by
        rw [kept.id_eq _ _ here]
        exact Nat.ne_of_gt greater)]
      exact ⟨_, rfl⟩

/-- A closed handle closes nothing. -/
theorem close_of_closed {stack : TransactionStack} {handle : Transaction}
    (closed : handle.isClosed = true) (commit : Bool) :
    stack.close handle commit = .error (.transactionClosed handle.description) := by
  unfold TransactionStack.close
  exact if_pos closed

/--
A handle in the place of another one for the same transaction: it is closed only if the
transaction is no longer open.
-/
structure Replaces (ledger ledger' : Ledger) (number : Nat) (given given' : GivenHandle) : Prop
    where
  here : ledger.handles[number]? = some given
  handles_eq : ledger'.handles = ledger.handles.set number given'
  id_eq : given'.handle.id = given.handle.id
  nextId_eq : ledger'.stack.nextId = ledger.stack.nextId
  frames_eq : ledger'.stack.frames.reverse = framesOf GivenHandle.isUnclosed ledger'.handles

theorem kept_of_replaces {ledger ledger' : Ledger} {given' : GivenHandle} (kept : ledger.Kept)
    (replaces : Replaces ledger ledger' number given given') : ledger'.Kept := by
  refine ⟨?_, ?_, replaces.frames_eq⟩
  · rw [replaces.nextId_eq, replaces.handles_eq, List.length_set, kept.nextId_eq]
  · intro place other there
    rw [replaces.handles_eq] at there
    by_cases same : number = place
    · subst same
      rw [List.getElem?_set_self (List.getElem?_eq_some_iff.mp replaces.here).1] at there
      rw [← Option.some.inj there, replaces.id_eq]
      exact kept.id_eq _ _ replaces.here
    · rw [List.getElem?_set_ne same] at there
      exact kept.id_eq _ _ there

variable {handle : Transaction} {given' : GivenHandle}

theorem framesOf_set {handles : List GivenHandle} (here : handles[number]? = some given) :
    framesOf GivenHandle.isUnclosed (handles.set number given') =
      framesOf GivenHandle.isUnclosed (handles.take number) ++
        framesOf GivenHandle.isUnclosed (given' :: handles.drop (number + 1)) := by
  rw [List.set_eq_take_append_cons_drop, if_pos (List.getElem?_eq_some_iff.mp here).1,
    framesOf_append]

/-- A handle that stays as it is, or is only marked, stands for the same frame. -/
theorem framesOf_set_of_eq {handles : List GivenHandle} (here : handles[number]? = some given)
    (same : given'.handle = given.handle) :
    framesOf GivenHandle.isUnclosed (handles.set number given') =
      framesOf GivenHandle.isUnclosed handles := by
  conv_rhs => rw [(parted_of_getElem? here).1, framesOf_append]
  rw [framesOf_set here]
  unfold framesOf
  have alike : given'.isUnclosed = given.isUnclosed := by
    unfold GivenHandle.isUnclosed
    rw [same]
  rw [List.filter_cons, List.filter_cons, alike]
  split
  · rw [List.map_cons, List.map_cons, same]
  · rfl

/-- Closing the innermost transaction leaves those around it. -/
theorem framesOf_set_closed {handles : List GivenHandle} (here : handles[number]? = some given)
    (closed : given'.isUnclosed = false)
    (innermost : (handles.drop (number + 1)).any GivenHandle.isUnclosed = false) :
    framesOf GivenHandle.isUnclosed (handles.set number given') =
      framesOf GivenHandle.isUnclosed (handles.take number) := by
  rw [framesOf_set here, framesOf_cons_of_neg closed, (framesOf_eq_nil _).mpr innermost,
    List.append_nil]

/-- A handle closes its own transaction, or nothing changes. -/
theorem Kept.step_close (kept : ledger.Kept) (number : Nat) (commit : Bool) :
    ledger.step (.close number commit) = ledger ∨ ∃ handle handle',
      Replaces ledger (ledger.step (.close number commit)) number ⟨handle, false⟩
        ⟨handle', false⟩ := by
  unfold step
  dsimp only
  split
  · exact .inl rfl
  next handle there =>
    have here := handle?_eq_some there
    cases closed : handle.isClosed with
    | true =>
        rw [close_of_closed closed]
        exact .inl rfl
    | false =>
        cases inner : (ledger.handles.drop (number + 1)).any GivenHandle.isUnclosed with
        | true =>
            obtain ⟨problem, refused⟩ := kept.close_of_inner here inner commit
            rw [refused]
            exact .inl rfl
        | false =>
            rw [kept.close_of_innermost here (GivenHandle.isUnclosed_iff.mpr closed) inner]
            refine .inr ⟨handle, _, here, rfl, rfl, rfl, ?_⟩
            rw [framesOf_set_closed here rfl inner]
            exact List.reverse_reverse _

theorem strands_of_handle? (there : ledger.handle? number = some handle) :
    ledger.strands number =
      (!handle.isClosed && (ledger.handles.drop (number + 1)).any GivenHandle.isUnclosed) := by
  unfold strands
  rw [there]
  rfl

theorem step_drop_of_ok (there : ledger.handle? number = some handle) {handle' : Transaction}
    {stack : TransactionStack} {events : List TransactionEvent}
    (closed : ledger.stack.close handle false = .ok (handle', stack, events)) :
    ledger.step (.drop number) =
      ⟨stack, ledger.handles.set number ⟨handle', true⟩, ledger.told ++ events⟩ := by
  unfold step TransactionStack.drop left
  dsimp only
  rw [there]
  dsimp only
  rw [closed]

theorem step_drop_of_error (there : ledger.handle? number = some handle) {problem : DesignError}
    (refused : ledger.stack.close handle false = .error problem) :
    ledger.step (.drop number) =
      ⟨ledger.stack, ledger.handles.set number ⟨handle, true⟩, ledger.told ++ []⟩ := by
  unfold step TransactionStack.drop left
  dsimp only
  rw [there]
  dsimp only
  rw [refused]

/-- A dropped handle leaves its transaction open exactly if another one is open inside. -/
theorem Kept.step_drop (kept : ledger.Kept) (there : ledger.handle? number = some handle) :
    ∃ handle', handle'.isClosed = !ledger.strands number ∧
      Replaces ledger (ledger.step (.drop number)) number ⟨handle, false⟩ ⟨handle', true⟩ := by
  have here := handle?_eq_some there
  have refusal : ∀ problem, ledger.stack.close handle false = .error problem →
      Replaces ledger (ledger.step (.drop number)) number ⟨handle, false⟩ ⟨handle, true⟩ := by
    intro problem refused
    rw [step_drop_of_error there refused]
    have marked := @framesOf_set_of_eq number _ ⟨handle, true⟩ _ here rfl
    exact ⟨here, rfl, rfl, rfl, kept.frames_eq.trans marked.symm⟩
  rw [strands_of_handle? there]
  cases closed : handle.isClosed with
  | true => exact ⟨handle, closed, refusal _ (close_of_closed closed false)⟩
  | false =>
      cases inner : (ledger.handles.drop (number + 1)).any GivenHandle.isUnclosed with
      | true =>
          obtain ⟨problem, refused⟩ := kept.close_of_inner here inner false
          exact ⟨handle, closed, refusal problem refused⟩
      | false =>
          have closing := kept.close_of_innermost here (GivenHandle.isUnclosed_iff.mpr closed)
            inner false
          refine ⟨{ handle with isClosed := true }, rfl, ?_⟩
          rw [step_drop_of_ok there closing]
          refine ⟨here, rfl, rfl, rfl, ?_⟩
          rw [framesOf_set_closed here rfl inner]
          exact List.reverse_reverse _

theorem step_of_handle?_eq_none (missing : ledger.handle? number = none) :
    ledger.step (.drop number) = ledger := by
  unfold step
  dsimp only
  rw [missing]

theorem step_start (ledger : Ledger) (description : Text) :
    ledger.step (.start description) =
      ⟨⟨⟨ledger.stack.nextId, description⟩ :: ledger.stack.frames, ledger.stack.nextId + 1⟩,
        ledger.handles ++ [⟨⟨ledger.stack.nextId, description, false⟩, false⟩],
        ledger.told ++ [.opening description, .opened description]⟩ := rfl

theorem Kept.step_start (kept : ledger.Kept) (description : Text) :
    (ledger.step (.start description)).Kept := by
  rw [Ledger.step_start]
  refine ⟨?_, ?_, ?_⟩
  · rw [List.length_append, ← kept.nextId_eq]
    rfl
  · intro number given here
    rw [List.getElem?_append] at here
    split at here
    · exact kept.id_eq _ _ here
    next beyond =>
      obtain ⟨first, rfl⟩ := List.getElem?_eq_some_iff.mp here
      rw [List.length_singleton] at first
      rw [List.getElem_singleton]
      exact kept.nextId_eq.trans (by omega)
  · rw [framesOf_append, framesOf_cons_of_pos rfl, List.reverse_cons, kept.frames_eq]
    rfl

/-- Every step keeps the handles in order with the open transactions. -/
theorem kept_step (kept : ledger.Kept) (next : TransactionStep) : (ledger.step next).Kept := by
  cases next with
  | start description => exact kept.step_start description
  | close number commit =>
      obtain same | ⟨handle, handle', replaces⟩ := kept.step_close number commit
      · rw [same]
        exact kept
      · exact kept_of_replaces kept replaces
  | drop number =>
      cases there : ledger.handle? number with
      | none =>
          rw [step_of_handle?_eq_none there]
          exact kept
      | some handle =>
          obtain ⟨handle', -, replaces⟩ := kept.step_drop there
          exact kept_of_replaces kept replaces

end Kept

theorem kept_run (steps : List TransactionStep) : (run steps).Kept := by
  induction steps using List.reverseRecOn with
  | nil => exact kept_empty
  | append_singleton former next ih =>
      rw [run_snoc]
      exact kept_step ih next

/-! ## When the open transactions are those of the live handles -/

section Lawful

variable {ledger ledger' : Ledger} {number : Nat} {given given' : GivenHandle}

/-- Only a handle that was dropped can be missing from those that are not closed. -/
theorem Kept.lawful_iff (kept : ledger.Kept) :
    ledger.Lawful ↔
      ∀ given ∈ ledger.handles, given.isUnclosed = true → given.isDropped = false := by
  have live : framesOf GivenHandle.isLive ledger.handles =
      ((ledger.handles.filter GivenHandle.isUnclosed).filter fun given => !given.isDropped).map
        fun given => given.handle.frame := by
    unfold framesOf GivenHandle.isLive
    rw [List.filter_filter]
    simp only [Bool.and_comm]
  unfold Lawful
  rw [kept.frames_eq, live]
  unfold framesOf
  constructor
  · intro same given among unclosed
    have lengths := congrArg List.length same
    rw [List.length_map, List.length_map] at lengths
    have counted := List.length_filter_eq_length_iff.mp lengths.symm given
      (List.mem_filter.mpr ⟨among, unclosed⟩)
    exact Bool.not_eq_true' _ ▸ counted
  · intro undropped
    congr 1
    refine (List.filter_eq_self.mpr fun given among => ?_).symm
    obtain ⟨among, unclosed⟩ := List.mem_filter.mp among
    rw [undropped given among unclosed]
    rfl

theorem lawful_of_replaces (kept : ledger.Kept)
    (replaces : Replaces ledger ledger' number given given')
    (undropped : given.isDropped = false) :
    ledger'.Lawful ↔ ledger.Lawful ∧ (given'.isUnclosed = true → given'.isDropped = false) := by
  have within := (List.getElem?_eq_some_iff.mp replaces.here).1
  rw [kept.lawful_iff, (kept_of_replaces kept replaces).lawful_iff, replaces.handles_eq]
  constructor
  · intro lawful
    refine ⟨fun other among => ?_, lawful given' (List.mem_set within given')⟩
    obtain ⟨place, there⟩ := List.getElem?_of_mem among
    by_cases same : number = place
    · subst same
      obtain rfl := Option.some.inj (replaces.here.symm.trans there)
      exact fun _ => undropped
    · rw [← List.getElem?_set_ne same] at there
      exact lawful other (List.mem_of_getElem? there)
  · rintro ⟨lawful, replaced⟩ other among
    obtain among | rfl := List.mem_or_eq_of_mem_set among
    · exact lawful other among
    · exact replaced

/-- A step strands a transaction exactly if it drops a handle with another one open inside. -/
theorem lawful_step (kept : ledger.Kept) (next : TransactionStep) :
    (ledger.step next).Lawful ↔
      ledger.Lawful ∧ ∀ number, next = .drop number → ledger.strands number = false := by
  cases next with
  | start description =>
      rw [(kept.step_start description).lawful_iff, kept.lawful_iff, Ledger.step_start]
      constructor
      · exact fun lawful =>
          ⟨fun given among => lawful given (List.mem_append_left _ among), nofun⟩
      · rintro ⟨lawful, -⟩ given among
        obtain among | latest := List.mem_append.mp among
        · exact lawful given among
        · rw [List.mem_singleton.mp latest]
          exact fun _ => rfl
  | close number commit =>
      obtain same | ⟨handle, handle', replaces⟩ := kept.step_close number commit
      · rw [same]
        exact (and_iff_left nofun).symm
      · rw [lawful_of_replaces kept replaces rfl]
        exact and_congr_right fun _ => ⟨nofun, fun _ _ => rfl⟩
  | drop number =>
      have only : (∀ number', TransactionStep.drop number = .drop number' →
          ledger.strands number' = false) ↔ ledger.strands number = false :=
        ⟨fun every => every number rfl, by
          rintro unstranded _ ⟨⟩
          exact unstranded⟩
      rw [only]
      cases there : ledger.handle? number with
      | none =>
          rw [step_of_handle?_eq_none there]
          unfold strands
          rw [there]
          exact (and_iff_left rfl).symm
      | some handle =>
          obtain ⟨handle', closed, replaces⟩ := kept.step_drop there
          rw [lawful_of_replaces kept replaces rfl]
          refine and_congr_right fun _ => ?_
          unfold GivenHandle.isUnclosed
          rw [closed, Bool.not_not]
          cases ledger.strands number <;> simp

end Lawful

/-! ## Whole runs -/

/-- What the handles tell about the open transactions after a run of steps. -/
structure Accounts (steps : List TransactionStep) : Prop where
  /-- The open transactions are those that were not closed, in the order of opening. -/
  frames_eq : (run steps).stack.frames.reverse =
    framesOf GivenHandle.isUnclosed (run steps).handles
  /-- They are those of the live handles exactly if no drop stranded one. -/
  lawful_iff : (run steps).Lawful ↔ ∀ former number, former ++ [.drop number] <+: steps →
    (run former).strands number = false
  /-- If they are and no handle is live then none is open, and the next one is outermost. -/
  next_is_outermost : (run steps).Lawful → (∀ given ∈ (run steps).handles, given.isLive = false) →
    (run steps).stack.isOpen = false ∧ ∀ description,
      (run (steps ++ [.start description])).stack.frames =
          [⟨(run steps).stack.nextId, description⟩] ∧
        (run (steps ++ [.start description,
          .close (run steps).handles.length true])).stack.isOpen = false
  /-- A transaction that was stranded stays open, whatever is done. -/
  stays_open : ¬(run steps).Lawful → ∀ more, (run (steps ++ more)).stack.isOpen = true

theorem lawful_run_iff (steps : List TransactionStep) :
    (run steps).Lawful ↔ ∀ former number, former ++ [.drop number] <+: steps →
      (run former).strands number = false := by
  induction steps using List.reverseRecOn with
  | nil =>
      refine ⟨fun _ former number begins => ?_, fun _ => rfl⟩
      exact absurd (List.prefix_nil.mp begins) (List.append_ne_nil_of_right_ne_nil _ nofun)
  | append_singleton steps next ih =>
      rw [run_snoc, lawful_step (kept_run steps), ih]
      simp only [List.prefix_concat_iff, or_imp, forall_and]
      rw [and_comm]
      refine and_congr_left fun _ => ⟨?_, ?_⟩
      · intro unstranded former number same
        obtain ⟨rfl, latest⟩ := List.append_inj' same rfl
        exact unstranded number (List.singleton_inj.mp latest).symm
      · rintro unstranded number rfl
        exact unstranded steps number rfl

/-- After a lawful run no transaction is open once no handle is live. -/
theorem frames_eq_nil {ledger : Ledger} (lawful : ledger.Lawful)
    (none : ∀ given ∈ ledger.handles, given.isLive = false) : ledger.stack.frames = [] := by
  unfold Lawful at lawful
  rw [(framesOf_eq_nil _).mpr (List.any_eq_false.mpr (by simpa using none))] at lawful
  exact List.reverse_eq_nil_iff.mp lawful

/-- A transaction that is opened when none is open is outermost, and closes as such. -/
theorem outermost {ledger : Ledger} (none : ledger.stack.frames = [])
    (description : Text) :
    (ledger.step (.start description)).stack.frames = [⟨ledger.stack.nextId, description⟩] ∧
      ((ledger.step (.start description)).step
        (.close ledger.handles.length true)).stack.isOpen = false := by
  rw [step_start, none]
  refine ⟨rfl, ?_⟩
  unfold step handle?
  dsimp only
  rw [List.getElem?_concat_length]
  unfold TransactionStack.close
  simp [TransactionStack.isOpen]

/-- As long as no transaction is open, none is stranded. -/
theorem Kept.lawful_of_not_isOpen {ledger : Ledger} (kept : ledger.Kept)
    (none : ledger.stack.isOpen = false) : ledger.Lawful := by
  have empty : ledger.stack.frames = [] := by
    unfold TransactionStack.isOpen at none
    simpa using none
  have frames := kept.frames_eq
  rw [empty, List.reverse_nil] at frames
  have closed := List.any_eq_false.mp ((framesOf_eq_nil _).mp frames.symm)
  exact kept.lawful_iff.mpr fun given among unclosed => absurd unclosed (closed given among)

theorem accounts_run (steps : List TransactionStep) : Accounts steps := by
  refine ⟨(kept_run steps).frames_eq, lawful_run_iff steps, ?_, ?_⟩
  · intro lawful none
    have empty := frames_eq_nil lawful none
    refine ⟨?_, fun description => ?_⟩
    · unfold TransactionStack.isOpen
      rw [empty]
      rfl
    · rw [run_append, run_append]
      exact outermost empty description
  · intro unlawful more
    refine Bool.of_not_eq_false fun none => unlawful ?_
    have lawful := (kept_run (steps ++ more)).lawful_of_not_isOpen none
    rw [lawful_run_iff] at lawful ⊢
    exact fun former number begins =>
      lawful former number (begins.trans (List.prefix_append steps more))

/-- An outer handle is dropped, then the inner one closed: no handle is left for the frame. -/
example : (run [.start "outer", .start "inner", .drop 0, .close 1 true]).stack.frames =
    [⟨0, "outer"⟩] := by decide

end Ledger

end PageDesigner
