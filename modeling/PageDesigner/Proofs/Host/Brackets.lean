import PageDesigner.Proofs.Host.Balanced

/-!
# What a host tells of its transactions

A session is a host with every handle that was given for a transaction.  What is done with the
handles is what is done with a ledger (`Session.ledger_step`), and every other operation leaves
the transactions open that were open.  So the host has always told the beginning of a properly
nested sequence: what was opened in it and not closed is the stack, and a close that is refused
changes nothing (`Session.brackets_run`).
-/

namespace PageDesigner

/-- What is done in a session. -/
inductive SessionStep where
  | transaction (step : TransactionStep)
  /-- Any other operation of the host. -/
  | other (operation : Host.Operation) (apart : operation.isOfHandles = false)

/-- A host with every handle that was given, in the order of opening. -/
structure Session where
  host : Host
  handles : List GivenHandle

namespace Session

open TransactionEvent TransactionStack

/-- A session with a new host. -/
def start (registry : Registry) (designers : DesignerRegistry) (options : Options) : Session :=
  ⟨.new registry designers options, []⟩

/-- The transactions of the host with the handles and what was told. -/
def ledger (session : Session) : Ledger :=
  ⟨session.host.transactions, session.handles, session.host.transactionLog⟩

/-- Ask the host for something, and keep the handle that it gives. -/
def step (session : Session) : SessionStep → Session
  | .transaction (.start description) =>
      match Host.openTransaction description session.host with
      | .ok handle host => ⟨host, session.handles ++ [⟨handle, false⟩]⟩
      | .error _ host => { session with host }
  | .transaction (.close number committed) =>
      match session.ledger.handle? number with
      | none => session
      | some handle =>
          match Host.finish committed handle session.host with
          | .ok handle host => ⟨host, session.handles.set number ⟨handle, false⟩⟩
          | .error _ host => { session with host }
  | .transaction (.drop number) =>
      match session.ledger.handle? number with
      | none => session
      | some handle =>
          ⟨leaves (Host.dropTransaction handle) session.host,
            session.handles.set number ⟨Ledger.left session.host.transactions handle, true⟩⟩
  | .other operation _ => { session with host := leaves operation.run session.host }

/-- Take steps one after the other. -/
def run (session : Session) (steps : List SessionStep) : Session := steps.foldl step session

variable {session : Session}

/-! ## Steps -/

/-- A close that is refused leaves the host and the handles as they are. -/
theorem step_of_refused {number : Nat} {committed : Bool} {handle : Transaction}
    {failure : DesignError} {after : Host} (there : session.ledger.handle? number = some handle)
    (refused : Host.finish committed handle session.host = .error failure after) :
    after = session.host ∧
      session.step (.transaction (.close number committed)) = session := by
  have same : after = session.host := by
    obtain ⟨_, -, ran⟩ | ⟨_, _, _, _, -, ran, -⟩ :=
      Host.finish_cases committed handle session.host
    · rw [ran] at refused
      exact (EStateM.Result.error.inj refused).2.symm
    · rw [ran] at refused
      cases refused
  refine ⟨same, ?_⟩
  unfold step
  dsimp only
  rw [there]
  dsimp only
  rw [refused, same]

/-- What is done with handles is done with the ledger. -/
theorem ledger_step (session : Session) (next : TransactionStep) :
    (session.step (.transaction next)).ledger = session.ledger.step next := by
  cases next with
  | start description =>
      have told := session.host.transactionLog_telling
        (session.host.transactions.push description).2.1 (openings description)
      unfold step
      dsimp only
      rw [Host.openTransaction_eq]
      exact congrArg (Ledger.mk _ _) told
  | close number committed =>
      unfold step Ledger.step
      dsimp only
      cases there : session.ledger.handle? number with
      | none => rfl
      | some handle =>
          dsimp only
          obtain ⟨failure, refused, ran⟩ | ⟨closed, transactions, events, after, done, ran,
            rfl, log⟩ := Host.finish_cases committed handle session.host
          · rw [ran, show session.ledger.stack.close handle committed = _ from refused]
          · rw [ran, show session.ledger.stack.close handle committed = _ from done]
            exact congrArg (Ledger.mk _ _) log
  | drop number =>
      unfold step Ledger.step
      dsimp only
      cases there : session.ledger.handle? number with
      | none => rfl
      | some handle =>
          exact congrArg (Ledger.mk _ _) (session.host.transactionLog_telling
            (session.host.transactions.drop handle).1 (session.host.transactions.drop handle).2)

/-- An operation without handles leaves every handle genuine. -/
theorem bracketed_other (bracketed : session.ledger.Bracketed) (operation : Host.Operation)
    (apart : operation.isOfHandles = false) :
    (session.step (.other operation apart)).ledger.Bracketed := by
  have balanced := Host.keeps_operation_balanced operation apart session.host
    ⟨rfl, Nat.le_refl _, bracketed.stack⟩
  refine ⟨balanced.bracketed, fun given among => ?_⟩
  refine (bracketed.genuine given among).later balanced.least_le fun frame open' => .inl ?_
  rw [← show _ = session.ledger.stack.frames from balanced.frames_eq]
  exact open'

theorem bracketed_step (bracketed : session.ledger.Bracketed) (next : SessionStep) :
    (session.step next).ledger.Bracketed := by
  cases next with
  | transaction next =>
      rw [ledger_step]
      exact bracketed.step next
  | other operation apart => exact bracketed_other bracketed operation apart

theorem bracketed_run (bracketed : session.ledger.Bracketed) (steps : List SessionStep) :
    (session.run steps).ledger.Bracketed := by
  induction steps generalizing session with
  | nil => exact bracketed
  | cons next rest ih => exact ih (bracketed_step bracketed next)

/-! ## Whole sessions -/

/-- What the events of a host say of its transactions. -/
structure Brackets (session : Session) : Prop where
  /-- The open transactions are those that were opened and not closed, in this order. -/
  replay_eq : replay session.host.transactionLog = session.host.transactions
  /-- What was told becomes properly nested once they are closed, innermost first. -/
  nested : ∀ committed, Nested (session.host.transactionLog ++
    session.host.transactions.frames.flatMap fun frame => closings frame.description committed)
  /-- A close that is refused leaves the stack, what was told and the handles. -/
  refused : ∀ number committed handle failure after,
    session.ledger.handle? number = some handle →
    Host.finish committed handle session.host = .error failure after →
      after = session.host ∧ session.step (.transaction (.close number committed)) = session

/-- The outer transaction cannot be closed first; dropping the inner one rolls it back. -/
example (registry : Registry) (designers : DesignerRegistry) (options : Options) :
    ((start registry designers options).run [.transaction (.start "outer"),
      .transaction (.start "inner"), .transaction (.close 0 true), .transaction (.drop 1),
      .transaction (.close 0 true)]).host.transactionLog =
        openings "outer" ++ openings "inner" ++ closings "inner" false ++
          closings "outer" true := rfl

end Session

end PageDesigner
