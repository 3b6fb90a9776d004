import PageDesigner.DesignError

/-!
# Transactions

A transaction is a named unit of work.  Transactions nest, and only the
innermost open one can be closed.  Whoever opened a transaction holds a handle
to it; a handle that is dropped while its transaction is open rolls it back if
it can.

Opening and closing tell what is about to happen and what has happened.
-/

namespace PageDesigner

/-- What is told about a transaction. -/
inductive TransactionEvent where
  | opening (description : Text)
  | opened (description : Text)
  | closing (description : Text) (commit : Bool)
  | closed (description : Text) (commit : Bool)
  deriving DecidableEq, Repr

/-- An open transaction. -/
structure TransactionFrame where
  id : Nat
  description : Text
  deriving DecidableEq, Repr

/-- The open transactions, innermost first, and the id of the next one. -/
structure TransactionStack where
  frames : List TransactionFrame
  /-- Number of transactions opened so far.  The designer counts in 64 bits, and no run is long
  enough for the count to wrap. -/
  nextId : Nat
  deriving DecidableEq, Repr

/-- The handle to a transaction. -/
structure Transaction where
  id : Nat
  description : Text
  isClosed : Bool
  deriving DecidableEq, Repr

namespace TransactionStack

/-- No transaction was ever opened. -/
def empty : TransactionStack := ⟨[], 0⟩

/-- Whether a transaction is open. -/
def isOpen (stack : TransactionStack) : Bool := !stack.frames.isEmpty

/-- The description of the innermost open transaction. -/
def current? (stack : TransactionStack) : Option Text := stack.frames.head?.map (·.description)

/-- Open a transaction inside those that are open. -/
def push (stack : TransactionStack) (description : Text) :
    Transaction × TransactionStack × List TransactionEvent :=
  (⟨stack.nextId, description, false⟩,
    ⟨⟨stack.nextId, description⟩ :: stack.frames, stack.nextId + 1⟩,
    [.opening description, .opened description])

/-- Close the transaction of a handle, which must be open and the innermost one. -/
def close (stack : TransactionStack) (handle : Transaction) (commit : Bool) :
    Except DesignError (Transaction × TransactionStack × List TransactionEvent) :=
  if handle.isClosed then .error (.transactionClosed handle.description)
  else
    match stack.frames with
    | [] => .error (.transactionOutOfOrder handle.description [])
    | top :: rest =>
        if top.id = handle.id then
          .ok ({ handle with isClosed := true }, { stack with frames := rest },
            [.closing handle.description commit, .closed handle.description commit])
        else .error (.transactionOutOfOrder handle.description top.description)

/-- Drop a handle: a transaction that is still open is rolled back if it can be. -/
def drop (stack : TransactionStack) (handle : Transaction) :
    TransactionStack × List TransactionEvent :=
  match stack.close handle false with
  | .ok (_, stack, events) => (stack, events)
  | .error _ => (stack, [])

end TransactionStack

end PageDesigner
