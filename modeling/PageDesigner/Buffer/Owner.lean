import PageDesigner.Buffer.Basic
import PageDesigner.DesignError

/-!
# The owner of a buffer

One thread owns a buffer and makes all edits.  Another thread hands its edit to
the owner as a job and waits until the job has run, so its edit takes place
behind every job that was queued before.  Once the owner has dropped its queue,
such an edit fails; only an undo or redo with nothing to do still answers.

The gate is closed while an edit takes place, and a reader waits until it opens.
-/

namespace PageDesigner

/-- Work that waits for the owner of a buffer. -/
inductive Job where
  /-- Only makes the owner look again at what it waits for. -/
  | wake
  | edit (edit : Edit)
  deriving DecidableEq, Repr

/-- A buffer with the queue of its owner, until the owner drops the queue. -/
structure OwnedBuffer where
  buffer : Buffer
  jobs? : Option (List Job)
  deriving DecidableEq, Repr

namespace OwnedBuffer

/-- A new buffer with an empty queue. -/
def ofText (text : Text) : OwnedBuffer := ⟨.ofText text, some []⟩

/-- Run one job. -/
def runJob (buffer : Buffer) : Job → Buffer
  | .wake => buffer
  | .edit edit => (buffer.edit edit).2

/-- Queue a job; it is lost when the queue was dropped. -/
def post (owned : OwnedBuffer) (job : Job) : OwnedBuffer :=
  { owned with jobs? := owned.jobs?.map (· ++ [job]) }

/-- Run every queued job; gives their number. -/
def pump (owned : OwnedBuffer) : Option Nat × OwnedBuffer :=
  match owned.jobs? with
  | none => (none, owned)
  | some jobs => (some jobs.length, ⟨jobs.foldl runJob owned.buffer, some []⟩)

/-- Run the first queued job. -/
def runOne (owned : OwnedBuffer) : Option Bool × OwnedBuffer :=
  match owned.jobs? with
  | none => (none, owned)
  | some [] => (some false, owned)
  | some (job :: rest) => (some true, ⟨runJob owned.buffer job, some rest⟩)

/-- An edit that another thread asks for, while the owner runs its queue. -/
def editFromAfar (owned : OwnedBuffer) (edit : Edit) : Except DesignError Bool × OwnedBuffer :=
  match owned.pump with
  | (none, owned) =>
      if owned.buffer.allows edit then (.error .ownerGone, owned) else (.ok false, owned)
  | (some _, owned) =>
      let (done, buffer) := owned.buffer.edit edit
      (.ok done, { owned with buffer })

end OwnedBuffer

/-- The gate in front of a buffer. -/
structure Gate where
  isOpen : Bool
  deriving DecidableEq, Repr

namespace Gate

/-- An open gate. -/
def opened : Gate := ⟨true⟩

/-- A closed gate. -/
def closed : Gate := ⟨false⟩

end Gate

end PageDesigner
