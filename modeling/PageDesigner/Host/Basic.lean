import PageDesigner.Document.DesignHtml
import PageDesigner.Document.Scan
import PageDesigner.Host.Transaction

/-!
# The designer host

The host owns a document from loading to reset, its transactions, and the
refreshes of the surface that wait to be done.  It moves through phases:

    idle — load → loaded — activate → activated — deactivate → deactivated
    and back to idle by a reset from anywhere.

A refresh is not done where it is asked for.  It waits until the host settles,
and every operation that touches components settles first.  Everything the host
tells is kept in the order in which it was told.
-/

namespace PageDesigner

/-- What the host tells. -/
inductive HostEvent where
  | transaction (event : TransactionEvent)
  | loadComplete (components issues : Nat)
  | activated
  | deactivated
  | added (name typeName : Text)
  | removed (name : Text)
  | renamed (name newName : Text)
  | changed (name property : Text) (old? : Option Value) (new : Value)
  | drawn (html : DesignHtml)
  | selected (names : List Text) (primary? : Option Text)
  | contextMenu (x y : Int64) (name? : Option Text)
  deriving DecidableEq, Repr

/-- Where a host is between two resets. -/
inductive Phase where
  | idle
  | loading
  | loaded
  | activated
  | deactivated
  deriving DecidableEq, Repr

/-- A refresh of the surface. -/
inductive Refresh where
  /-- Draws the surface. -/
  | soft
  /-- Brings the components in line with the markup first. -/
  | hard
  deriving DecidableEq, Repr

/-- A design session. -/
structure Host where
  registry : Registry
  designers : DesignerRegistry
  options : Options
  phase : Phase
  document? : Option Document
  transactions : TransactionStack
  /-- Refreshes that wait, in the order in which they were asked for. -/
  waiting : List Refresh
  /-- Everything told so far. -/
  events : List HostEvent

namespace Host

/-- An operation of a host that may fail. -/
abbrev Action (α : Type) := EStateM DesignError Host α

/-- A host without a document. -/
def new (registry : Registry) (designers : DesignerRegistry) (options : Options) : Host :=
  ⟨registry, designers, options, .idle, none, .empty, [], []⟩

/-! ## Reading -/

/-- The site names, in the order of siting. -/
def names (host : Host) : List Text := (host.document?.map (·.names)).getD []

/-- The name of the root page. -/
def root? (host : Host) : Option Text := host.document?.bind (·.surface.root?)

/-- What is selected. -/
def selection (host : Host) : Selection :=
  (host.document?.map (·.surface.selection)).getD .empty

/-- The component with the given name and its stored name. -/
def site? (host : Host) (name : Text) : Option Site := host.document?.bind (·.site? name)

/-- Whether an edit of the text can be undone. -/
def canUndo (host : Host) : Bool := host.document?.any (·.buffer.tracker.canUndo)

/-- Whether an edit of the text can be made again. -/
def canRedo (host : Host) : Bool := host.document?.any (·.buffer.tracker.canRedo)

/-! ## Parts of operations -/

/-- Tell events. -/
def tell (events : List HostEvent) : Action Unit :=
  modify fun host => { host with events := host.events ++ events }

/-- The document, or the failure to have one. -/
def loaded : Action Document := do
  match (← get).document? with
  | some document => pure document
  | none => throw .notLoaded

/-- Run an action on the document. -/
def onDocument {α : Type} (action : Document.Action α) : Action α := fun host =>
  match host.document? with
  | none => .error .notLoaded host
  | some document =>
      match action document with
      | .ok result document => .ok result { host with document? := some document }
      | .error failure document => .error failure { host with document? := some document }

/-- The outcome of an action, with what it did in either case. -/
def attempt {α : Type} (action : Action α) : Action (Except DesignError α) := fun host =>
  match action host with
  | .ok result host => .ok (.ok result) host
  | .error failure host => .ok (.error failure) host

/-- Change the surface of the document, if there is one. -/
def onSurface (change : Surface → Surface) : Action Unit :=
  modify fun host => { host with document? := host.document?.map (·.onSurface change) }

/-! ## Refreshes -/

/-- Tell what bringing the components in line with the markup did. -/
def tellChanges (report : ScanReport) : Action Unit :=
  tell (report.removed.map .removed ++
    report.created.map fun (name, typeName) => .added name typeName)

/-- Draw the surface and tell the result. -/
def drawSurface : Action DesignHtml := do
  let html ← onDocument (modifyGet Document.designHtml)
  tell [.drawn html]
  pure html

/-- Do a refresh; a scan that fails tells nothing, but the surface is drawn all the same. -/
def perform (refresh : Refresh) : Action Unit := do
  match refresh with
  | .soft => pure ()
  | .hard =>
      match ← attempt (onDocument Document.persist) with
      | .ok report => tellChanges report
      | .error _ => pure ()
  discard drawSurface

/-- Do the refreshes that wait. -/
def settle : Action Unit := do
  let waiting := (← get).waiting
  modify fun host => { host with waiting := [] }
  waiting.forM perform

/-- Ask for a refresh, if there is a document. -/
def askRefresh (refresh : Refresh) : Action Unit :=
  modify fun host =>
    if host.document?.isSome then { host with waiting := host.waiting ++ [refresh] } else host

/-! ## From loading to reset -/

/-- Destroy every component and let go of the document. -/
def reset : Action Unit := do
  settle
  match (← get).document? with
  | none => pure ()
  | some document => tell (document.surface.clear.1.map .removed)
  modify fun host => { host with document? := none, phase := .idle }

/-- The type of the root page. -/
def pageType (registry : Registry) : ControlType := (registry.named? "Page").getD Builtin.page

/-- Load a markup text; a first scan that fails leaves the host as after a reset. -/
def load (text : Text) : Action ScanReport := do
  let host ← get
  if host.phase ≠ .idle || host.document?.isSome then throw .hostNotReset
  let document := Document.ofText host.registry host.designers host.options text
  set { host with phase := .loading, document? := some document }
  let page := pageType host.registry
  let root ← onDocument (Document.siteRoot page)
  tell [.added root page.name]
  match ← attempt (onDocument Document.createControls) with
  | .error failure =>
      reset
      throw failure
  | .ok report =>
      tellChanges { report with removed := [] }
      modify fun host => { host with phase := .loaded }
      tell [.loadComplete (report.created.length + 1) report.issues.length]
      pure report

/-- Load the content of a file, which was read first. -/
def loadFile (content : Except Text Text) : Action ScanReport :=
  match content with
  | .ok text => load text
  | .error reason => throw (.io reason)

/-- Load a new page. -/
def loadNew (title : Text) : Action ScanReport := load (newPageMarkup title)

/-- Select the root and start to show the surface. -/
def activate : Action Unit := do
  if (← get).phase = .activated then throw .alreadyActivated
  let document ← loaded
  match document.surface.root? with
  | none => throw .notLoaded
  | some root =>
      onSurface (·.select [root] 0)
      modify fun host => { host with phase := .activated }
      tell [.activated]
      askRefresh .soft

/-- Stop to show the surface. -/
def deactivate : Action Unit := do
  if (← get).phase = .activated then
    settle
    modify fun host => { host with phase := .deactivated }
    tell [.deactivated]

/-- Draw the surface at once. -/
def serialize : Action DesignHtml := do
  settle
  drawSurface

/-! ## Transactions -/

/-- Open a transaction. -/
def openTransaction (description : Text) : Action Transaction := do
  let (handle, transactions, events) := (← get).transactions.push description
  modify fun host => { host with transactions }
  tell (events.map .transaction)
  pure handle

/-- Close the transaction of a handle; gives the closed handle. -/
def closeTransaction (handle : Transaction) (commit : Bool) : Action Transaction := do
  match (← get).transactions.close handle commit with
  | .error failure => throw failure
  | .ok (handle, transactions, events) =>
      modify fun host => { host with transactions }
      tell (events.map .transaction)
      pure handle

/-- Commit a transaction; the outermost commit refreshes a surface that is shown. -/
def commit (handle : Transaction) : Action Transaction := do
  let handle ← closeTransaction handle true
  let host ← get
  if host.phase = .activated && !host.transactions.isOpen then askRefresh .soft
  pure handle

/-- Roll a transaction back. -/
def rollback (handle : Transaction) : Action Transaction := closeTransaction handle false

/-- Drop the handle of a transaction. -/
def dropTransaction (handle : Transaction) : Action Unit := do
  let (transactions, events) := (← get).transactions.drop handle
  modify fun host => { host with transactions }
  tell (events.map .transaction)

/-- Run an operation in a transaction, which is rolled back when the operation fails. -/
def withTransaction {α : Type} (description : Text) (work : Action α) : Action α := do
  let handle ← openTransaction description
  match ← attempt work with
  | .ok result =>
      discard (commit handle)
      pure result
  | .error failure =>
      discard (rollback handle)
      throw failure

end Host

end PageDesigner
