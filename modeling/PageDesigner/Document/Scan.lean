import PageDesigner.Document.TagEdit

/-!
# Control scans

A scan brings the components of a document in line with its tags.  Every server
control of a known type must have an id that is a name of its own.  When a pass
over the tags meets one that has none, it writes an unused id into the tag and
starts again, because the edit makes every region stale.  A pass that meets no
such tag settles the scan.

The first scan of a document creates components and registers the directives.
Later scans also apply every tag again and destroy the components without a tag.
-/

namespace PageDesigner

/-- What a scan did. -/
structure ScanReport where
  /-- Passes it took to settle. -/
  passes : Nat
  /-- Names and types of the components created. -/
  created : List (Text × Text)
  /-- Names of the components destroyed. -/
  removed : List Text
  /-- Ids written into tags. -/
  ids : List Text
  /-- Number of directives registered. -/
  directives : Nat
  issues : List Issue
  deriving DecidableEq, Repr

/-- Nothing done yet. -/
def ScanReport.empty : ScanReport := ⟨0, [], [], [], 0, []⟩

/-- Which scan it is. -/
inductive ScanMode where
  /-- The first scan after loading. -/
  | initial
  /-- Brings existing components in line with the markup. -/
  | persist
  deriving DecidableEq, Repr

/-- A pass over the tags of a document, up to some tag. -/
structure ScanPass where
  surface : Surface
  report : ScanReport
  /-- Ids of the tags so far, in small letters. -/
  claimed : List Text
  issues : List Issue

/-- An id that has to be written into a tag before the scan can go on. -/
structure MissingId where
  tag : Tag
  id : Text

namespace ScanPass

/-- A step of a pass, which may fail. -/
abbrev Action (α : Type) := EStateM DesignError ScanPass α

/-- The ids of all elements. -/
def takenIds (tree : Tree) : List Text := tree.elements.filterMap (·.id?)

/-- The id of a tag, if it can name a component of its own. -/
def usableId? (pass : ScanPass) (tag : Tag) : Option Text :=
  tag.id?.filter fun id =>
    Naming.isValid id && !pass.claimed.contains id.lower && !pass.surface.isRoot id

/-- Add issues of a tag. -/
def addIssues (issues : List Issue) : Action Unit :=
  modify fun pass => { pass with issues := pass.issues ++ issues }

/-- Destroy the component with the given name and record its name. -/
def destroy (name : Text) : Action Unit :=
  modify fun pass =>
    match pass.surface.destroy? name with
    | none => pass
    | some (stored, surface) =>
        { pass with
          surface, report := { pass.report with removed := pass.report.removed ++ [stored] } }

/-- Create the component of a tag. -/
def create (controlType : ControlType) (id : Text) (element : Element) : Action Unit := do
  let (component, issues) := (Component.fresh controlType).readTag element false
  addIssues issues
  let pass ← get
  match pass.surface.siteControl (some id) component with
  | .error failure => throw failure
  | .ok (name, surface) =>
      set { pass with
        surface,
        report := { pass.report with
          created := pass.report.created ++ [(name, controlType.name)] } }

/-- Apply a tag again to its component. -/
def apply (id : Text) (component : Component) (element : Element) : Action Unit := do
  let (changed, issues) := component.readTag element true
  modify fun pass =>
    { pass with
      surface := { pass.surface with
        container := pass.surface.container.update id fun _ => changed } }
  addIssues issues

/-- Bring the component of a tag with a usable id in line with the tag. -/
def settle (mode : ScanMode) (controlType : ControlType) (id : Text) (element : Element) :
    Action Unit := do
  modify fun pass => { pass with claimed := pass.claimed ++ [id.lower] }
  match (← get).surface.container.get? id with
  | none => create controlType id element
  | some component =>
      if component.controlType.name = controlType.name then
        match mode with
        | .initial => pure ()
        | .persist => apply id component element
      else
        destroy id
        create controlType id element

/-- Visit one server control; an id that it lacks ends the pass. -/
def visit (registry : Registry) (mode : ScanMode) (taken : List Text) (element : Element) :
    Action (Option MissingId) := do
  match registry.resolve? element.name with
  | none =>
      addIssues [.ofTag element.toTag "no control type registered for this tag"]
      pure none
  | some controlType =>
      let pass ← get
      match pass.usableId? element.toTag with
      | none =>
          let id := Naming.unused controlType.name (pass.surface.container.names ++ taken)
          pure (some ⟨element.toTag, id⟩)
      | some id =>
          settle mode controlType id element
          pure none

/-- Visit server controls until one lacks an id. -/
def visitAll (registry : Registry) (mode : ScanMode) (taken : List Text) :
    List Element → Action (Option MissingId)
  | [] => pure none
  | element :: rest => do
      match ← visit registry mode taken element with
      | some missing => pure (some missing)
      | none => visitAll registry mode taken rest

/-- The components of a settled pass that have no tag. -/
def orphans (pass : ScanPass) : List Text :=
  pass.surface.container.names.filter fun name =>
    !pass.surface.isRoot name && !pass.claimed.contains name.lower

/-- Destroy the components that have no tag. -/
def dropOrphans : Action Unit := do
  (← get).orphans.forM destroy

end ScanPass

namespace Document

/-- Register the directives of the markup; those that cannot be are reported as issues. -/
def registerDirectives (report : ScanReport) : List Directive → Action ScanReport
  | [] => pure report
  | directive :: rest => do
      let document ← get
      match document.directives.addParsed directive with
      | .ok (_, directives) =>
          set { document with directives }
          registerDirectives { report with directives := report.directives + 1 } rest
      | .error failure =>
          let issue : Issue :=
            ⟨"%@ " ++ directive.name, none, directive.region.first, failure.message⟩
          registerDirectives { report with issues := report.issues ++ [issue] } rest

/-- Run a pass over the tags of the current text. -/
def scanPass (mode : ScanMode) (report : ScanReport) : Action (Option MissingId × ScanPass) := do
  let tree ← parsed
  let document ← get
  let start : ScanPass := ⟨document.surface, report, [], []⟩
  let pass := ScanPass.visitAll document.registry mode (ScanPass.takenIds tree) tree.controls start
  match pass with
  | .error failure pass =>
      set { document with surface := pass.surface }
      throw failure
  | .ok missing? pass =>
      set { document with surface := pass.surface }
      pure (missing?, pass)

/-- Finish a scan whose last pass met no tag without an id. -/
def finishScan (mode : ScanMode) (pass : ScanPass) : Action ScanReport := do
  let report := { pass.report with issues := pass.report.issues ++ pass.issues }
  match mode with
  | .initial => pure report
  | .persist =>
      match ScanPass.dropOrphans { pass with report } with
      | .ok _ pass =>
          modify fun document => { document with surface := pass.surface }
          pure pass.report
      | .error failure _ => throw failure

/-- Run passes until one settles, within a bound on their number. -/
def scanPasses (mode : ScanMode) : Nat → ScanReport → Action ScanReport
  | 0, report => throw (.scanDidNotConverge report.passes)
  | bound + 1, report => do
      let (missing?, pass) ← scanPass mode { report with passes := report.passes + 1 }
      match missing? with
      | none => finishScan mode pass
      | some missing =>
          modify fun document => (document.setAttribute missing.tag "id" missing.id).2
          scanPasses mode bound { pass.report with ids := pass.report.ids ++ [missing.id] }

/-- Start a scan: the first one registers the directives of the markup. -/
def startScan : ScanMode → Action ScanReport
  | .persist => pure .empty
  | .initial => do
      let tree ← parsed
      modify fun document => { document with directives := document.directives.cleared }
      registerDirectives .empty tree.directives

/-- Scan the markup; all ids it writes are told in one notice. -/
def scan (mode : ScanMode) : Action ScanReport := quietly do
  let report ← startScan mode
  scanPasses mode (← get).options.maxScanPasses report

/-- The first scan: register directives and create components. -/
def createControls : Action ScanReport := scan .initial

/-- Bring components in line with the markup. -/
def persist : Action ScanReport := scan .persist

end Document

end PageDesigner
