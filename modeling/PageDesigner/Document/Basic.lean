import PageDesigner.Buffer.Basic
import PageDesigner.Control.Designer
import PageDesigner.Control.Registry
import PageDesigner.Document.Options
import PageDesigner.Markup.Parse
import PageDesigner.Surface.Basic
import PageDesigner.Surface.Directives

/-!
# Documents

A document keeps a design surface beside the text it stands for.  The parsed
tree is kept until the text changes.

Parsing has three steps that stand on their own: look for a tree that is still
good (`cached?`), take a snapshot of the text, and keep the tree of that
snapshot (`keep`).  If the text was edited in between, the kept tree is not good
and the next parse starts again.

Operations that can fail are actions on a document: they give a result or a
failure, and in either case the document as they leave it.
-/

namespace PageDesigner

/-- A markup text with its components, directives and selection. -/
structure Document where
  buffer : Buffer
  registry : Registry
  designers : DesignerRegistry
  options : Options
  cache? : Option Tree
  surface : Surface
  directives : DirectiveTable

namespace Document

/-- An operation on a document that may fail. -/
abbrev Action (α : Type) := EStateM DesignError Document α

/-- A document with a text and nothing sited yet. -/
def ofText (registry : Registry) (designers : DesignerRegistry) (options : Options)
    (text : Text) : Document :=
  ⟨.ofText text, registry, designers, options, none, .empty, .empty⟩

/-- The current text. -/
def text (document : Document) : Text := document.buffer.text

/-- The text of a region. -/
def regionText (document : Document) (region : Region) : Text :=
  document.buffer.between region.first region.last

/-- Edit the text; also tells whether an undo or redo took place. -/
def edit (document : Document) (edit : Edit) : Bool × Document :=
  let (done, buffer) := document.buffer.edit edit
  (done, { document with buffer })

/-- The document after an edit. -/
def edited (document : Document) (edit : Edit) : Document := (document.edit edit).2

/-! ## Parsing -/

/-- The tree that was kept, if the text has not changed since. -/
def cached? (document : Document) : Option Tree :=
  if document.buffer.isDirty then none else document.cache?

/-- Keep the tree of a snapshot of the given generation. -/
def keep (document : Document) (tree : Tree) (generation : Nat) : Document :=
  { document with buffer := (document.buffer.markClean generation).2, cache? := some tree }

/-- The tree of the current text; parses only when the text has changed. -/
def parse (document : Document) : Tree × Document :=
  match document.cached? with
  | some tree => (tree, document)
  | none =>
      let snapshot := document.buffer.snapshot
      let tree := Tree.parse snapshot.text
      (tree, document.keep tree snapshot.generation)

/-- The tree of the current text, in an action. -/
def parsed : Action Tree := modifyGet parse

/-! ## The surface -/

/-- The site names, in the order of siting. -/
def names (document : Document) : List Text := document.surface.container.names

/-- The stored name and the component with the given name. -/
def site? (document : Document) (name : Text) : Option Site :=
  document.surface.container.site? name

/-- Change the surface. -/
def onSurface (document : Document) (change : Surface → Surface) : Document :=
  { document with surface := change document.surface }

/-- Site a page as the root, unless there is a root. -/
def siteRoot (page : ControlType) : Action Text := do
  let document ← get
  match document.surface.root? with
  | some root => pure root
  | none =>
      match document.surface.siteRoot (.fresh page) with
      | .error failure => throw failure
      | .ok (name, surface) =>
          set { document with surface }
          pure name

/-- Destroy a component, if there is one with the given name. -/
def destroy (name : Text) : Action (Option Text) := do
  let document ← get
  match document.surface.destroy? name with
  | none => pure none
  | some (stored, surface) =>
      set { document with surface }
      pure (some stored)

/-- Replace the selection by names that need not exist. -/
def select (document : Document) (names : List Text) : Document :=
  document.onSurface (·.select names 0)

/-! ## Directives -/

/-- Run an operation on the directive table that may fail. -/
def onDirectives {α : Type}
    (operation : DirectiveTable → Except DesignError (α × DirectiveTable)) : Action α := do
  let document ← get
  match operation document.directives with
  | .error failure => throw failure
  | .ok (result, directives) =>
      set { document with directives }
      pure result

/-- Hold notices back during an action, whether it fails or not. -/
def quietly {α : Type} (action : Action α) : Action α := fun document =>
  let release (document : Document) : Document :=
    { document with buffer := document.buffer.release }
  match action { document with buffer := document.buffer.suppress } with
  | .ok result document => .ok result (release document)
  | .error failure document => .error failure (release document)

end Document

end PageDesigner
