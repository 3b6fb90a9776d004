import PageDesigner.Host.Basic
import PageDesigner.Host.Message

/-!
# Working on components

The operations that create, change, rename and remove components, with the tags
that stand for them.  Each runs in a transaction of its own.  A change that
cannot be written into the markup is taken back on the component.
-/

namespace PageDesigner.Host

/-! ## Selection -/

/-- Select those of the names that exist, in their stored spelling. -/
def select (names : List Text) (primary : Nat) : Action Unit := do
  onSurface fun surface => surface.select (surface.known names) primary
  let selection := (← get).selection
  tell [.selected selection.names selection.primary?]

/-- The component with the given name and its stored name, or the failure to find it. -/
def siteNamed (name : Text) : Action Site := do
  match (← get).site? name with
  | some site => pure site
  | none => throw (.componentNotFound name)

/-- Replace the component with the given name. -/
def putComponent (name : Text) (component : Component) : Action Unit :=
  onSurface fun surface =>
    { surface with container := surface.container.update name fun _ => component }

/-- The designer of a component. -/
def designerOf (name : Text) : Action Designer := do
  settle
  let site ← siteNamed name
  pure ((← get).designers.designerOf site.component.controlType.name)

/-! ## Creating and removing -/

/-- Site a new control and give it a caption; gives its name and its tag. -/
def siteNew (controlType : ControlType) (name? : Option Text) : Action (Text × Text) := do
  let document ← loaded
  match document.surface.siteControl name? (.fresh controlType) with
  | .error failure => throw failure
  | .ok (name, surface) =>
      modify fun host => { host with document? := some { document with surface } }
      let component := (← siteNamed name).component.initialized
      putComponent name component
      pure (name, component.markup name)

/-- Site a new control, write its tag and select it. -/
def addControl (controlType : ControlType) (name? : Option Text) : Action Text := do
  let (name, markup) ← siteNew controlType name?
  match ← attempt (onDocument (Document.insertTag markup)) with
  | .error failure =>
      discard (onDocument (Document.destroy name))
      throw failure
  | .ok _ =>
      tell [.added name controlType.name]
      select [name] 0
      pure name

/-- Add a control of the given type from the design surface; gives its name. -/
def create (typeName : Text) (name? : Option Text) : Action Text := do
  settle
  discard loaded
  match (← get).registry.named? typeName with
  | none => throw (.unknownType typeName)
  | some controlType =>
      if controlType.kind = .page then throw (.pageNotAllowed controlType.name)
      withTransaction ("Create " ++ controlType.name) (addControl controlType name?)

/-- Remove the tag of a component; a component without a tag has nothing to remove. -/
def removeTagOf (name : Text) : Action Unit := do
  match ← attempt (onDocument (Document.removeTag name)) with
  | .ok () => pure ()
  | .error (.tagNotFound _) => pure ()
  | .error failure => throw failure

/-- Remove a component with its tag; the root page has none. -/
def destroy (name : Text) : Action Unit := do
  settle
  let document ← loaded
  match document.surface.container.storedName? name with
  | none => throw (.componentNotFound name)
  | some stored =>
      if !document.surface.isRoot stored then removeTagOf stored
      match ← onDocument (Document.destroy stored) with
      | some removed => tell [.removed removed]
      | none => pure ()

/-- Remove a component in a transaction of its own. -/
def remove (name : Text) : Action Unit := withTransaction ("Remove " ++ name) (destroy name)

/-- Remove the named controls that exist, but not the root; gives their names. -/
def destroyEach : List Text → Action (List Text)
  | [] => pure []
  | name :: rest => do
      let document ← loaded
      if document.surface.isRoot name || !document.surface.container.contains name then
        destroyEach rest
      else
        destroy name
        let others ← destroyEach rest
        pure (name :: others)

/-- Remove every selected control but the root, the last selected first. -/
def removeSelected : Action (List Text) := do
  settle
  let document ← loaded
  withTransaction "Remove selected controls" (destroyEach document.surface.selection.names.reverse)

/-! ## Properties and events -/

/-- Put back what a property held before. -/
def restored (component : Component) (property : Text) (old? : Option Value) : Component :=
  let outcome :=
    match old? with
    | some old => component.set property old
    | none => component.reset property
  match outcome with
  | .ok (_, component) => component
  | .error _ => component

/-- Change a property of a component and in its tag. -/
def changeProperty (name property : Text) (value : Value) : Action Unit := do
  let site ← siteNamed name
  let controlType := site.component.controlType
  match controlType.property? property with
  | none => throw (.propertyNotFound site.name property)
  | some declared =>
      match site.component.set declared.name value with
      | .error failure => throw failure
      | .ok (old?, component) =>
          putComponent site.name component
          match ← attempt (onDocument (Document.updateTag controlType site.name declared.name value)) with
          | .error failure =>
              putComponent site.name (restored component declared.name old?)
              throw failure
          | .ok _ => tell [.changed site.name declared.name old? value]

/-- Set a property of a component. -/
def setProperty (name property : Text) (value : Value) : Action Unit := do
  settle
  discard loaded
  withTransaction ("Change " ++ name ++ "." ++ property) (changeProperty name property value)

/-- The declared property of a component, for an operation that names both. -/
def propertyNamed (name property : Text) : Action Property := do
  settle
  let site ← siteNamed name
  match site.component.controlType.property? property with
  | some declared => pure declared
  | none => throw (.propertyNotFound name property)

/-- Set a property of a component from its markup form. -/
def setPropertyText (name property written : Text) : Action Unit := do
  match (← propertyNamed name property).read written with
  | .error cause => throw (.conversion cause)
  | .ok value => setProperty name property value

/-- Put a property of a component back to its declared value. -/
def resetProperty (name property : Text) : Action Unit := do
  match (← propertyNamed name property).initial? with
  | none => throw (.propertyNotFound name property)
  | some value => setProperty name property value

/-- Bind or clear the handler of an event, on a component and in its tag. -/
def changeHandler (name event : Text) (handler? : Option Text) : Action Unit := do
  let site ← siteNamed name
  match site.component.controlType.event? event with
  | none => throw (.propertyNotFound site.name ("On" ++ event))
  | some declared =>
      match handler?.filter (!·.isEmpty) with
      | none => putComponent site.name (site.component.unbind declared)
      | some handler =>
          match site.component.bind declared handler with
          | .error failure => throw failure
          | .ok component => putComponent site.name component
      discard (onDocument (Document.updateEvent site.name declared handler?))

/-- Set the handler of an event. -/
def setHandler (name event : Text) (handler? : Option Text) : Action Unit := do
  settle
  discard loaded
  withTransaction ("Bind " ++ name ++ "." ++ event) (changeHandler name event handler?)

/-! ## Renaming -/

/-- Rename a component on the surface; gives its stored name before. -/
def renameSite (name newName : Text) : Action Text := do
  let document ← loaded
  match document.surface.rename name newName with
  | .error failure => throw failure
  | .ok (previous, surface) =>
      modify fun host => { host with document? := some { document with surface } }
      pure previous

/-- Rename a component and the id of its tag. -/
def changeName (name newName : Text) : Action Unit := do
  let previous ← renameSite name newName
  match ← attempt (onDocument (Document.renameTag previous newName)) with
  | .error failure =>
      discard (attempt (renameSite newName previous))
      throw failure
  | .ok _ =>
      onSurface fun surface =>
        { surface with selection := surface.selection.rename previous newName }
      tell [.renamed previous newName]

/-- Give a component another name. -/
def rename (name newName : Text) : Action Unit := do
  settle
  discard loaded
  withTransaction ("Rename " ++ name) (changeName name newName)

/-! ## Undoing and messages -/

/-- Undo or redo an edit of the text and bring the components in line with it. -/
def replay (edit : Edit) : Action Bool := do
  settle
  if ← onDocument (modifyGet (·.edit edit)) then
    onDocument (modify fun document => { document with buffer := document.buffer.markDirty })
    askRefresh .hard
    pure true
  else pure false

/-- Undo the last edit of the text. -/
def undo : Action Bool := replay .undo

/-- Make the last undone edit of the text again. -/
def redo : Action Bool := replay .redo

/-- Do what a message of the surface asks for. -/
def obey (message : SurfaceMessage) : Action Unit := do
  settle
  match message with
  | .selectionChanged ids primary => select ids primary.toNat
  | .contextMenu x y id? =>
      let host ← get
      tell [.contextMenu x y (id?.bind fun id => (host.site? id).map (·.name))]

/-- Handle a raw message of the surface; gives the message, if it is one. -/
def receive (raw : Text) : Action (Option SurfaceMessage) := do
  match SurfaceMessage.parse? raw with
  | none => pure none
  | some message =>
      obey message
      pure (some message)

end PageDesigner.Host
