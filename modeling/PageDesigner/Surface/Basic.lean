import PageDesigner.Surface.Container
import PageDesigner.Surface.Selection

/-!
# The design surface

The components of a document, the page among them that is the root, and the
selection.  The root lists the names of all other components as its children.
-/

namespace PageDesigner

/-- Sited components, their root, and what is selected. -/
structure Surface where
  container : Container
  root? : Option Text
  selection : Selection
  deriving DecidableEq, Repr

namespace Surface

/-- Nothing sited and nothing selected. -/
def empty : Surface := ⟨.empty, none, .empty⟩

/-- Whether a name is that of the root. -/
def isRoot (surface : Surface) (name : Text) : Bool := surface.root?.any (·.sameName name)

/-- Change the names listed on the root page, if there is one. -/
def updateChildren (surface : Surface) (change : List Text → List Text) : Surface :=
  match surface.root? with
  | none => surface
  | some root =>
      { surface with
        container := surface.container.update root fun component =>
          if component.isPage then { component with children := change component.children }
          else component }

/-- Site the root page under a generated name. -/
def siteRoot (surface : Surface) (page : Component) : Except DesignError (Text × Surface) :=
  match surface.container.add none page with
  | .error failure => .error failure
  | .ok (name, container) => .ok (name, { surface with container, root? := some name })

/-- Site a control and list it on the root page. -/
def siteControl (surface : Surface) (name? : Option Text) (component : Component) :
    Except DesignError (Text × Surface) :=
  match surface.container.add name? component with
  | .error failure => .error failure
  | .ok (name, container) =>
      .ok (name, { surface with container }.updateChildren (· ++ [name]))

/-- Take a name off the root, or off the list of its children. -/
def detach (surface : Surface) (name : Text) : Surface :=
  if surface.isRoot name then { surface with root? := none }
  else surface.updateChildren (·.filter fun child => !child.sameName name)

/-- Deselect, detach and remove a component; gives its stored name. -/
def destroy? (surface : Surface) (name : Text) : Option (Text × Surface) :=
  match surface.container.storedName? name with
  | none => none
  | some stored =>
      let detached := { surface with selection := surface.selection.without stored }.detach stored
      (detached.container.remove? stored).map fun (_, container) =>
        (stored, { detached with container })

/-- Give a control another name; also gives the stored name before. -/
def rename (surface : Surface) (name newName : Text) : Except DesignError (Text × Surface) :=
  if surface.isRoot name then .error (.invalidName name)
  else
    match surface.container.rename name newName with
    | .error failure => .error failure
    | .ok (previous, container) =>
        .ok (previous, { surface with container }.updateChildren
          (List.map (Text.renamed previous newName)))

/-- Destroy components one after the other; gives the stored names of those that existed. -/
def destroyAll (surface : Surface) : List Text → List Text × Surface
  | [] => ([], surface)
  | name :: rest =>
      match surface.destroy? name with
      | none => surface.destroyAll rest
      | some (stored, surface) =>
          let (others, surface) := surface.destroyAll rest
          (stored :: others, surface)

/-- Every name, the most recently sited first and the root last. -/
def removalOrder (surface : Surface) : List Text :=
  match surface.root? with
  | none => surface.container.names.reverse
  | some root => surface.container.names.reverse.filter (!·.sameName root) ++ [root]

/-- Destroy every component, the root last. -/
def clear (surface : Surface) : List Text × Surface := surface.destroyAll surface.removalOrder

/-- The stored spelling of those names that exist. -/
def known (surface : Surface) (names : List Text) : List Text :=
  names.filterMap surface.container.storedName?

/-- Replace the selection. -/
def select (surface : Surface) (names : List Text) (primary : Nat) : Surface :=
  { surface with selection := .ofNames names primary }

end Surface

end PageDesigner
