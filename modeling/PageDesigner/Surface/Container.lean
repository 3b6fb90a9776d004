import PageDesigner.Control.Component
import PageDesigner.Surface.Naming

/-!
# The container of components

Sited components in the order in which they were added.  Looking a component up
ignores letter case; its name keeps the spelling it was given.
-/

namespace PageDesigner

/-- A component under its site name. -/
structure Site where
  name : Text
  component : Component
  deriving DecidableEq, Repr

/-- Sited components, in the order of siting. -/
structure Container where
  sites : List Site
  deriving DecidableEq, Repr

namespace Container

/-- Nothing sited. -/
def empty : Container := ⟨[]⟩

/-- The site names, in the order of siting. -/
def names (container : Container) : List Text := container.sites.map (·.name)

/-- The site with the given name. -/
def site? (container : Container) (name : Text) : Option Site :=
  container.sites.find? (·.name.sameName name)

/-- The place of a name in the order of siting. -/
def position? (container : Container) (name : Text) : Option Nat :=
  container.sites.findIdx? (·.name.sameName name)

/-- Whether a component has the given name. -/
def contains (container : Container) (name : Text) : Bool := (container.site? name).isSome

/-- The stored spelling of a name. -/
def storedName? (container : Container) (name : Text) : Option Text :=
  (container.site? name).map (·.name)

/-- The component with the given name. -/
def get? (container : Container) (name : Text) : Option Component :=
  (container.site? name).map (·.component)

/-- The next generated name for a component of the given type. -/
def nextName (container : Container) (typeName : Text) : Text :=
  Naming.unused typeName container.names

/-- The name under which a component would be sited. -/
def nameFor (container : Container) (name? : Option Text) (component : Component) :
    Except DesignError Text :=
  match name?.filter (!·.isEmpty) with
  | none => .ok (container.nextName component.controlType.name)
  | some name =>
      if !Naming.isValid name then .error (.invalidName name)
      else if container.contains name then .error (.duplicateName name)
      else .ok name

/-- Site a component; an empty or missing name is replaced by a generated one. -/
def add (container : Container) (name? : Option Text) (component : Component) :
    Except DesignError (Text × Container) :=
  match container.nameFor name? component with
  | .error failure => .error failure
  | .ok name => .ok (name, ⟨container.sites ++ [⟨name, component⟩]⟩)

/-- Take a component out. -/
def remove? (container : Container) (name : Text) : Option (Component × Container) :=
  match container.position? name with
  | none => none
  | some index =>
      (container.sites[index]?).map fun site =>
        (site.component, ⟨container.sites.eraseIdx index⟩)

/-- Give a component another name; also gives the stored name before. -/
def rename (container : Container) (name newName : Text) :
    Except DesignError (Text × Container) :=
  match container.position? name with
  | none => .error (.componentNotFound name)
  | some index =>
      if !Naming.isValid newName then .error (.invalidName newName)
      else if (container.position? newName).any (· != index) then .error (.duplicateName newName)
      else
        .ok (((container.sites[index]?).map (·.name)).getD name,
          ⟨container.sites.modify index fun site => { site with name := newName }⟩)

/-- Change the component with the given name, if there is one. -/
def update (container : Container) (name : Text) (change : Component → Component) : Container :=
  match container.position? name with
  | none => container
  | some index =>
      ⟨container.sites.modify index fun site =>
        { site with component := change site.component }⟩

/-- Everything taken out, the most recently sited first. -/
def drained (container : Container) : List Site := container.sites.reverse

end Container

end PageDesigner
