import PageDesigner.Control.Builtin
import PageDesigner.Markup.Tree

/-!
# The registry of control types

The registry answers two questions: which type has a given name, and which type
a tag stands for.  A tag without a type of its own stands for the fallback type,
unless it has a namespace.
-/

namespace PageDesigner

/-- The known control types. -/
structure Registry where
  /-- Types with a tag of their own. -/
  types : List ControlType
  /-- The type of plain HTML tags that have none of their own. -/
  fallback? : Option ControlType
  deriving DecidableEq, Repr

namespace Registry

/-- Knows no type. -/
def empty : Registry := ⟨[], none⟩

/-- Knows the built-in types. -/
def standard : Registry :=
  ⟨[Builtin.page, Builtin.button, Builtin.label, Builtin.textBox, Builtin.checkBox,
      Builtin.hyperLink, Builtin.placeHolder, Builtin.form],
    some Builtin.generic⟩

/-- The registry with one more type. -/
def register (registry : Registry) (controlType : ControlType) : Registry :=
  { registry with types := controlType :: registry.types }

/-- Every known type. -/
def all (registry : Registry) : List ControlType := registry.types ++ registry.fallback?.toList

/-- The type with the given name, up to letter case. -/
def named? (registry : Registry) (name : Text) : Option ControlType :=
  registry.all.find? (·.name.sameName name)

/--
The type a tag with the given name stands for.  The latest type registered for a
tag counts, and a page has no tag.
-/
def resolve? (registry : Registry) (name : Name) : Option ControlType :=
  match (registry.types.find? (name.isWritten ·.tag)).filter (·.kind = .control) with
  | some known => some known
  | none => if name.isQualified then none else registry.fallback?

/-- A tag stands for one of the known types. -/
theorem mem_all_of_resolve? {registry : Registry} {name : Name} {controlType : ControlType}
    (resolved : registry.resolve? name = some controlType) : controlType ∈ registry.all := by
  unfold resolve? at resolved
  split at resolved
  · next known found =>
      obtain rfl := Option.some.inj resolved
      have listed := List.mem_of_find?_eq_some (Option.filter_eq_some_iff.mp found).1
      exact List.mem_append_left _ listed
  · split at resolved
    · cases resolved
    · exact List.mem_append_right _ (Option.mem_toList.mpr resolved)

/-- The names of the known types, in alphabetical order. -/
def names (registry : Registry) : List Text :=
  (registry.all.map (·.name)).mergeSort fun first second => !decide (second < first)

end Registry

end PageDesigner
