import PageDesigner.Surface.Naming

/-!
# The selection

The selected site names, in the order in which they were asked for, and the
primary one among them.  A selection is only ever replaced as a whole or follows
a renamed component.
-/

namespace PageDesigner

/-- Selected names and the primary one. -/
structure Selection where
  names : List Text
  primary? : Option Text
  deriving DecidableEq, Repr

namespace Selection

/-- Nothing selected. -/
def empty : Selection := ⟨[], none⟩

/-- The names without those that repeat an earlier one up to letter case. -/
def distinct (names : List Text) : List Text :=
  names.foldl
    (fun kept name => if Naming.isTaken kept name then kept else kept ++ [name]) []

/-- Select names; the index of the primary one is clamped to the names kept. -/
def ofNames (names : List Text) (primary : Nat) : Selection :=
  let kept := distinct names
  ⟨kept, kept[min primary (kept.length - 1)]?⟩

/-- Whether a name is selected. -/
def contains (selection : Selection) (name : Text) : Bool := Naming.isTaken selection.names name

/-- The selection without a name, with the first of the others as primary; unchanged when the
name is not selected. -/
def without (selection : Selection) (name : Text) : Selection :=
  if selection.contains name then
    ofNames (selection.names.filter fun other => !other.sameName name) 0
  else selection

/-- The selection after a component was renamed. -/
def rename (selection : Selection) (name newName : Text) : Selection :=
  ⟨selection.names.map (Text.renamed name newName),
    selection.primary?.map (Text.renamed name newName)⟩

end Selection

end PageDesigner
