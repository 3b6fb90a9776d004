import PageDesigner.Text.Basic

/-!
# Locations

A location is a line and a column, both counted from one.  Columns count
characters, and only a line feed ends a line.  Locations are ordered by line
and then by column; a region is the half-open stretch between two locations.
-/

namespace PageDesigner

/-- A place in a text: one-based line and column. -/
structure Location where
  line : Nat
  column : Nat
  deriving DecidableEq, Repr, Inhabited

namespace Location

/-- The first place of every text. -/
def start : Location := ⟨1, 1⟩

/-- Locations are compared by line first and by column second. -/
instance : LT Location :=
  ⟨fun first second =>
    first.line < second.line ∨ (first.line = second.line ∧ first.column < second.column)⟩

instance : LE Location :=
  ⟨fun first second =>
    first.line < second.line ∨ (first.line = second.line ∧ first.column ≤ second.column)⟩

instance (first second : Location) : Decidable (first < second) :=
  inferInstanceAs (Decidable (_ ∨ _))

instance (first second : Location) : Decidable (first ≤ second) :=
  inferInstanceAs (Decidable (_ ∨ _))

/-- The later of two locations. -/
def later (first second : Location) : Location := if first ≤ second then second else first

/-- The location behind one character. -/
def next (location : Location) (char : Char) : Location :=
  if char = '\n' then ⟨location.line + 1, 1⟩ else ⟨location.line, location.column + 1⟩

/-- The location reached by walking over a text. -/
def advance (location : Location) (text : Text) : Location := text.foldl next location

/-- The spelling `line:column`. -/
def text (location : Location) : Text :=
  Text.ofNat location.line ++ ":" ++ Text.ofNat location.column

/-! ## Laws -/

@[simp]
theorem advance_nil (location : Location) : location.advance [] = location := rfl

@[simp]
theorem advance_cons (location : Location) (char : Char) (rest : Text) :
    location.advance (char :: rest) = (location.next char).advance rest := rfl

theorem advance_append (location : Location) (first second : Text) :
    location.advance (first ++ second) = (location.advance first).advance second := by
  simp [advance]

end Location

/-- The stretch of text from `first` up to, and without, `last`. -/
structure Region where
  first : Location
  last : Location
  deriving DecidableEq, Repr, Inhabited

namespace Region

/-- A region that does not end behind its first location holds nothing. -/
def isEmpty (region : Region) : Bool := region.last ≤ region.first

/-- Whether a location lies in the region; the last location does not. -/
def contains (region : Region) (location : Location) : Bool :=
  region.first ≤ location && location < region.last

/-- The spelling `first-last`. -/
def text (region : Region) : Text := region.first.text ++ "-" ++ region.last.text

end Region

end PageDesigner
