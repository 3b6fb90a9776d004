import PageDesigner.Text.Case

/-!
# Paths

A path is kept as it was written, because reports name files that way.  Its
parts are what the pieces between slashes stand for: empty pieces are passed
over, and so is a dot, except at the start of a path that is not rooted.
-/

namespace PageDesigner

/-- A path to a file or folder, as it is written. -/
structure FilePath where
  text : Text
  deriving DecidableEq, Repr

/-- Literals stand for the path they spell. -/
instance : Coe String FilePath := ⟨fun literal => ⟨literal.toList⟩⟩

/-- What a piece of a path stands for. -/
inductive PathPart where
  /-- The folder where a path that is not rooted starts. -/
  | here
  /-- The folder around the one reached so far. -/
  | outer
  | entry (name : Text)
  deriving DecidableEq, Repr

namespace FilePath

/-! ## Parts -/

/-- Whether a path starts at the top of all folders. -/
def isRooted (path : FilePath) : Bool := path.text.head? == some '/'

/-- The pieces of a text between slashes; a text without slashes is one piece. -/
def split : Text → List Text
  | [] => [[]]
  | '/' :: rest => [] :: split rest
  | char :: rest => (split rest).modifyHead (char :: ·)

/-- The pieces of the path. -/
def pieces (path : FilePath) : List Text := split path.text

/-- The part that a piece behind the first stands for. -/
def part? (piece : Text) : Option PathPart :=
  if piece = [] ∨ piece = ['.'] then none
  else if piece = ['.', '.'] then some .outer
  else some (.entry piece)

/-- The parts of the path. -/
def parts (path : FilePath) : List PathPart :=
  let later := path.pieces.filterMap part?
  if path.pieces.head? = some ['.'] then .here :: later else later

/-! ## Names -/

/-- The name that the path ends in. -/
def name? (path : FilePath) : Option Text :=
  match path.parts.getLast? with
  | some (.entry name) => some name
  | _ => none

/--
The extension of a name: what follows its last dot.  A name whose only dot
stands at its start has none.
-/
def extension? (name : Text) : Option Text :=
  let ending := (name.reverse.takeWhile (· != '.')).reverse
  if ending.length + 1 < name.length then some ending else none

/-- The extensions of page markup. -/
def pageExtensions : List Text := ["aspx", "ascx", "master"]

/-- Whether a file of this name holds page markup. -/
def isPage (path : FilePath) : Bool :=
  match path.name?.bind extension? with
  | some extension => pageExtensions.any extension.sameName
  | none => false

/-! ## Joining -/

/-- The path of what `second` leads to from the folder `first`. -/
def join (first second : FilePath) : FilePath :=
  if second.isRooted then second
  else if first.text = [] || first.text.getLast? = some '/' then ⟨first.text ++ second.text⟩
  else ⟨first.text ++ ['/'] ++ second.text⟩

end FilePath

end PageDesigner
