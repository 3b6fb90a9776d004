import PageDesigner.Text.Location

/-!
# Text with an edit history

The text under the designer, with its edits in both directions.  Every change is
recorded by the place where it happened, counted in characters, the text it
removed and the text it put there; undoing a change swaps the two.

A location resolves to a place in the text whatever it says: a column past the
end of a line means the start of the next line, and a line past the end of the
text means the end of the text.
-/

namespace PageDesigner

/-- One recorded change: at `start`, `removed` gave way to `inserted`. -/
structure Change where
  start : Nat
  removed : Text
  inserted : Text
  deriving DecidableEq, Repr

namespace Change

/-- Make the change in a text. -/
def apply (change : Change) (text : Text) : Text :=
  text.take change.start ++ change.inserted ++ text.drop (change.start + change.removed.length)

/-- The change that takes this one back. -/
def inverse (change : Change) : Change := ⟨change.start, change.inserted, change.removed⟩

end Change

/-- A text with the changes that can be undone and redone, latest first. -/
structure History where
  text : Text
  undone : List Change
  done : List Change
  deriving DecidableEq, Repr

namespace History

/-- A text without any history. -/
def ofText (text : Text) : History := ⟨text, [], []⟩

/--
Characters in front of the place that lies `lines` line feeds and `columns`
characters ahead, not further than the end of that line.
-/
def seek : Nat → Nat → Text → Nat
  | _, _, [] => 0
  | lines + 1, columns, char :: rest =>
      seek (if char = '\n' then lines else lines + 1) columns rest + 1
  | 0, 0, _ => 0
  | 0, columns + 1, char :: rest => if char = '\n' then 1 else seek 0 columns rest + 1

/-- Characters in front of a location. -/
def index (history : History) (location : Location) : Nat :=
  match location.line with
  | 0 => 0
  | lines + 1 => seek lines (location.column - 1) history.text

/-- The text between two locations; empty when the second is not behind the first. -/
def between (history : History) (first last : Location) : Text :=
  (history.text.take (history.index last)).drop (history.index first)

/-- Replace the characters from `start` up to `stop`, as one change. -/
def splice (history : History) (start stop : Nat) (inserted : Text) : History :=
  let change : Change := ⟨start, (history.text.take stop).drop start, inserted⟩
  ⟨change.apply history.text, [], change :: history.done⟩

/-- Insert a text at a location. -/
def insert (history : History) (location : Location) (inserted : Text) : History :=
  history.splice (history.index location) (history.index location) inserted

/-- Replace a region; a region that ends before it begins is empty. -/
def replace (history : History) (region : Region) (inserted : Text) : History :=
  let start := history.index region.first
  history.splice start (max start (history.index region.last)) inserted

/-- Replace the whole text. -/
def replaceAll (history : History) (inserted : Text) : History :=
  history.splice 0 history.text.length inserted

/-- Take the latest change back, if there is one. -/
def undo? (history : History) : Option History :=
  match history.done with
  | [] => none
  | change :: earlier =>
      some ⟨change.inverse.apply history.text, change :: history.undone, earlier⟩

/-- Make the change again that was taken back last, if there is one. -/
def redo? (history : History) : Option History :=
  match history.undone with
  | [] => none
  | change :: later => some ⟨change.apply history.text, later, change :: history.done⟩

end History

end PageDesigner
