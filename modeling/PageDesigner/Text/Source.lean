import PageDesigner.Text.Location

/-!
# Offsets in a source text

A source text is addressed in two ways: by UTF-8 byte offset and by location.
Both name a point between two characters, and `before` is the common view: the
part of the text in front of the point.  A column past the end of a line means
the end of that line, behind its line feed; a line past the end of the text
means the end of the text.
-/

namespace PageDesigner.Source

/--
The lines of a text, each with its line feed.  A text that ends in a line feed
has one more, empty, line.
-/
def lines : Text → List Text
  | [] => [[]]
  | '\n' :: rest => ['\n'] :: lines rest
  | char :: rest =>
      match lines rest with
      | [] => [[char]]
      | line :: others => (char :: line) :: others

/-- The part of the text in front of a location. -/
def before (source : Text) (location : Location) : Text :=
  match location.line with
  | 0 => []
  | index + 1 =>
      match (lines source).drop index with
      | [] => source
      | line :: _ =>
          ((lines source).take index).flatten ++ line.take (location.column - 1)

/-- The byte offset of a location. -/
def offset (source : Text) (location : Location) : Nat := (before source location).byteCount

/--
The location of a byte offset, walking on while whole characters fit in front
of it.  An offset past the end means the end.
-/
def locate (location : Location) : Nat → Text → Location
  | _, [] => location
  | offset, char :: rest =>
      if offset < char.utf8Size then location
      else locate (location.next char) (offset - char.utf8Size) rest

/-- The location of a byte offset of the text. -/
def location (source : Text) (offset : Nat) : Location := locate .start offset source

/-- The text between two locations; empty when the second is not behind the first. -/
def slice (source : Text) (first last : Location) : Text :=
  (before source last).drop (before source first).length

end PageDesigner.Source
