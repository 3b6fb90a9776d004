/-!
# Text

Page markup, names, attribute values and rendered HTML are all text: finite
lists of characters.  A list is the natural form here because markup is read
from left to right and every position of the designer (a line and a column)
counts whole characters.

The module holds the few operations on text that the rest of the library
shares: spelling a number, cutting at a mark, and joining with a separator.
-/

namespace PageDesigner

/-- A finite sequence of characters. -/
abbrev Text := List Char

/-- Literals stand for the text they spell. -/
instance : Coe String Text := ⟨String.toList⟩

namespace Text

/-- The decimal spelling of a natural number. -/
def ofNat (number : Nat) : Text := Nat.toDigits 10 number

/-- The decimal spelling of an integer, with a minus sign when negative. -/
def ofInt : Int → Text
  | .ofNat number => ofNat number
  | .negSucc number => '-' :: ofNat (number + 1)

/-- Number of bytes the text takes in UTF-8. -/
def byteCount (text : Text) : Nat :=
  text.foldr (fun char total => char.utf8Size + total) 0

/--
The text before and after the first occurrence of `mark`, or `none` when the
mark does not occur.
-/
def cut? (mark : Text) : Text → Option (Text × Text)
  | [] => if mark.isEmpty then some ([], []) else none
  | char :: rest =>
      if mark.isPrefixOf (char :: rest) then
        some ([], (char :: rest).drop mark.length)
      else
        (cut? mark rest).map fun (before, after) => (char :: before, after)

/-- The given texts one after the other, with `separator` between neighbours. -/
def join (separator : Text) : List Text → Text
  | [] => []
  | [last] => last
  | first :: rest => first ++ separator ++ join separator rest

/-- The text, or nothing when the condition fails. -/
def onlyIf (condition : Bool) (text : Text) : Text := if condition then text else []

/-- The text without `suffix` at its end, when it ends that way. -/
def dropEnd? (suffix text : Text) : Option Text :=
  if suffix.isSuffixOf text then some (text.take (text.length - suffix.length)) else none

/-! ## Laws -/

@[simp]
theorem byteCount_nil : byteCount [] = 0 := rfl

@[simp]
theorem byteCount_cons (char : Char) (rest : Text) :
    byteCount (char :: rest) = char.utf8Size + byteCount rest := rfl

theorem byteCount_append (first second : Text) :
    byteCount (first ++ second) = byteCount first + byteCount second := by
  induction first with
  | nil => simp
  | cons char rest ih => simp [ih, Nat.add_assoc]

/-- Cutting loses nothing: the parts and the mark make up the text again. -/
theorem append_of_cut? {mark text before after : Text}
    (h : cut? mark text = some (before, after)) : text = before ++ mark ++ after := by
  induction text generalizing before with
  | nil =>
      unfold cut? at h
      split at h
      · next hmark =>
          obtain ⟨rfl, rfl⟩ := Prod.mk.inj (Option.some.inj h)
          simp [List.isEmpty_iff.mp hmark]
      · contradiction
  | cons char rest ih =>
      unfold cut? at h
      split at h
      · next hmark =>
          obtain ⟨rfl, rfl⟩ := Prod.mk.inj (Option.some.inj h)
          obtain ⟨tail, htail⟩ := List.isPrefixOf_iff_prefix.mp hmark
          rw [← htail]
          simp
      · obtain ⟨⟨first, second⟩, hcut, hpair⟩ := Option.map_eq_some_iff.mp h
          |>.imp fun _ found => found
        obtain ⟨rfl, rfl⟩ := Prod.mk.inj hpair
        simp [ih hcut]

end Text

end PageDesigner
