import PageDesigner.Text.Case

/-!
# Names of elements and attributes

A name may carry a namespace in front of a colon, as in `asp:Button`.  A colon
with nothing on one of its sides separates nothing and belongs to the name.
-/

namespace PageDesigner

/-- Element or attribute name with an optional namespace. -/
structure Name where
  space : Option Text
  base : Text
  deriving DecidableEq, Repr, Inhabited

namespace Name

/-- Read a written name; the first colon separates the namespace. -/
def ofText (written : Text) : Name :=
  match Text.cut? ":" written with
  | some (space, base) =>
      if space.isEmpty || base.isEmpty then ⟨none, written⟩ else ⟨some space, base⟩
  | none => ⟨none, written⟩

/-- The name as written. -/
def text : Name → Text
  | ⟨some space, base⟩ => space ++ ":" ++ base
  | ⟨none, base⟩ => base

/-- Whether the name has a namespace. -/
def isQualified (name : Name) : Bool := name.space.isSome

/-- Whether the part behind the namespace is `base`, up to letter case. -/
def is (name : Name) (base : Text) : Bool := name.base.sameName base

/-- Whether the whole written name is `written`, up to letter case. -/
def isWritten (name : Name) (written : Text) : Bool := name.text.sameName written

/-- Reading a name keeps every character of it. -/
@[simp]
theorem text_ofText (written : Text) : (ofText written).text = written := by
  unfold ofText
  split
  · next space base hcut =>
      split
      · rfl
      · simpa [text] using (Text.append_of_cut? hcut).symm
  · rfl

end Name

/-- Characters that may start the name of a tag. -/
def startsTagName (char : Char) : Bool := char.isAlpha || char == '_'

/-- Characters that may start a name inside a tag. -/
def startsName (char : Char) : Bool := startsTagName char || char == ':'

/-- Characters that may continue a name. -/
def continuesName (char : Char) : Bool :=
  char.isAlphanum || char == '_' || char == ':' || char == '.' || char == '-'

end PageDesigner
