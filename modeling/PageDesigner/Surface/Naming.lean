import PageDesigner.Text.Case

/-!
# Site names

A site name looks like an identifier.  Names are unique up to letter case, and a
new name is the name of the type with the smallest number that is still free.
-/

namespace PageDesigner.Naming

/-- Whether a text may name a component. -/
def isValid : Text → Bool
  | [] => false
  | first :: rest =>
      (first.isAlpha || first == '_') && rest.all fun char => char.isAlphanum || char == '_'

/-- Whether a name is one of the given names, up to letter case. -/
def isTaken (names : List Text) (name : Text) : Bool := names.any (·.sameName name)

/-- The name numbered `number`. -/
def numbered (base : Text) (number : Nat) : Text := base ++ Text.ofNat number

/--
The base with the smallest positive number that makes it differ from every taken
name.  One of the first `taken.length + 1` numbers does.
-/
def unused (base : Text) (taken : List Text) : Text :=
  let candidates := (List.range (taken.length + 1)).map fun index => numbered base (index + 1)
  (candidates.find? fun name => !isTaken taken name).getD base

end PageDesigner.Naming
