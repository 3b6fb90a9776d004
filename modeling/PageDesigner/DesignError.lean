import PageDesigner.Control.Value
import PageDesigner.Text.Location

/-!
# What can go wrong in a design session

Each failure is recorded by its cause.  The sentence that reports it is a
function of the cause.
-/

namespace PageDesigner

/-- Why an operation of the designer was refused. -/
inductive DesignError where
  | alreadyActivated
  | notLoaded
  | hostNotReset
  | transactionOutOfOrder (closing current : Text)
  | transactionClosed (description : Text)
  | duplicateName (name : Text)
  | invalidName (name : Text)
  | pageNotAllowed (typeName : Text)
  | unknownType (typeName : Text)
  | componentNotFound (name : Text)
  | propertyNotFound (component property : Text)
  | tagNotFound (id : Text)
  | unterminatedTag (name : Text) (place : Location)
  | duplicateDirective (name : Text)
  | unknownDirective (key : Nat)
  | noInsertionPoint
  | scanDidNotConverge (passes : Nat)
  | conversion (cause : ConversionError)
  | ownerGone
  | io (reason : Text)
  deriving DecidableEq, Repr

/-- The sentence that reports a failure. -/
def DesignError.message : DesignError → Text
  | alreadyActivated => "The designer host has already been activated"
  | notLoaded => "The designer host has no document loaded"
  | hostNotReset => "The designer host must be reset before loading a new document"
  | transactionOutOfOrder closing current =>
      "Transaction '" ++ closing ++ "' closed while '" ++ current ++ "' is still open"
  | transactionClosed description =>
      "Transaction '" ++ description ++ "' has already been closed"
  | duplicateName name => "A component named '" ++ name ++ "' already exists"
  | invalidName name => "'" ++ name ++ "' is not a valid component name"
  | pageNotAllowed typeName =>
      "Pages cannot be added as components; use a new file instead (" ++ typeName ++ ")"
  | unknownType typeName => "No component type is registered for '" ++ typeName ++ "'"
  | componentNotFound name => "Component '" ++ name ++ "' does not exist"
  | propertyNotFound component property =>
      "Component '" ++ component ++ "' has no property '" ++ property ++ "'"
  | tagNotFound id => "No control tag with id '" ++ id ++ "' in the document"
  | unterminatedTag name place =>
      "Tag <" ++ name ++ "> at " ++ place.text ++ " has no closing tag"
  | duplicateDirective name => "Only one " ++ name ++ " directive is allowed per document"
  | unknownDirective key => "No directive with placeholder key " ++ Text.ofNat key
  | noInsertionPoint => "The document has no <body> to insert controls into"
  | scanDidNotConverge passes =>
      "Control scan did not settle after " ++ Text.ofNat passes ++ " passes"
  | conversion cause => "Conversion error: " ++ cause.message
  | ownerGone => "Text buffer owner is gone"
  | io reason => "IO error: " ++ reason

end PageDesigner
