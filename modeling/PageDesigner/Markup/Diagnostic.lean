import PageDesigner.Text.Location

/-!
# Diagnostics

Reading markup never fails.  What is wrong with a page is collected as
diagnostics, each with a severity, the problem, and the region it concerns.
-/

namespace PageDesigner

/-- Something wrong with the markup, with the place where it was noticed. -/
inductive Problem where
  | unterminatedTag (name : Text) (place : Location)
  | strayClosingTag (name : Text) (place : Location)
  | malformedTag (name : Text) (place : Location) (reason : Text)
  | unterminatedComment (place : Location)
  | unterminatedServerBlock (place : Location)
  | unterminatedDirective (place : Location)
  deriving DecidableEq, Repr

namespace Problem

/-- The sentence that reports the problem. -/
def message : Problem → Text
  | unterminatedTag name place =>
      "Element <" ++ name ++ "> opened at " ++ place.text ++ " has no closing tag"
  | strayClosingTag name place =>
      "Closing tag </" ++ name ++ "> at " ++ place.text ++ " does not match any open element"
  | malformedTag name place reason =>
      "Malformed tag <" ++ name ++ "> at " ++ place.text ++ ": " ++ reason
  | unterminatedComment place => "Comment opened at " ++ place.text ++ " is never closed"
  | unterminatedServerBlock place => "Server block opened at " ++ place.text ++ " is never closed"
  | unterminatedDirective place => "Directive opened at " ++ place.text ++ " is never closed"

/-- The short label shown under the offending stretch of text. -/
def label : Problem → Text
  | unterminatedTag name _ => "<" ++ name ++ "> is never closed"
  | strayClosingTag _ _ => "no matching open element"
  | malformedTag _ _ reason => reason
  | unterminatedComment _ => "expected `-->`"
  | unterminatedServerBlock _ => "expected `%>`"
  | unterminatedDirective _ => "expected `%>`"

end Problem

/-- How serious a diagnostic is. -/
inductive Severity where
  | warning
  | error
  deriving DecidableEq, Repr

/-- The word for a severity in a report. -/
def Severity.text : Severity → Text
  | warning => "Warning"
  | error => "Error"

/-- A problem attached to a region of the markup. -/
structure Diagnostic where
  severity : Severity
  problem : Problem
  region : Region
  deriving DecidableEq, Repr

namespace Diagnostic

/-- The warning that an element was opened and never closed. -/
def unclosed (name : Text) (region : Region) : Diagnostic :=
  ⟨.warning, .unterminatedTag name region.first, region⟩

/-- Whether the diagnostic is about an element that was never closed. -/
def isUnclosed (diagnostic : Diagnostic) : Bool :=
  match diagnostic.problem with
  | .unterminatedTag _ _ => true
  | _ => false

/-- The headline of the diagnostic in a report. -/
def header (diagnostic : Diagnostic) : Text :=
  diagnostic.severity.text ++ ": " ++ diagnostic.problem.message

end Diagnostic

end PageDesigner
