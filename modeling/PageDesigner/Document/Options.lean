import PageDesigner.Text.Basic

/-!
# Options of the designer

The markup injected into the head of design-time HTML, and how often a control
scan may start again.
-/

namespace PageDesigner

/-- What can be adjusted about a designer. -/
structure Options where
  /-- Markup at the start of `head` in design-time HTML. -/
  context : Text
  maxScanPasses : Nat
  deriving DecidableEq, Repr

namespace Options

/-- The passes a control scan may take unless told otherwise. -/
def defaultScanPasses : Nat := 64

/-- No context and the default number of passes. -/
def standard : Options := ⟨[], defaultScanPasses⟩

/-- The options with a number of passes, which is at least one. -/
def withScanPasses (options : Options) (passes : Nat) : Options :=
  { options with maxScanPasses := max passes 1 }

/-- The markup that loads a script. -/
def scriptMarkup (url : Text) : Text :=
  "<script type=\"text/javascript\" src=\"" ++ url ++ "\"></script>\n"

/-- The markup that loads a style sheet. -/
def styleMarkup (url : Text) : Text :=
  "<link rel=\"stylesheet\" type=\"text/css\" href=\"" ++ url ++ "\" />\n"

/-- The context that loads the given scripts and style sheets. -/
def contextOf (scripts styleSheets : List Text) : Text :=
  scripts.flatMap scriptMarkup ++ styleSheets.flatMap styleMarkup

end Options

/-- The markup of a new page with the given title. -/
def newPageMarkup (title : Text) : Text :=
  "<html>\n<head>\n\t<title>" ++ title ++
    "</title>\n</head>\n<body>\n<form runat=\"server\">\n\n</form></body>\n</html>"

end PageDesigner
