import PageDesigner.Command.Config
import PageDesigner.Host.Basic

/-!
# Command sessions

A command works on a tree of files and prints: text on the output, and notices
beside it.  It ends well or with the reason why it could not go on.
-/

namespace PageDesigner

/-- Why a command failed. -/
inductive CommandError where
  | badConfig
  | cannotRead (path : FilePath) (cause : FileError)
  | cannotLoad (path : FilePath) (cause : DesignError)
  | cannotWrite (path : FilePath) (cause : FileError)
  | file (cause : FileError)
  | design (cause : DesignError)
  | pagesNotLoaded (count : Nat)
  | pagesNotNormalized (count : Nat)
  deriving DecidableEq, Repr

namespace CommandError

/-- A failure of the designer with what it goes back to. -/
def reasonOf (cause : DesignError) : Text :=
  match cause with
  | .conversion reason => cause.message ++ ": " ++ reason.message
  | _ => cause.message

/-- What the command was doing, when the failure says so, and why it failed. -/
def parts : CommandError → Option Text × Text
  | badConfig => (none, "The configuration cannot be read")
  | cannotRead path cause => (some ("Cannot read " ++ path.text), cause.message)
  | cannotLoad path cause => (some ("Cannot load " ++ path.text), reasonOf cause)
  | cannotWrite path cause => (some ("Cannot write " ++ path.text), cause.message)
  | file cause => (none, cause.message)
  | design cause => (none, reasonOf cause)
  | pagesNotLoaded count => (none, Text.ofNat count ++ " page(s) could not be loaded")
  | pagesNotNormalized count => (none, Text.ofNat count ++ " page(s) are not normalized")

/-- The sentence that reports the failure. -/
def message (failure : CommandError) : Text :=
  match failure.parts with
  | (some doing, reason) => doing ++ ": " ++ reason
  | (none, reason) => reason

/-- The outermost part of the report. -/
def summary (failure : CommandError) : Text := failure.parts.1.getD failure.parts.2

end CommandError

/-- What a command prints beside its output. -/
inductive Notice where
  | issue (found : Issue)
  /-- A page was passed over. -/
  | notLoaded (page : Text) (cause : CommandError)
  /-- The markup of a page has a flaw. -/
  | flaw (page : FilePath) (diagnostic : Diagnostic)
  deriving DecidableEq, Repr

/-- The line that prints a notice. -/
def Notice.text : Notice → Text
  | issue found => "  ⚠ " ++ found.text
  | notLoaded page cause => "  ✗ " ++ page ++ " - " ++ cause.summary
  | flaw page diagnostic =>
      page.text ++ ":" ++ diagnostic.region.first.text ++ ": " ++ diagnostic.header

/-- The files that commands work on, and what they printed. -/
structure CommandSession where
  tree : FileTree
  output : Text
  notices : List Notice
  deriving DecidableEq, Repr

namespace CommandSession

/-- What a command does. -/
abbrev Action (α : Type) := EStateM CommandError CommandSession α

/-- A session in which nothing was printed. -/
def ofTree (tree : FileTree) : CommandSession := ⟨tree, [], []⟩

/-- Print a line on the output. -/
def printLine (line : Text) : Action Unit :=
  modify fun session => { session with output := session.output ++ line ++ "\n" }

/-- Print notices. -/
def notify (notices : List Notice) : Action Unit :=
  modify fun session => { session with notices := session.notices ++ notices }

/-- The outcome of an action, with what it did in either case. -/
def attempt {α : Type} (action : Action α) : Action (Except CommandError α) := fun session =>
  match action session with
  | .ok result session => .ok (.ok result) session
  | .error failure session => .ok (.error failure) session

/-- The content of a file. -/
def readFile (path : FilePath) (failure : FileError → CommandError) : Action Text := do
  match (← get).tree.read path with
  | .ok content => pure content
  | .error cause => throw (failure cause)

/-- Change the tree of files. -/
def onTree (action : FileTree.Action Unit) (failure : FileError → CommandError) : Action Unit :=
  fun session =>
    match action session.tree with
    | .ok _ tree => .ok () { session with tree }
    | .error cause tree => .error (failure cause) { session with tree }

/-- The configuration of a folder. -/
def config (folder : FilePath) : Action Config := do
  let path := folder.join Config.fileName
  if (← get).tree.holds path then
    match Config.parse? (← readFile path .file) with
    | some config => pure config
    | none => throw .badConfig
  else pure .standard

end CommandSession

end PageDesigner
