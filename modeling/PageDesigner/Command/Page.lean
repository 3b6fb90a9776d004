import PageDesigner.Command.Session
import PageDesigner.Host.Components

/-!
# Pages of a command

A command opens a page file in a host of its own, changes it through the host,
and writes the file back when the text has changed.
-/

namespace PageDesigner

/-- A page file that is loaded into a host. -/
structure OpenPage where
  path : FilePath
  host : Host
  report : ScanReport
  /-- The text that the file holds. -/
  stored : Text

namespace OpenPage

open CommandSession (Action readFile onTree notify)

/-- Open a page file with the settings of a folder. -/
def load (folder path : FilePath) (config : Config) : Action OpenPage := do
  let stored ← readFile path (.cannotRead path)
  let host := Host.new .standard .standard (config.options folder)
  match Host.load stored host with
  | .ok report host => pure ⟨path, host, report, stored⟩
  | .error cause _ => throw (.cannotLoad path cause)

/-- Do something through the host of the page. -/
def onHost {α : Type} (page : OpenPage) (action : Host.Action α) : Action (α × OpenPage) :=
  match action page.host with
  | .ok result host => pure (result, { page with host })
  | .error cause _ => throw (.design cause)

/-- The markup of the page, once the host has settled. -/
def text (page : OpenPage) : Text :=
  match Host.settle page.host with
  | .ok _ host | .error _ host => (host.document?.map (·.text)).getD []

/-- Whether the markup differs from the file. -/
def isChanged (page : OpenPage) : Bool := page.text != page.stored

/-- Write the markup back if it differs from the file; tells whether it does. -/
def save (page : OpenPage) : Action Bool := do
  if page.isChanged then
    onTree (FileTree.write page.path page.text) (.cannotWrite page.path)
  pure page.isChanged

/-- Print what the first scan found wrong. -/
def notifyIssues (page : OpenPage) : Action Unit := notify (page.report.issues.map .issue)

/-- Open a page of a folder and print what is wrong with it. -/
def ofFile (folder file : FilePath) : Action (Config × OpenPage) := do
  let config ← CommandSession.config folder
  let page ← load folder (folder.join file) config
  page.notifyIssues
  pure (config, page)

end OpenPage

end PageDesigner
