import PageDesigner.Command.Page

/-!
# Commands

The commands on page files: rendering a page to design-time HTML, giving every
control of pages an id, setting a property or handler, and removing controls.
Each works on the pages of one folder and the configuration there.
-/

namespace PageDesigner

/-- What is asked for. -/
inductive Command where
  /-- Render a page to a file, or to the output. -/
  | render (file : FilePath) (target? : Option FilePath) (toOutput : Bool) (selected : List Text)
  /-- Write missing ids into pages, or only report them. -/
  | normalize (path : FilePath) (check : Bool)
  /-- Set a property, or reset it without a value. -/
  | setProperty (file : FilePath) (id property : Text) (value? : Option Text)
  /-- Bind the handler of an event, or unbind it. -/
  | setHandler (file : FilePath) (id event : Text) (handler? : Option Text)
  /-- Remove controls with their tags. -/
  | remove (file : FilePath) (ids : List Text)
  deriving DecidableEq, Repr

namespace Command

open CommandSession (Action printLine notify onTree attempt)

/-! ## Rendering -/

/-- The design-time HTML of a page with the given selection. -/
def drawPage (selected : List Text) : Host.Action DesignHtml := do
  Host.activate
  if !selected.isEmpty then Host.select selected 0
  Host.serialize

/-- Render a page. -/
def runRender (folder file : FilePath) (asked? : Option FilePath) (toOutput : Bool)
    (selected : List Text) : Action Unit := do
  let (config, page) ← OpenPage.ofFile folder file
  let (html, _) ← page.onHost (drawPage selected)
  notify (html.warnings.map (.flaw page.path))
  match if toOutput then none else config.target? folder page.path asked? with
  | some target =>
      onTree (FileTree.writeBelow target html.html) .file
      printLine ("  ✓ " ++ file.text ++ " → " ++ target.text)
  | none => printLine html.html

/-! ## Normalizing -/

/-- How many pages were changed, and how many could not be loaded. -/
structure NormalizeCount where
  changed : Nat
  failed : Nat
  deriving DecidableEq, Repr

/-- Give the controls of one page ids; `name` is how reports call the page. -/
def normalizePage (folder path : FilePath) (name : Text) (config : Config) (check : Bool)
    (count : NormalizeCount) : Action NormalizeCount := do
  match ← attempt (OpenPage.load folder path config) with
  | .error cause =>
      notify [.notLoaded name cause]
      pure { count with failed := count.failed + 1 }
  | .ok page =>
      page.notifyIssues
      if !page.isChanged then pure count
      else
        let ids := Text.join ", " page.report.ids
        if check then printLine ("  • " ++ name ++ " needs ids: " ++ ids)
        else
          discard page.save
          printLine ("  ✓ " ++ name ++ " ← " ++ ids)
        pure { count with changed := count.changed + 1 }

/-- Give the controls of pages ids, one page after the other. -/
def normalizePages (folder : FilePath) (config : Config) (check : Bool) :
    List (FilePath × Text) → NormalizeCount → Action NormalizeCount
  | [], count => pure count
  | (path, name) :: others, count => do
      let count ← normalizePage folder path name config check count
      normalizePages folder config check others count

/-- The line that sums up how many of `total` pages were changed. -/
def normalizeSummary (check : Bool) (count : NormalizeCount) (total : Nat) : Text :=
  let mark : Text := if count.changed = 0 then "✅" else "✏️"
  let verb : Text := if check then "need ids" else "updated"
  mark ++ " " ++ Text.ofNat count.changed ++ " of " ++ Text.ofNat total ++ " page(s) " ++ verb

/-- Give the controls of all pages at a path ids. -/
def runNormalize (folder path : FilePath) (check : Bool) : Action Unit := do
  let config ← CommandSession.config folder
  let pages := (← get).tree.pagesAt (folder.join path)
  if pages.isEmpty then printLine "⚠️  No pages found"
  else
    let count ← normalizePages folder config check pages ⟨0, 0⟩
    printLine []
    printLine (normalizeSummary check count pages.length)
    if 0 < count.failed then throw (.pagesNotLoaded count.failed)
    if check && 0 < count.changed then throw (.pagesNotNormalized count.changed)

/-! ## Setting and removing -/

/-- Change a property or handler of a component and save the page. -/
def runSet (folder file : FilePath) (id property : Text) (value? : Option Text)
    (change : Host.Action Unit) : Action Unit := do
  let (_, page) ← OpenPage.ofFile folder file
  let (_, page) ← page.onHost change
  let shown := value?.getD "(default)"
  let place := id ++ "." ++ property
  if ← page.save then printLine ("  ✓ " ++ place ++ " = " ++ shown)
  else printLine ("  • " ++ place ++ " already " ++ shown)

/-- Remove controls in one transaction and save the page. -/
def runRemove (folder file : FilePath) (ids : List Text) : Action Unit := do
  let (_, page) ← OpenPage.ofFile folder file
  let (_, page) ← page.onHost (Host.withTransaction "Remove controls" (ids.forM Host.destroy))
  discard page.save
  ids.forM fun id => printLine ("  ✓ removed " ++ id)

/-- Run a command in a folder. -/
def run (folder : FilePath) : Command → Action Unit
  | render file asked? toOutput selected => runRender folder file asked? toOutput selected
  | normalize path check => runNormalize folder path check
  | setProperty file id property value? =>
      runSet folder file id property value?
        (match value? with
        | some value => Host.setPropertyText id property value
        | none => Host.resetProperty id property)
  | setHandler file id event handler? =>
      runSet folder file id event handler? (Host.setHandler id event handler?)
  | remove file ids => runRemove folder file ids

end Command

end PageDesigner
