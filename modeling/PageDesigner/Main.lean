import PageDesigner.Command.Arguments

/-!
# The program

Reads the files that a command may use, runs the command on them, writes what
it changed, and prints what it has to say.
-/

namespace PageDesigner

/-- The files that a command may read: the configuration and the pages at its path. -/
def filesFor (command : Command) : IO (List (FilePath × Text)) := do
  let here ← IO.currentDir
  let root := here / String.ofList command.path.text
  let found ← if ← root.isDir then root.walkDir else pure #[root]
  let mut files := []
  for path in (here / String.ofList Config.fileName.text) :: found.toList do
    let name : FilePath := ⟨path.toString.toList⟩
    let isWanted := path == root || name.isPage || name.name? = Config.fileName.text
    if isWanted && (← path.pathExists) && !(← path.isDir) then
      files := (name, (← IO.FS.readFile path).toList) :: files
  return files

/-- Write the files that a command made or changed. -/
def writeChanges (before after : FileTree) : IO Unit := do
  let here ← IO.currentDir
  for (place, content) in after.changesSince before [] do
    let path := here / ("/" ++ String.ofList (Text.join ['/'] place))
    if let some folder := path.parent then IO.FS.createDirAll folder
    IO.FS.writeFile path (String.ofList content)

/-- Run a command in the current folder; gives the exit code. -/
def runCommand (command : Command) : IO UInt32 := do
  let folder : FilePath := ⟨(← IO.currentDir).toString.toList⟩
  let tree := FileTree.ofFiles [] folder (← filesFor command)
  let (failure?, session) := match Command.run folder command (.ofTree tree) with
    | .ok _ session => (none, session)
    | .error failure session => (some failure, session)
  writeChanges tree session.tree
  for notice in session.notices do
    IO.eprintln (String.ofList notice.text)
  IO.print (String.ofList session.output)
  match failure? with
  | none => return 0
  | some failure =>
      IO.eprintln ("\nError: " ++ String.ofList failure.message ++ "\n")
      return 1

/-- Run the command that the words of a command line ask for. -/
def runWords (words : List Text) : IO UInt32 := do
  match (Arguments.read? words).bind Command.ofArguments? with
  | some command => runCommand command
  | none =>
      IO.eprintln (String.ofList Command.usage)
      return 2

end PageDesigner

/-- The program. -/
def main (words : List String) : IO UInt32 := PageDesigner.runWords (words.map String.toList)
