import PageDesigner.Files.Path

/-!
# A tree of files

The commands work on a tree of files in memory: the folders, the files with
their content, and the folder in which paths that are not rooted start.  A place
in the tree is the list of names on the way down from its top.

A path is followed piece by piece, and every piece needs a folder to start from.
-/

namespace PageDesigner

/-- Where something is in a tree: the names from the top down. -/
abbrev Place := List Text

/-- Why a file or folder could not be used. -/
inductive FileError where
  | missing
  | taken
  | notFolder
  | folder
  deriving DecidableEq, Repr

/-- The sentence that reports a failure, with its system number. -/
def FileError.message : FileError → Text
  | missing => "No such file or directory (os error 2)"
  | taken => "File exists (os error 17)"
  | notFolder => "Not a directory (os error 20)"
  | folder => "Is a directory (os error 21)"

/-- Files and folders. -/
structure FileTree where
  /-- Where paths that are not rooted start. -/
  start : Place
  folders : List Place
  files : List (Place × Text)
  deriving DecidableEq, Repr

namespace FileTree

/-- What an operation on a tree may change, and how it may fail. -/
abbrev Action (α : Type) := EStateM FileError FileTree α

/-- A tree that holds nothing but the folder where paths start. -/
def empty (start : Place) : FileTree := ⟨start, (List.range (start.length + 1)).map start.take, []⟩

/-! ## Following paths -/

/-- Whether there is a folder at a place. -/
def isFolder (tree : FileTree) (place : Place) : Bool := tree.folders.contains place

/-- The content of the file at a place. -/
def content? (tree : FileTree) (place : Place) : Option Text := tree.files.lookup place

/-- The folder at a place, or why there is none. -/
def folderAt (tree : FileTree) (place : Place) : Except FileError Place :=
  if tree.isFolder place then .ok place
  else if (tree.content? place).isSome then .error .notFolder
  else .error .missing

/-- Follow one piece of a path from a folder. -/
def follow (tree : FileTree) (place : Place) (piece : Text) : Except FileError Place := do
  let folder ← tree.folderAt place
  match FilePath.part? piece with
  | some (.entry name) => pure (folder ++ [name])
  | some .outer => pure folder.dropLast
  | _ => pure folder

/-- The place where a path starts. -/
def startOf (tree : FileTree) (path : FilePath) : Place := if path.isRooted then [] else tree.start

/-- The place that a path leads to, where there may be nothing yet. -/
def placeOf (tree : FileTree) (path : FilePath) : Except FileError Place :=
  if path.text = [] then .error .missing else path.pieces.foldlM tree.follow (tree.startOf path)

/-- The folder that a path leads to. -/
def folderOf (tree : FileTree) (path : FilePath) : Except FileError Place := do
  tree.folderAt (← tree.placeOf path)

/-! ## Reading -/

/-- The content of the file that a path leads to. -/
def read (tree : FileTree) (path : FilePath) : Except FileError Text := do
  let place ← tree.placeOf path
  match tree.content? place with
  | some content => .ok content
  | none => if tree.isFolder place then .error .folder else .error .missing

/-- Whether a path leads to a file or folder. -/
def holds (tree : FileTree) (path : FilePath) : Bool :=
  match tree.read path with
  | .ok _ | .error .folder => true
  | .error _ => false

/-- Whether a name comes in front of another: by the first character that differs. -/
def comesFirst (first second : Text) : Bool :=
  List.lex first second fun char other => decide (char.toNat < other.toNat)

/-- The files below a folder, by the names on the way down, in the order of these. -/
def filesBelow (tree : FileTree) (folder : Place) : List (Place × Text) :=
  let below := tree.files.filterMap fun (place, content) =>
    if folder.isPrefixOf place then some (place.drop folder.length, content) else none
  below.mergeSort fun first second => !List.lex second.1 first.1 comesFirst

/--
The pages that a path leads to, each with the rest of its path: the file itself,
or the page files below a folder in the order of their names.
-/
def pagesAt (tree : FileTree) (path : FilePath) : List (FilePath × Text) :=
  match tree.read path with
  | .ok _ => [(path, [])]
  | .error _ =>
      match tree.folderOf path with
      | .error _ => []
      | .ok folder =>
          (tree.filesBelow folder).filterMap fun (names, _) =>
            let rest := Text.join ['/'] names
            let page := path.join ⟨rest⟩
            if page.isPage then some (page, rest) else none

/-! ## Writing -/

/-- Put a file at a place. -/
def put (tree : FileTree) (place : Place) (content : Text) : FileTree :=
  { tree with files := (place, content) :: tree.files.filter (·.1 != place) }

/-- The path without the slashes at its end. -/
def withoutSlash (path : FilePath) : List Text :=
  (path.pieces.reverse.dropWhile (· == [])).reverse

/--
Write the file that a path leads to.  Its folder must be there, and the path has
to end in a name.
-/
def write (path : FilePath) (content : Text) : Action Unit := fun tree =>
  let pieces := withoutSlash path
  let written := do
    let folder ← tree.folderAt (← pieces.dropLast.foldlM tree.follow (tree.startOf path))
    match pieces.getLast?.bind FilePath.part? with
    | some (.entry name) =>
        if pieces ≠ path.pieces || tree.isFolder (folder ++ [name]) then .error FileError.folder
        else pure (tree.put (folder ++ [name]) content)
    | _ => .error .folder
  match written with
  | .ok tree => .ok () tree
  | .error failure => .error failure tree

/-- The place that parts of a path lead to from a place. -/
def placeOfParts (tree : FileTree) (start : Place) (parts : List PathPart) :
    Except FileError Place :=
  parts.foldlM (fun place part => do
      let folder ← tree.folderAt place
      match part with
      | .here => pure folder
      | .outer => pure folder.dropLast
      | .entry name => pure (folder ++ [name]))
    start

/-- Make one folder, unless it is there. -/
def makeFolder (start : Place) (parts : List PathPart) : Action Unit := fun tree =>
  match tree.placeOfParts start parts with
  | .error failure => .error failure tree
  | .ok place =>
      match tree.folderAt place with
      | .ok _ => .ok () tree
      | .error .missing => .ok () { tree with folders := tree.folders ++ [place] }
      | .error _ => .error .taken tree

/--
Make a folder and those around it that are missing.  The parts of its path are
given from the last to the first.
-/
def makeFolders (start : Place) : List PathPart → Action Unit
  | [] => pure ()
  | part :: outer => fun tree =>
      let make := makeFolder start (part :: outer).reverse
      match make tree with
      | .error .missing tree => (do makeFolders start outer; make) tree
      | outcome => outcome

/-- Write a file and make the folders on the way to it. -/
def writeBelow (path : FilePath) (content : Text) : Action Unit := do
  let start := (← get).startOf path
  makeFolders start path.parts.reverse.tail
  write path content

/-- A tree with one folder that holds the given files. -/
def ofFiles (start : Place) (folder : FilePath) (files : List (FilePath × Text)) : FileTree :=
  let fill : Action Unit := do
    makeFolders start folder.parts.reverse
    files.forM fun (path, content) => writeBelow (folder.join path) content
  match fill (empty start) with
  | .ok _ tree | .error _ tree => tree

/-- The files below a folder that were made or changed since the tree was `before`. -/
def changesSince (tree before : FileTree) (folder : Place) : List (Place × Text) :=
  let old := before.filesBelow folder
  (tree.filesBelow folder).filter fun file => !old.contains file

end FileTree

end PageDesigner
