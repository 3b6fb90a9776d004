import PageDesigner.Command.Basic

/-!
# Command lines

A command line names a command, its operands in order, and options between
them.  An option is a switch, or it takes the word behind it as its value.  The
word `--` ends the options.
-/

namespace PageDesigner

/-- The words of a command line, by their role. -/
structure Arguments where
  operands : List Text
  switches : List Text
  settings : List (Text × Text)
  deriving DecidableEq, Repr

namespace Arguments

/-- The options without a value, in their short and long spelling. -/
def switchNames : List (Text × Text) :=
  [("-e", "--event"), ("-v", "--verbose"), ("--stdout", "--stdout"), ("--check", "--check")]

/-- The options with a value, in their short and long spelling. -/
def settingNames : List (Text × Text) := [("-o", "--output"), ("-s", "--select")]

/-- The long spelling of an option. -/
def longName? (names : List (Text × Text)) (word : Text) : Option Text :=
  (names.find? fun name => word = name.1 || word = name.2).map (·.2)

/-- The roles of the words of a command line; nothing for an option that is not known. -/
def read? : List Text → Option Arguments
  | [] => some ⟨[], [], []⟩
  | [word] =>
      match longName? switchNames word with
      | some name => some ⟨[], [name], []⟩
      | none => if word.head? = some '-' then none else some ⟨[word], [], []⟩
  | word :: next :: rest =>
      if word = "--" then some ⟨next :: rest, [], []⟩
      else
        match longName? switchNames word, longName? settingNames word with
        | some name, _ =>
            (read? (next :: rest)).map fun read => { read with switches := name :: read.switches }
        | none, some name =>
            (read? rest).map fun read => { read with settings := (name, next) :: read.settings }
        | none, none =>
            if word.head? = some '-' then none
            else (read? (next :: rest)).map fun read =>
              { read with operands := word :: read.operands }

/-- Whether a switch is given. -/
def has (arguments : Arguments) (name : Text) : Bool := arguments.switches.contains name

/-- The values given for a setting. -/
def values (arguments : Arguments) (name : Text) : List Text :=
  (arguments.settings.filter (·.1 = name)).map (·.2)

/-- The pieces of a text between commas. -/
def commaPieces : Text → List Text
  | [] => [[]]
  | ',' :: rest => [] :: commaPieces rest
  | char :: rest => (commaPieces rest).modifyHead (char :: ·)

end Arguments

namespace Command

/-- The command that the words of a command line ask for. -/
def ofArguments? (arguments : Arguments) : Option Command :=
  match arguments.operands with
  | [] => none
  | name :: operands =>
      match String.ofList name, operands with
      | "render", [file] =>
          some (.render ⟨file⟩ ((arguments.values "--output").getLast?.map FilePath.mk)
            (arguments.has "--stdout")
            ((arguments.values "--select").flatMap Arguments.commaPieces))
      | "normalize", [] => some (.normalize "." (arguments.has "--check"))
      | "normalize", [path] => some (.normalize ⟨path⟩ (arguments.has "--check"))
      | "set", file :: id :: property :: rest =>
          if 1 < rest.length then none
          else if arguments.has "--event" then some (.setHandler ⟨file⟩ id property rest.head?)
          else some (.setProperty ⟨file⟩ id property rest.head?)
      | "remove", file :: id :: ids => some (.remove ⟨file⟩ (id :: ids))
      | _, _ => none

/-- The path of the page or pages of a command. -/
def path : Command → FilePath
  | render file _ _ _ | setProperty file _ _ _ | setHandler file _ _ _ | remove file _ => file
  | normalize path _ => path

/-- How commands are written. -/
def usage : Text :=
  Text.join "\n"
    ["Usage:",
      "  pagedesigner render FILE [-o OUTPUT] [--stdout] [-s ID,ID...]",
      "  pagedesigner normalize [PATH] [--check]",
      "  pagedesigner set FILE ID PROPERTY [VALUE] [-e]",
      "  pagedesigner remove FILE ID..."]

end Command

end PageDesigner
