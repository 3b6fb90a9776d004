import PageDesigner.Document.Options
import PageDesigner.Files.Tree
import PageDesigner.Json.Record

/-!
# Configuration

A folder of pages may hold a configuration: a JSON record with the scripts and
style sheets of the design surface, the bound on scan passes and the folder
where rendered pages go.  Every field may be left out.
-/

namespace PageDesigner

/-- The settings for a folder of pages. -/
structure Config where
  /-- The folder of the scripts and style sheets of the surface. -/
  contextDir? : Option Text
  scripts : List Text
  styleSheets : List Text
  maxScanPasses : Nat
  /-- The folder where rendered pages go. -/
  outDir? : Option Text
  deriving DecidableEq, Repr

namespace Config

/-- The settings of a folder without a configuration. -/
def standard : Config := ⟨none, [], [], Options.defaultScanPasses, none⟩

/-- The name of the file with the configuration. -/
def fileName : FilePath := "formsmith.config.json"

open JsonValue (fieldOr)

/-- The names of the fields, in the order of declaration. -/
def fieldNames : List Text :=
  ["designerContextDir", "scripts", "styleSheets", "maxScanPasses", "outDir"]

/-- The settings that the fields of a record state. -/
def ofFields? : RecordFields → Option Config
  | [contextDir, scripts, styleSheets, maxScanPasses, outDir] => do
      let contextDir? ← fieldOr standard.contextDir? JsonValue.optionalText? contextDir
      let scripts ← fieldOr standard.scripts JsonValue.texts? scripts
      let styleSheets ← fieldOr standard.styleSheets JsonValue.texts? styleSheets
      let passes ← fieldOr standard.maxScanPasses
        (fun value => value.uint64?.map UInt64.toNat) maxScanPasses
      let outDir? ← fieldOr standard.outDir? JsonValue.optionalText? outDir
      some ⟨contextDir?, scripts, styleSheets, passes, outDir?⟩
  | _ => none

/-- The settings that a JSON document states. -/
def parse? (text : Text) : Option Config := do
  ofFields? (← (← JsonValue.parse? text).fieldsOnce? fieldNames)

/-! ## What the settings mean in a folder -/

/--
The address of a script or style sheet.  An address with a scheme stands for
itself; any other is a file in the context folder, when there is one.
-/
def contextUrl (config : Config) (folder : FilePath) (address : Text) : Text :=
  if (Text.cut? "://" address).isSome then address
  else
    match config.contextDir? with
    | some dir => "file://" ++ ((folder.join ⟨dir⟩).join ⟨address⟩).text
    | none => address

/-- The options of the designer for pages of a folder. -/
def options (config : Config) (folder : FilePath) : Options :=
  let urls := List.map (config.contextUrl folder)
  { Options.standard with
    context := Options.contextOf (urls config.scripts) (urls config.styleSheets) }
    |>.withScanPasses config.maxScanPasses

/-- The folder where rendered pages go. -/
def outFolder? (config : Config) (folder : FilePath) : Option FilePath :=
  config.outDir?.map fun dir => folder.join ⟨dir⟩

/--
Where a rendered page goes: to the path asked for, or else to a file in the
folder for rendered pages.
-/
def target? (config : Config) (folder page : FilePath) (asked? : Option FilePath) :
    Option FilePath :=
  match asked? with
  | some asked => some (folder.join asked)
  | none => do
      let out ← config.outFolder? folder
      let name ← page.name?
      some (out.join ⟨name ++ ".html"⟩)

end Config

end PageDesigner
