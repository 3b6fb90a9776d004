import PageDesigner.Json.Record
import PageDesigner.Text.Blank

/-!
# Messages of the design surface

The surface talks back in JSON: an object with the name of the message and its
arguments, which are a JSON document of their own inside a string, or stand
there directly.  Anything else on the channel is plain status text and ignored.
-/

namespace PageDesigner

/-- A message of the design surface. -/
inductive SurfaceMessage where
  | selectionChanged (ids : List Text) (primary : UInt64)
  | contextMenu (x y : Int64) (id? : Option Text)
  deriving DecidableEq, Repr

namespace SurfaceMessage

open JsonValue (fieldOr)

/-- The arguments of a changed selection; both fields may be left out. -/
def selectionChanged? : RecordFields → Option SurfaceMessage
  | [ids, primary] => do
      let ids ← fieldOr [] JsonValue.texts? ids
      let primary ← fieldOr 0 JsonValue.uint64? primary
      some (.selectionChanged ids primary)
  | _ => none

/-- The arguments of a context menu; the component may be left out. -/
def contextMenu? : RecordFields → Option SurfaceMessage
  | [some x, some y, id] => do
      let x ← x.int64?
      let y ← y.int64?
      let id? ← fieldOr none JsonValue.optionalText? id
      some (.contextMenu x y id?)
  | _ => none

/-- How deep arguments that stand in the message itself may be nested. -/
def maxDepth : Nat := 126

/-- The fields of the arguments of a message. -/
def arguments? (names : List Text) : JsonValue → Option RecordFields
  | .string content? => do (← JsonValue.parse? (← content?)).fieldsOnce? names
  | value =>
      if value.isMeaningful && value.depth ≤ maxDepth then value.fieldsLast? names else none

/-- The message with the given name and arguments. -/
def named? (name : Text) (arguments : JsonValue) : Option SurfaceMessage :=
  if name.sameName "selection_changed" then
    (arguments? ["SelectedIds", "PrimarySelection"] arguments).bind selectionChanged?
  else if name.sameName "context_menu_request" then
    (arguments? ["X", "Y", "ComponentId"] arguments).bind contextMenu?
  else none

/-- Read a raw message; nothing for whatever is not a known message. -/
def parse? (raw : Text) : Option SurfaceMessage :=
  let raw := raw.trim
  if raw.head? != some '{' then none
  else do
    match ← (← JsonValue.parse? raw).fieldsOnce? ["MsgName", "Arguments"] with
    | [some name, arguments] => named? (← name.text?) (arguments.getD .null)
    | _ => none

end SurfaceMessage

end PageDesigner
