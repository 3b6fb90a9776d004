import PageDesigner.Text.Numeral
import PageDesigner.Text.Blank

/-!
# Property values and their markup form

A property holds a string, a 64-bit integer, a boolean, or a variant of an
enumeration.  A converter reads a value from the text of an attribute and writes
it back; it accepts exactly one kind of value.
-/

namespace PageDesigner

/-- The kinds of property values. -/
inductive ValueKind where
  | string
  | integer
  | boolean
  | enumeration
  deriving DecidableEq, Repr

/-- The word for a kind in reports. -/
def ValueKind.text : ValueKind → Text
  | string => "string"
  | integer => "integer"
  | boolean => "boolean"
  | enumeration => "enumeration"

/-- A typed property value; an enumeration value is the name of its variant. -/
inductive Value where
  | string (content : Text)
  | integer (number : Int64)
  | boolean (flag : Bool)
  | enumeration (variant : Text)
  deriving DecidableEq, Repr

namespace Value

/-- The kind of a value. -/
def kind : Value → ValueKind
  | string _ => .string
  | integer _ => .integer
  | boolean _ => .boolean
  | enumeration _ => .enumeration

/-- The text of a string or enumeration value. -/
def text? : Value → Option Text
  | string content => some content
  | enumeration variant => some variant
  | _ => none

/-- The number of an integer value. -/
def number? : Value → Option Int64
  | integer number => some number
  | _ => none

/-- The truth of a boolean value. -/
def flag? : Value → Option Bool
  | boolean flag => some flag
  | _ => none

/-- How a value is shown; booleans are capitalised as in markup. -/
def text : Value → Text
  | string content => content
  | enumeration variant => variant
  | integer number => Text.ofInt number.toInt
  | boolean true => "True"
  | boolean false => "False"

end Value

/-- Why a value and its markup form do not convert. -/
inductive ConversionError where
  | invalidValue (kind : ValueKind) (written : Text)
  | noConverter (property : Text)
  | typeMismatch (expected found : ValueKind)
  deriving DecidableEq, Repr

/-- The sentence that reports a failed conversion. -/
def ConversionError.message : ConversionError → Text
  | invalidValue kind written => "'" ++ written ++ "' is not a valid " ++ kind.text
  | noConverter property => "Property '" ++ property ++ "' has no string converter"
  | typeMismatch expected found =>
      "Expected a " ++ expected.text ++ " value, found " ++ found.text

/-- Reads and writes values of one kind. -/
inductive Converter where
  | string
  | integer
  | boolean
  | enumeration (variants : List Text)
  deriving DecidableEq, Repr

namespace Converter

/-- The kind of value the converter reads and writes. -/
def kind : Converter → ValueKind
  | string => .string
  | integer => .integer
  | boolean => .boolean
  | enumeration _ => .enumeration

/-- Read a value from its markup form. -/
def read (converter : Converter) (written : Text) : Except ConversionError Value :=
  match converter with
  | string => .ok (.string written)
  | integer =>
      match Text.integer? written.trim with
      | some number => .ok (.integer number)
      | none => .error (.invalidValue .integer written)
  | boolean =>
      if written.trim.sameName "true" then .ok (.boolean true)
      else if written.trim.sameName "false" then .ok (.boolean false)
      else .error (.invalidValue .boolean written.trim)
  | enumeration variants =>
      match variants.find? (Text.sameName · written.trim) with
      | some variant => .ok (.enumeration variant)
      | none => .error (.invalidValue .enumeration written)

/-- Write the markup form of a value. -/
def write (converter : Converter) (value : Value) : Except ConversionError Text :=
  match converter, value with
  | string, .string content => .ok content
  | integer, .integer _ => .ok value.text
  | boolean, .boolean _ => .ok value.text
  | enumeration variants, .enumeration variant =>
      if variants.contains variant then .ok variant
      else .error (.invalidValue .enumeration variant)
  | _, _ => .error (.typeMismatch converter.kind value.kind)

end Converter

end PageDesigner
