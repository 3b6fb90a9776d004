import PageDesigner.Json.Value

/-!
# Records in JSON

A record with declared fields is written as an object with members of these
names, or as an array of the field values in the order of declaration.  Members
of other names are passed over, and an array may leave trailing fields out.

A record that is read from a document may state no field twice.  In a value that
was read as a whole before, the last member of a name counts.
-/

namespace PageDesigner

/-- The values stated for the declared fields of a record. -/
abbrev RecordFields := List (Option JsonValue)

namespace JsonValue

/-- The values of the members with the given name. -/
def membersNamed (members : List (Option Text × JsonValue)) (name : Text) : List JsonValue :=
  (members.filter fun member => member.1 == some name).map (·.2)

/-- The fields that an array of values states. -/
def positional? (names : List Text) (items : List JsonValue) : Option RecordFields :=
  if items.length ≤ names.length then
    some (items.map some ++ List.replicate (names.length - items.length) none)
  else none

/-- The fields of a record that is read from a document. -/
def fieldsOnce? (names : List Text) : JsonValue → Option RecordFields
  | array items => positional? names items
  | object members =>
      let stated := names.map (membersNamed members)
      if members.all (·.1.isSome) && stated.all (·.length ≤ 1) then some (stated.map (·.head?))
      else none
  | _ => none

/-- The fields of a record in a value that was read as a whole. -/
def fieldsLast? (names : List Text) : JsonValue → Option RecordFields
  | array items => positional? names items
  | object members => some (names.map fun name => (membersNamed members name).getLast?)
  | _ => none

/-! ## Field types -/

/-- A text. -/
def text? : JsonValue → Option Text
  | string content? => content?
  | _ => none

/-- A text or null. -/
def optionalText? : JsonValue → Option (Option Text)
  | null => some none
  | value => value.text?.map some

/-- An array of texts. -/
def texts? : JsonValue → Option (List Text)
  | array items => items.mapM text?
  | _ => none

/-- The integer of a number. -/
def integer? : JsonValue → Option Int
  | number numeral => numeral.integer?
  | _ => none

/-- An integer of 64 bits. -/
def int64? (value : JsonValue) : Option Int64 :=
  (value.integer?.filter fun number =>
    Int64.minValue.toInt ≤ number ∧ number ≤ Int64.maxValue.toInt).map Int64.ofInt

/-- A natural number of 64 bits. -/
def uint64? (value : JsonValue) : Option UInt64 :=
  (value.integer?.filter fun number => 0 ≤ number ∧ number.toNat < UInt64.size).map fun number =>
    UInt64.ofNat number.toNat

/-- A field, or what it is when it is not stated. -/
def fieldOr {α : Type} (absent : α) (read : JsonValue → Option α) : Option JsonValue → Option α
  | none => some absent
  | some value => read value

end JsonValue

end PageDesigner
