import PageDesigner.Json.Numeral
import PageDesigner.Json.Quoted

/-!
# JSON values

A JSON document is split into tokens, and the tokens are read into a value.  The
reader is strict about the grammar: blanks are the four layout characters, and
nothing may stand behind the value.  It is lenient about meaning: a string that
is no text and a number out of range stay in the value, for whoever needs them
to refuse.
-/

namespace PageDesigner

/-- A token of a JSON document. -/
inductive JsonToken where
  | arrayOpen
  | arrayClose
  | objectOpen
  | objectClose
  | comma
  | colon
  | null
  | boolean (value : Bool)
  | number (numeral : Numeral)
  /-- A string, with its content if that is a text. -/
  | string (content? : Option Text)
  deriving DecidableEq, Repr

/-- A JSON value; members of an object are in the order of the document. -/
inductive JsonValue where
  | null
  | boolean (value : Bool)
  | number (numeral : Numeral)
  | string (content? : Option Text)
  | array (items : List JsonValue)
  | object (members : List (Option Text × JsonValue))

namespace JsonToken

/-- The blanks between tokens. -/
def isBlank (char : Char) : Bool :=
  char == ' ' || char == '\t' || char == '\n' || char == '\r'

/-- The words that are tokens. -/
def words : List (Text × JsonToken) :=
  [("null", .null), ("true", .boolean true), ("false", .boolean false)]

/-- The token at the start of a text, with the number of characters it takes. -/
def first? (text : Text) : Option (JsonToken × Nat) :=
  match text with
  | [] => none
  | '[' :: _ => some (.arrayOpen, 1)
  | ']' :: _ => some (.arrayClose, 1)
  | '{' :: _ => some (.objectOpen, 1)
  | '}' :: _ => some (.objectClose, 1)
  | ',' :: _ => some (.comma, 1)
  | ':' :: _ => some (.colon, 1)
  | '"' :: rest =>
      (Quoted.units? rest).map fun (units, taken) => (.string (Quoted.text? units), taken + 1)
  | _ =>
      match words.find? fun (word, _) => word.isPrefixOf text with
      | some (word, token) => some (token, word.length)
      | none => (Numeral.read? text).map fun (numeral, taken) => (.number numeral, taken)

/-- The tokens of a text behind its next `skip` characters. -/
def tokensFrom? : Nat → Text → Option (List JsonToken)
  | _, [] => some []
  | skip + 1, _ :: rest => tokensFrom? skip rest
  | 0, char :: rest =>
      if isBlank char then tokensFrom? 0 rest
      else
        match first? (char :: rest) with
        | none => none
        | some (token, taken) => (tokensFrom? (taken - 1) rest).map (token :: ·)

/-- The tokens of a text. -/
def tokens? (text : Text) : Option (List JsonToken) := tokensFrom? 0 text

end JsonToken

namespace JsonValue

mutual

/-- The value at the start of a list of tokens, within a bound on the nesting of calls. -/
def read? : Nat → List JsonToken → Option (JsonValue × List JsonToken)
  | 0, _ => none
  | bound + 1, tokens =>
      match tokens with
      | .null :: rest => some (.null, rest)
      | .boolean value :: rest => some (.boolean value, rest)
      | .number numeral :: rest => some (.number numeral, rest)
      | .string content? :: rest => some (.string content?, rest)
      | .arrayOpen :: .arrayClose :: rest => some (.array [], rest)
      | .arrayOpen :: rest => (readItems? bound rest).map fun (items, rest) => (.array items, rest)
      | .objectOpen :: .objectClose :: rest => some (.object [], rest)
      | .objectOpen :: rest =>
          (readMembers? bound rest).map fun (members, rest) => (.object members, rest)
      | _ => none

/-- One or more items and the end of their array. -/
def readItems? : Nat → List JsonToken → Option (List JsonValue × List JsonToken)
  | 0, _ => none
  | bound + 1, tokens =>
      match read? bound tokens with
      | some (item, .arrayClose :: rest) => some ([item], rest)
      | some (item, .comma :: rest) =>
          (readItems? bound rest).map fun (items, rest) => (item :: items, rest)
      | _ => none

/-- One or more members and the end of their object. -/
def readMembers? : Nat → List JsonToken → Option (List (Option Text × JsonValue) × List JsonToken)
  | 0, _ => none
  | bound + 1, tokens =>
      match tokens with
      | .string key :: .colon :: rest =>
          match read? bound rest with
          | some (value, .objectClose :: rest) => some ([(key, value)], rest)
          | some (value, .comma :: rest) =>
              (readMembers? bound rest).map fun (members, rest) => ((key, value) :: members, rest)
          | _ => none
      | _ => none

end

/-- The value of a JSON document. -/
def parse? (text : Text) : Option JsonValue := do
  let tokens ← JsonToken.tokens? text
  match read? (2 * tokens.length + 2) tokens with
  | some (value, []) => some value
  | _ => none

mutual

/-- How deep arrays and objects are nested. -/
def depth : JsonValue → Nat
  | array items => depthOfItems items + 1
  | object members => depthOfMembers members + 1
  | _ => 0

/-- The depth of the deepest item. -/
def depthOfItems : List JsonValue → Nat
  | [] => 0
  | item :: rest => max (depth item) (depthOfItems rest)

/-- The depth of the deepest member. -/
def depthOfMembers : List (Option Text × JsonValue) → Nat
  | [] => 0
  | (_, value) :: rest => max (depth value) (depthOfMembers rest)

end

mutual

/-- Whether every string is a text and every number is in range. -/
def isMeaningful : JsonValue → Bool
  | number numeral => numeral.isFinite
  | string content? => content?.isSome
  | array items => areMeaningful items
  | object members => areMeaningfulMembers members
  | _ => true

/-- Whether all items are meaningful. -/
def areMeaningful : List JsonValue → Bool
  | [] => true
  | item :: rest => isMeaningful item && areMeaningful rest

/-- Whether all members and their keys are meaningful. -/
def areMeaningfulMembers : List (Option Text × JsonValue) → Bool
  | [] => true
  | (key, value) :: rest => key.isSome && isMeaningful value && areMeaningfulMembers rest

end

end JsonValue

end PageDesigner
