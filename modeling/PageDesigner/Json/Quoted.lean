import PageDesigner.Text.Numeral

/-!
# JSON strings

Reading and writing the characters between the quotes of a JSON string.  An
escape may spell half of a surrogate pair.  A string with a half that has no
partner is well-formed but is not a text.
-/

namespace PageDesigner.Quoted

/-- A character of a string as written, or the code unit an escape spells. -/
inductive Unit where
  | char (char : Char)
  | code (value : Nat)
  deriving DecidableEq, Repr

/-- The character a one-letter escape stands for. -/
def escape? : Char → Option Char
  | '"' => some '"'
  | '\\' => some '\\'
  | '/' => some '/'
  | 'b' => some '\x08'
  | 'f' => some '\x0c'
  | 'n' => some '\n'
  | 'r' => some '\r'
  | 't' => some '\t'
  | _ => none

/--
The units of a string behind its opening quote, with the characters they take
through the closing quote.
-/
def units? : Text → Option (List Unit × Nat)
  | [] => none
  | '"' :: _ => some ([], 1)
  | '\\' :: 'u' :: first :: second :: third :: fourth :: rest =>
      match Text.natural? 16 [first, second, third, fourth], units? rest with
      | some value, some (units, taken) => some (.code value :: units, taken + 6)
      | _, _ => none
  | '\\' :: letter :: rest =>
      match escape? letter, units? rest with
      | some char, some (units, taken) => some (.char char :: units, taken + 2)
      | _, _ => none
  | char :: rest =>
      if char.toNat < 0x20 || char == '\\' then none
      else (units? rest).map fun (units, taken) => (.char char :: units, taken + 1)

/-- Whether a code unit is the first half of a surrogate pair. -/
def isHigh (value : Nat) : Bool := 0xD800 ≤ value && value < 0xDC00

/-- Whether a code unit is the second half of a surrogate pair. -/
def isLow (value : Nat) : Bool := 0xDC00 ≤ value && value < 0xE000

/-- The code point of a surrogate pair. -/
def paired (high low : Nat) : Nat := (high - 0xD800) * 0x400 + (low - 0xDC00) + 0x10000

/-- The text that units spell, unless half of a pair stands alone. -/
def text? : List Unit → Option Text
  | [] => some []
  | .char char :: rest => (text? rest).map (char :: ·)
  | .code high :: .code low :: rest =>
      if isHigh high then
        if isLow low then (text? rest).map (Char.ofNat (paired high low) :: ·) else none
      else if isLow high then none
      else (text? (.code low :: rest)).map (Char.ofNat high :: ·)
  | .code value :: rest =>
      if isHigh value || isLow value then none else (text? rest).map (Char.ofNat value :: ·)

/-- A hexadecimal digit, in small letters. -/
def hexDigit (value : Nat) : Char := Nat.digitChar value

/-- How a character is written between quotes. -/
def escapeChar (char : Char) : Text :=
  if char = '"' then "\\\""
  else if char = '\\' then "\\\\"
  else if char = '\n' then "\\n"
  else if char = '\r' then "\\r"
  else if char = '\t' then "\\t"
  else if char = '\x08' then "\\b"
  else if char = '\x0c' then "\\f"
  else if char.toNat < 0x20 then
    "\\u00" ++ [hexDigit (char.toNat / 16), hexDigit (char.toNat % 16)]
  else [char]

/-- The text as a JSON string. -/
def write (text : Text) : Text := "\"" ++ text.flatMap escapeChar ++ "\""

/-- The texts as a JSON array of strings. -/
def writeAll (texts : List Text) : Text := "[" ++ Text.join "," (texts.map write) ++ "]"

end PageDesigner.Quoted
