import PageDesigner.Text.Numeral

/-!
# Character references

An attribute value may spell a character as a reference: `&amp;`, `&#34;` or
`&#x3C;`.  Reading is lenient.  An ampersand that does not start a known
reference of at most ten characters stands for itself.

The writing side replaces only the characters that would end the value or start
a reference, so what it writes reads back as the text that was given.
-/

namespace PageDesigner.Reference

/-- The references with a name. -/
def named : List (Text × Char) :=
  [("amp", '&'), ("quot", '"'), ("apos", '\''), ("lt", '<'), ("gt", '>'), ("nbsp", '\u00a0')]

/-- The most characters that may stand between `&` and `;`. -/
def maxLength : Nat := 10

/-- The code point a numeric reference spells behind its number sign. -/
def code? : Text → Option Nat
  | 'x' :: digits => Text.signedNatural? 16 digits
  | 'X' :: digits => Text.signedNatural? 16 digits
  | digits => Text.signedNatural? 10 digits

/-- The character with a given code point; surrogates have none. -/
def character? (code : Nat) : Option Char :=
  if code.isValidChar then some (Char.ofNat code) else none

/-- The character that the text between `&` and `;` refers to. -/
def resolve? (name : Text) : Option Char :=
  match named.lookup name with
  | some char => some char
  | none =>
      match name with
      | '#' :: number => (code? number).bind character?
      | _ => none

/--
The character referred to by the text behind an ampersand, with the number of
characters the reference takes there.
-/
def read? (rest : Text) : Option (Char × Nat) :=
  let name := rest.takeWhile (· != ';')
  if 0 < name.length ∧ name.length ≤ maxLength ∧ name.length < rest.length then
    (resolve? name).map fun char => (char, name.length + 1)
  else none

/-- Decode the text behind the next `skip` characters. -/
def decodeFrom : Nat → Text → Text
  | _, [] => []
  | skip + 1, _ :: rest => decodeFrom skip rest
  | 0, char :: rest =>
      if char = '&' then
        match read? rest with
        | some (decoded, length) => decoded :: decodeFrom length rest
        | none => '&' :: decodeFrom 0 rest
      else char :: decodeFrom 0 rest

/-- The text with its character references replaced by their characters. -/
def decode (text : Text) : Text := decodeFrom 0 text

/-- How a character is written inside a double-quoted attribute value. -/
def escapeAttributeChar : Char → Text
  | '&' => "&amp;"
  | '"' => "&quot;"
  | '<' => "&lt;"
  | '>' => "&gt;"
  | char => [char]

/-- How a character is written between tags. -/
def escapeTextChar : Char → Text
  | '&' => "&amp;"
  | '<' => "&lt;"
  | '>' => "&gt;"
  | char => [char]

/-- The text as written inside a double-quoted attribute value. -/
def escapeAttribute (text : Text) : Text := text.flatMap escapeAttributeChar

/-- The text as written between tags. -/
def escapeText (text : Text) : Text := text.flatMap escapeTextChar

end PageDesigner.Reference
