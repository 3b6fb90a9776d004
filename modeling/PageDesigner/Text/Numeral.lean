import PageDesigner.Text.Case

/-!
# Numerals

Reading whole numbers from text.  A numeral is a nonempty run of digits of its
radix; signs are the business of the two readers that allow one.
-/

namespace PageDesigner.Text

/-- The value of a character as a digit of the given radix (at most sixteen). -/
def digit? (radix : Nat) (char : Char) : Option Nat :=
  let small := char.toLower
  let value :=
    if char.isDigit then some (char.toNat - '0'.toNat)
    else if 'a' ≤ small ∧ small ≤ 'f' then some (small.toNat - 'a'.toNat + 10)
    else none
  value.filter (· < radix)

/-- The number that extends `total` by the digits of the text. -/
def appendDigits? (radix total : Nat) : Text → Option Nat
  | [] => some total
  | char :: rest =>
      match digit? radix char with
      | some value => appendDigits? radix (total * radix + value) rest
      | none => none

/-- The number a nonempty run of digits spells. -/
def natural? (radix : Nat) : Text → Option Nat
  | [] => none
  | char :: rest => appendDigits? radix 0 (char :: rest)

/-- A number with an optional plus sign in front. -/
def signedNatural? (radix : Nat) : Text → Option Nat
  | '+' :: rest => natural? radix rest
  | text => natural? radix text

/-- A decimal integer with an optional sign, within the range of 64 bits. -/
def integer? (text : Text) : Option Int64 :=
  let value : Option Int :=
    match text with
    | '-' :: rest => (natural? 10 rest).map fun number => -(number : Int)
    | _ => (signedNatural? 10 text).map fun number => (number : Int)
  (value.filter fun number => Int64.minValue.toInt ≤ number ∧ number ≤ Int64.maxValue.toInt).map
    Int64.ofInt

end PageDesigner.Text
