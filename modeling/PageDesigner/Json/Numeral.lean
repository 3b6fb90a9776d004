import PageDesigner.Text.Numeral

/-!
# JSON numerals

A numeral is kept as written: its sign, the digits in front of and behind the
point, and its exponent.  Two questions are asked of it: which integer it is,
and whether it lies in the range of double-precision numbers.
-/

namespace PageDesigner

/-- A number as written in JSON. -/
structure Numeral where
  isNegative : Bool
  whole : Text
  fraction : Text
  exponent? : Option Int
  deriving DecidableEq, Repr

namespace Numeral

/-- The value of a run of digits. -/
def digitsValue (digits : Text) : Nat := (Text.appendDigits? 10 0 digits).getD 0

/--
The integer the numeral spells.  Only plain digits spell integers: a fraction or
an exponent makes a number of another kind, and so does the sign of `-0`.
-/
def integer? (numeral : Numeral) : Option Int :=
  let value := digitsValue numeral.whole
  if !numeral.fraction.isEmpty || numeral.exponent?.isSome then none
  else if !numeral.isNegative then some value
  else if value = 0 then none
  else some (-value)

/-! ## Magnitude -/

/--
The number that extends `total` by digits, as long as it stays below the bound,
with the count of the digits that were taken.  The first digit that does not fit
ends it.
-/
def appendBelow (bound total : Nat) : Text → Nat × Nat
  | [] => (total, 0)
  | digit :: rest =>
      let extended := total * 10 + (Text.digit? 10 digit).getD 0
      if bound ≤ extended then (total, 0)
      else
        let (number, taken) := appendBelow bound extended rest
        (number, taken + 1)

/--
The numeral as a 64-bit number and a power of ten.  Digits in front of the point
that do not fit count for the power, and digits behind it that do not fit are
left out.
-/
def scaled (numeral : Numeral) : Nat × Int :=
  let (front, taken) := appendBelow UInt64.size 0 numeral.whole
  let (number, takenBehind) := appendBelow UInt64.size front numeral.fraction
  (number, numeral.exponent?.getD 0 + (numeral.whole.length - taken : Nat) - takenBehind)

/--
The nearest number that double precision holds, for numbers without an upper
bound: 53 binary digits and zeros behind them.  A tie goes to the even one.
-/
def toDouble (number : Nat) : Nat :=
  let unit := Nat.pow 2 (number.log2 + 1 - 53)
  let quotient := number / unit
  let twice := 2 * (number % unit)
  let isUp := unit < twice || (unit == twice && quotient % 2 == 1)
  (if isUp then quotient + 1 else quotient) * unit

/-- Numbers from here on are rounded to infinity in double precision. -/
def infinityBound : Nat := Nat.pow 2 1024 - Nat.pow 2 970

/-- The largest power of ten that double precision holds. -/
def maxPower : Nat := 308

/--
Whether the number lies in the range of double precision.  The number and the
power of ten are rounded first, each on its own, and then their product is; so
a number close to the bound may be out of range although it lies below.
-/
def isFinite (numeral : Numeral) : Bool :=
  match numeral.scaled with
  | (0, _) | (_, .negSucc _) => true
  | (number, .ofNat power) =>
      power ≤ maxPower && toDouble number * toDouble (Nat.pow 10 power) < infinityBound

/-! ## Reading -/

/-- The digits at the start of a text. -/
def digitsOf (text : Text) : Text := text.takeWhile Char.isDigit

/-- Digits behind a mark, if there is at least one. -/
def digitsBehind? : Text → Option Text
  | [] => none
  | _ :: rest => if (digitsOf rest).isEmpty then none else some (digitsOf rest)

/-- The whole part at the start of a text: a zero, or digits that start with no zero. -/
def whole? (text : Text) : Option Text :=
  match digitsOf text with
  | [] => none
  | '0' :: _ => some ['0']
  | digits => some digits

/-- The fraction at the start of a text with the characters it takes, if there is one. -/
def fraction? : Text → Option (Text × Nat)
  | '.' :: rest => (digitsBehind? ('.' :: rest)).map fun digits => (digits, digits.length + 1)
  | _ => some ([], 0)

/-- The digits of an exponent behind its optional sign. -/
def exponentDigits? : Text → Option (Int × Nat)
  | '-' :: rest =>
      (digitsBehind? ('-' :: rest)).map fun digits =>
        (-(digitsValue digits : Int), digits.length + 1)
  | '+' :: rest =>
      (digitsBehind? ('+' :: rest)).map fun digits =>
        ((digitsValue digits : Int), digits.length + 1)
  | text =>
      if (digitsOf text).isEmpty then none
      else some ((digitsValue (digitsOf text) : Int), (digitsOf text).length)

/-- The exponent at the start of a text with the characters it takes, if there is one. -/
def readExponent? : Text → Option (Option Int × Nat)
  | [] => some (none, 0)
  | char :: rest =>
      if char = 'e' ∨ char = 'E' then
        (exponentDigits? rest).map fun (exponent, taken) => (some exponent, taken + 1)
      else some (none, 0)

/-- The numeral at the start of a text, with the number of characters it takes. -/
def read? (text : Text) : Option (Numeral × Nat) := do
  let isNegative := text.head? == some '-'
  let sign := if isNegative then 1 else 0
  let unsigned := text.drop sign
  let whole ← whole? unsigned
  let (fraction, fractionLength) ← fraction? (unsigned.drop whole.length)
  let behind := whole.length + fractionLength
  let (exponent?, exponentLength) ← readExponent? (unsigned.drop behind)
  some (⟨isNegative, whole, fraction, exponent?⟩, sign + behind + exponentLength)

end Numeral

end PageDesigner
