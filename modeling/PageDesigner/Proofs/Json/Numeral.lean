import PageDesigner.Json.Numeral
import PageDesigner.Proofs.Text.Numeral

/-!
# Integers as JSON numerals

An integer is spelled in one way: plain decimal digits behind an optional sign.  This
numeral is read back in front of whatever does not go on with it (`read?_ofInt`), is the
integer again (`integer?_ofInt`), and lies in the range of double precision when the
integer fits into 64 bits (`isFinite_ofInt`).
-/

namespace PageDesigner

namespace Text

/-- Only zero is spelled with a zero in front. -/
theorem head?_ofNat {number : Nat} (positive : 0 < number) : (ofNat number).head? ≠ some '0' := by
  have table : ∀ digit < 10, 0 < digit → Nat.digitChar digit ≠ '0' := by decide
  unfold ofNat
  induction number using Nat.strongRecOn with
  | _ number ih =>
      by_cases small : number < 10
      · rw [Nat.toDigits_of_lt_base small]
        simpa using table number small positive
      · have front := ih (number / 10) (by omega) (by omega)
        rw [Nat.toDigits_of_base_le (by decide) (by omega), List.head?_append]
        cases digits : (Nat.toDigits 10 (number / 10)).head? with
        | none => exact absurd (List.head?_eq_none_iff.mp digits) Nat.toDigits_ne_nil
        | some digit =>
            rw [digits] at front
            exact front

end Text

namespace Numeral

/-- A numeral without fraction and exponent. -/
def plain (isNegative : Bool) (magnitude : Nat) : Numeral :=
  ⟨isNegative, Text.ofNat magnitude, [], none⟩

/-- The numeral that spells an integer. -/
def ofInt : Int → Numeral
  | .ofNat number => plain false number
  | .negSucc number => plain true (number + 1)

/-- The characters that a numeral can go on with behind its digits. -/
def continues (char : Char) : Bool := char.isDigit || char == '.' || char == 'e' || char == 'E'

/-! ## Reading -/

theorem digitsOf_ofNat (number : Nat) {next : Text} (stops : next.head?.any continues = false) :
    digitsOf (Text.ofNat number ++ next) = Text.ofNat number := by
  refine Piece.takeWhile_word ?_ ?_
  · exact List.all_eq_true.mpr fun _ => Text.isDigit_ofNat
  · cases next with
    | nil => rfl
    | cons char rest =>
        simp only [List.head?_cons, Option.any_some, continues, Bool.or_eq_false_iff] at stops ⊢
        exact stops.1.1.1

theorem whole?_ofNat (number : Nat) {next : Text} (stops : next.head?.any continues = false) :
    whole? (Text.ofNat number ++ next) = some (Text.ofNat number) := by
  unfold whole?
  rw [digitsOf_ofNat number stops]
  split
  · next none' => exact absurd none' (Text.ofNat_ne_nil number)
  · next rest zero =>
      cases number with
      | zero => rfl
      | succ number => exact absurd (by rw [zero]; rfl) (Text.head?_ofNat number.succ_pos)
  · rfl

theorem fraction?_of_stops {next : Text} (stops : next.head?.any continues = false) :
    fraction? next = some ([], 0) := by
  unfold fraction?
  split
  · cases stops
  · rfl

theorem readExponent?_of_stops {next : Text} (stops : next.head?.any continues = false) :
    readExponent? next = some (none, 0) := by
  cases next with
  | nil => rfl
  | cons char rest =>
      simp only [List.head?_cons, Option.any_some, continues, Bool.or_eq_false_iff,
        beq_eq_false_iff_ne] at stops
      have others : ¬ (char = 'e' ∨ char = 'E') := not_or.mpr ⟨stops.1.2, stops.2⟩
      unfold readExponent?
      dsimp only
      rw [if_neg others]

/-- Digits behind their sign are read as a plain numeral. -/
theorem read?_plain {isNegative : Bool} {text next : Text} {magnitude : Nat}
    (sign : (text.head? == some '-') = isNegative)
    (digits : text.drop (if isNegative then 1 else 0) = Text.ofNat magnitude ++ next)
    (stops : next.head?.any continues = false) :
    read? text = some (plain isNegative magnitude,
      (if isNegative then 1 else 0) + (Text.ofNat magnitude).length) := by
  have fraction := fraction?_of_stops stops
  have exponent := readExponent?_of_stops stops
  unfold read?
  simp only [sign, digits, whole?_ofNat magnitude stops, List.drop_left, fraction, exponent,
    Option.bind_eq_bind, Option.bind_some, Nat.add_zero]
  rfl

/-- A written integer starts with a digit or with its sign. -/
theorem head_ofInt (number : Int) :
    ∃ char more, Text.ofInt number = char :: more ∧ (char.isDigit = true ∨ char = '-') := by
  cases number with
  | ofNat number =>
      obtain ⟨digit, rest, shape, isDigit⟩ := Text.exists_digit number
      exact ⟨digit, rest, shape, .inl isDigit⟩
  | negSucc number => exact ⟨'-', _, rfl, .inr rfl⟩

/-- A written integer is read back in front of what does not go on with it. -/
theorem read?_ofInt (number : Int) {next : Text} (stops : next.head?.any continues = false) :
    read? (Text.ofInt number ++ next) = some (ofInt number, (Text.ofInt number).length) := by
  cases number with
  | ofNat number =>
      have sign : ((Text.ofNat number ++ next).head? == some '-') = false := by
        obtain ⟨digit, rest, shape, isDigit⟩ := Text.exists_digit number
        have differs : digit ≠ '-' := by
          rintro rfl
          cases isDigit
        rw [shape]
        simpa using differs
      exact (read?_plain sign rfl stops).trans (by rw [if_neg (by decide), Nat.zero_add]; rfl)
  | negSucc number =>
      have sign : (('-' :: (Text.ofNat (number + 1) ++ next)).head? == some '-') = true := rfl
      exact (read?_plain sign rfl stops).trans (by rw [if_pos rfl, Nat.add_comm 1]; rfl)

/-! ## The integer of a numeral -/

theorem digitsValue_ofNat (number : Nat) : digitsValue (Text.ofNat number) = number := by
  unfold digitsValue
  rw [Text.appendDigits?_ofNat]
  rfl

theorem integer?_ofInt (number : Int) : (ofInt number).integer? = some number := by
  cases number with
  | ofNat number =>
      have value := digitsValue_ofNat number
      unfold integer? ofInt plain
      simp only [value]
      rfl
  | negSucc number =>
      have value := digitsValue_ofNat (number + 1)
      unfold integer? ofInt plain
      simp only [value]
      rfl

/-! ## Magnitude -/

theorem le_ofDigitChars (digits : Text) (total : Nat) :
    total ≤ Nat.ofDigitChars 10 digits total := by
  induction digits generalizing total with
  | nil => exact Nat.le_refl _
  | cons digit rest ih =>
      rw [Nat.ofDigitChars_cons]
      exact Nat.le_trans (by omega) (ih _)

/-- Digits of a number below the bound are all taken. -/
theorem appendBelow_eq {bound : Nat} {digits : Text}
    (areDigits : ∀ char ∈ digits, char.isDigit = true) {total : Nat}
    (below : Nat.ofDigitChars 10 digits total < bound) :
    appendBelow bound total digits = (Nat.ofDigitChars 10 digits total, digits.length) := by
  induction digits generalizing total with
  | nil => rfl
  | cons digit rest ih =>
      have value := Text.digit?_of_isDigit (areDigits digit List.mem_cons_self)
      rw [Nat.ofDigitChars_cons, Nat.mul_comm] at below ⊢
      have within := Nat.lt_of_le_of_lt (le_ofDigitChars rest _) below
      have later := ih (fun char member => areDigits char (List.mem_cons_of_mem _ member)) below
      unfold appendBelow
      simp only [value, Option.getD_some, later, if_neg (Nat.not_le_of_lt within), List.length_cons]

theorem scaled_plain (isNegative : Bool) {magnitude : Nat} (below : magnitude < UInt64.size) :
    (plain isNegative magnitude).scaled = (magnitude, 0) := by
  have whole : Nat.ofDigitChars 10 (Text.ofNat magnitude) 0 = magnitude :=
    Nat.ofDigitChars_toDigits (by decide) (by decide)
  have taken := @appendBelow_eq UInt64.size (Text.ofNat magnitude)
    (fun _ => Text.isDigit_ofNat) 0 (by rw [whole]; exact below)
  unfold scaled plain
  simp only [taken, whole, appendBelow, Option.getD_none, Nat.sub_self]
  rfl

/-- Rounding does not double a number. -/
theorem toDouble_le {number : Nat} (positive : 0 < number) : toDouble number ≤ 2 * number := by
  have unit_le : Nat.pow 2 (number.log2 + 1 - 53) ≤ number :=
    Nat.le_trans (Nat.pow_le_pow_right (by decide) (by omega)) (Nat.log2_self_le (by omega))
  have floor := Nat.div_mul_le_self number (Nat.pow 2 (number.log2 + 1 - 53))
  unfold toDouble
  dsimp only
  split
  · rw [Nat.add_mul, Nat.one_mul]
    omega
  · omega

theorem isFinite_plain (isNegative : Bool) {magnitude : Nat} (below : magnitude < UInt64.size) :
    (plain isNegative magnitude).isFinite = true := by
  have one : toDouble (Nat.pow 10 0) = 1 := by decide
  have bound : 2 * UInt64.size < infinityBound := by decide +kernel
  unfold isFinite
  rw [scaled_plain isNegative below]
  cases magnitude with
  | zero => rfl
  | succ magnitude =>
      have rounded : toDouble (magnitude + 1) ≤ 2 * (magnitude + 1) :=
        toDouble_le magnitude.succ_pos
      show (decide (0 ≤ maxPower) &&
        decide (toDouble (magnitude + 1) * toDouble (Nat.pow 10 0) < infinityBound)) = true
      rw [one, Nat.mul_one, Bool.and_eq_true, decide_eq_true_eq, decide_eq_true_eq]
      exact ⟨Nat.zero_le _, by omega⟩

theorem isFinite_ofInt {number : Int} (below : number.natAbs < UInt64.size) :
    (ofInt number).isFinite = true := by
  cases number with
  | ofNat number => exact isFinite_plain false below
  | negSucc number => exact isFinite_plain true below

end Numeral

end PageDesigner
