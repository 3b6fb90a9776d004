import PageDesigner.Proofs.Markup.Cut
import PageDesigner.Proofs.Surface.Naming
import PageDesigner.Text.Numeral

/-!
# Written numbers are read back

A number that is written in decimal digits reads as the number
(`natural?_ofNat`), and a written integer of 64 bits as the integer, sign and all
(`integer?_ofInt`).
-/

namespace PageDesigner.Text

theorem digit?_of_isDigit {char : Char} (digit : char.isDigit = true) :
    digit? 10 char = some (char.toNat - '0'.toNat) := by
  have below : char.toNat ≤ 57 := by
    rw [Char.isDigit, Bool.and_eq_true] at digit
    exact of_decide_eq_true digit.2
  have zero : '0'.toNat = 48 := rfl
  unfold digit?
  dsimp only
  rw [if_pos digit, Option.filter_some, if_pos]
  rw [decide_eq_true_eq, zero]
  omega

/-- Digits extend a number as they are read from left to right. -/
theorem appendDigits?_eq {text : Text} (digits : ∀ char ∈ text, char.isDigit = true)
    (total : Nat) : appendDigits? 10 total text = some (Nat.ofDigitChars 10 text total) := by
  induction text generalizing total with
  | nil => rfl
  | cons char rest ih =>
      rw [appendDigits?, digit?_of_isDigit (digits char List.mem_cons_self)]
      dsimp only
      rw [ih fun other member => digits other (List.mem_cons_of_mem _ member),
        Nat.ofDigitChars_cons, Nat.mul_comm]

theorem ofNat_ne_nil (number : Nat) : ofNat number ≠ [] := Nat.toDigits_ne_nil

/-- A written number starts with a digit. -/
theorem exists_digit (number : Nat) :
    ∃ digit rest, ofNat number = digit :: rest ∧ digit.isDigit = true := by
  cases shape : ofNat number with
  | nil => exact absurd shape (ofNat_ne_nil number)
  | cons digit rest =>
      exact ⟨digit, rest, rfl, isDigit_ofNat (by rw [shape]; exact List.mem_cons_self)⟩

theorem appendDigits?_ofNat (number : Nat) : appendDigits? 10 0 (ofNat number) = some number := by
  have value : Nat.ofDigitChars 10 (ofNat number) 0 = number := by
    simp [ofNat, Nat.ofDigitChars_toDigits]
  rw [appendDigits?_eq (fun _ => isDigit_ofNat) 0, value]

theorem natural?_ofNat (number : Nat) : natural? 10 (ofNat number) = some number := by
  have read := appendDigits?_ofNat number
  obtain ⟨digit, rest, shape, _⟩ := exists_digit number
  rw [shape] at read ⊢
  exact read

/-- A written integer holds digits only, behind its sign. -/
theorem isBlank_ofInt {number : Int} {char : Char} (member : char ∈ ofInt number) :
    isBlank char = false := by
  have visible : ∀ {digits : Nat}, char ∈ ofNat digits → isBlank char = false := by
    intro digits inside
    obtain ⟨above, below⟩ :=
      @printable_of_isAlphanum char (by simp [Char.isAlphanum, isDigit_ofNat inside])
    exact isBlank_of_printable above below
  cases number with
  | ofNat number => exact visible member
  | negSucc number =>
      rcases List.mem_cons.mp member with rfl | inside
      · decide
      · exact visible inside

theorem integer?_ofInt (number : Int64) : integer? (ofInt number.toInt) = some number := by
  have inside : Int64.minValue.toInt ≤ number.toInt ∧ number.toInt ≤ Int64.maxValue.toInt :=
    ⟨number.minValue_le_toInt, number.toInt_le⟩
  have ranged : ∀ {value : Option Int}, value = some number.toInt →
      (value.filter fun number => decide (Int64.minValue.toInt ≤ number ∧
        number ≤ Int64.maxValue.toInt)).map Int64.ofInt = some number := by
    rintro _ rfl
    rw [Option.filter_some, if_pos (decide_eq_true inside), Option.map_some, Int64.ofInt_toInt]
  unfold integer?
  refine ranged ?_
  cases number.toInt with
  | negSucc magnitude =>
      have read := natural?_ofNat (magnitude + 1)
      simp only [ofInt, read]
      rfl
  | ofNat magnitude =>
      have read := natural?_ofNat magnitude
      have spelled : ofInt (.ofNat magnitude) = ofNat magnitude := rfl
      rw [spelled]
      obtain ⟨char, rest, shape, digit⟩ := exists_digit magnitude
      -- A digit is no sign.
      rw [shape] at read ⊢
      unfold signedNatural?
      split
      · next same => cases (List.cons.inj same).1; cases digit
      · split
        · next same => cases (List.cons.inj same).1; cases digit
        · rw [read]
          rfl

/-- A text without blanks is not trimmed. -/
theorem trim_of_visible {text : Text} (visible : ∀ char ∈ text, isBlank char = false) :
    text.trim = text := by
  have kept : ∀ text : Text, (∀ char ∈ text, isBlank char = false) →
      text.dropWhile isBlank = text := by
    intro text visible
    cases text with
    | nil => rfl
    | cons char rest =>
        rw [List.dropWhile_cons, visible char List.mem_cons_self]
        rfl
  unfold trim trimStart trimEnd
  rw [kept text visible, kept text.reverse fun char member =>
    visible char (List.mem_reverse.mp member), List.reverse_reverse]

end PageDesigner.Text
