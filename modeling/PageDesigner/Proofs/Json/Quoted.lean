import PageDesigner.Json.Quoted
import PageDesigner.Proofs.Surface.Naming

/-!
# Strings of JSON are read back

Between the quotes of a string a character can be spelled as itself, by an escape of one
letter, by its code in hexadecimal digits, or by the codes of a surrogate pair
(`Spells`).  However its characters are spelled, a text is read back (`Writes.read`).
The spelling that the designer itself writes is one of them (`writes_escaped`).
-/

namespace PageDesigner.Quoted

/-- A code unit in four hexadecimal digits. -/
def hex (code : Nat) : Text :=
  [hexDigit (code / 0x1000), hexDigit (code / 0x100 % 16), hexDigit (code / 0x10 % 16),
    hexDigit (code % 16)]

/-- The first half of the pair for a code behind the first sixteen bits. -/
def highHalf (code : Nat) : Nat := 0xD800 + (code - 0x10000) / 0x400

/-- The second half of the pair. -/
def lowHalf (code : Nat) : Nat := 0xDC00 + (code - 0x10000) % 0x400

/-- The ways to spell a character between the quotes of a string. -/
inductive Spells : Char → Text → Prop
  | plain {char : Char} (visible : 0x20 ≤ char.toNat) (noQuote : char ≠ '"')
      (noEscape : char ≠ '\\') : Spells char [char]
  | letter {letter char : Char} (escape : escape? letter = some char) : Spells char ['\\', letter]
  | code {char : Char} {digits : Text} (basic : char.toNat < 0x10000)
      (spelled : digits.lower = hex char.toNat) : Spells char ('\\' :: 'u' :: digits)
  | pair {char : Char} {high low : Text} (beyond : 0x10000 ≤ char.toNat)
      (first : high.lower = hex (highHalf char.toNat))
      (second : low.lower = hex (lowHalf char.toNat)) :
      Spells char ('\\' :: 'u' :: (high ++ '\\' :: 'u' :: low))

/-- The ways to spell a text: those of its characters, one after the other. -/
inductive Writes : Text → Text → Prop
  | nil : Writes [] []
  | cons {char : Char} {text spelling written : Text} (spells : Spells char spelling)
      (writes : Writes text written) : Writes (char :: text) (spelling ++ written)

/-! ## Hexadecimal digits -/

/-- A hexadecimal digit has the same value in both letter cases. -/
theorem digit?_of_toLower {char : Char} {value : Nat} (small : value < 16)
    (spelled : char.toLower = hexDigit value) : Text.digit? 16 char = some value := by
  have table : ∀ value < 16, Text.digit? 16 (hexDigit value) = some value ∧
      ((hexDigit value).isAlpha = true → ('a' ≤ hexDigit value ∧ hexDigit value ≤ 'f') ∧
        (hexDigit value).toNat - 'a'.toNat + 10 = value) := by decide
  cases capital : char.isUpper with
  | false =>
      rw [← Text.toLower_of_not_isUpper capital, spelled]
      exact (table value small).1
  | true =>
      have letter : (hexDigit value).isAlpha = true := spelled ▸ Text.isAlpha_toLower capital
      obtain ⟨within, same⟩ := (table value small).2 letter
      have noDigit : ¬ char.isDigit = true := by
        intro digit
        rw [← Text.toLower_of_isDigit digit, spelled] at digit
        revert digit letter
        clear spelled within same
        revert value
        decide
      unfold Text.digit?
      dsimp only
      rw [spelled, if_neg noDigit, if_pos within, same, Option.filter_some,
        if_pos (decide_eq_true small)]

theorem length_of_hex {digits : Text} {code : Nat} (spelled : digits.lower = hex code) :
    digits.length = 4 := by
  rw [← Text.length_lower, spelled]
  rfl

/-- Four digits spell their code, in either letter case. -/
theorem natural?_of_hex {digits : Text} {code : Nat} (small : code < 0x10000)
    (spelled : digits.lower = hex code) :
    ∃ first second third fourth, digits = [first, second, third, fourth] ∧
      Text.natural? 16 [first, second, third, fourth] = some code := by
  obtain ⟨first, second, third, fourth, rfl⟩ := List.length_eq_four.mp (length_of_hex spelled)
  refine ⟨first, second, third, fourth, rfl, ?_⟩
  simp only [Text.lower, hex, List.map_cons, List.map_nil, List.cons.injEq, and_true] at spelled
  obtain ⟨one, two, three, four⟩ := spelled
  simp only [Text.natural?, Text.appendDigits?, digit?_of_toLower (by omega) one,
    digit?_of_toLower (by omega) two, digit?_of_toLower (by omega) three,
    digit?_of_toLower (by omega) four, Option.some.injEq]
  omega

/-! ## Reading a spelling -/

/-- In front of every rest a spelling is read as the units, and they mean the text. -/
structure Reads (text spelling : Text) (units : List Unit) : Prop where
  spelled : ∀ rest, units? (spelling ++ rest) =
    (units? rest).map fun (more, taken) => (units ++ more, taken + spelling.length)
  meant : ∀ more, text? (units ++ more) = (text? more).map (text ++ ·)

theorem units?_plain {char : Char} (visible : 0x20 ≤ char.toNat) (noQuote : char ≠ '"')
    (noEscape : char ≠ '\\') (rest : Text) :
    units? (char :: rest) =
      (units? rest).map fun (more, taken) => (.char char :: more, taken + 1) := by
  have allowed : ¬ (char.toNat < 0x20 || char == '\\') = true := by simp [noEscape, visible]
  rw [units?.eq_def]
  split
  · next same => cases same
  · next same => exact absurd (List.cons.inj same).1 noQuote
  · next same => exact absurd (List.cons.inj same).1 noEscape
  · next same => exact absurd (List.cons.inj same).1 noEscape
  · next same =>
      obtain ⟨rfl, rfl⟩ := List.cons.inj same
      rw [if_neg allowed]

theorem units?_letter {letter char : Char} (escape : escape? letter = some char) (rest : Text) :
    units? ('\\' :: letter :: rest) =
      (units? rest).map fun (more, taken) => (.char char :: more, taken + 2) := by
  have noCode : letter ≠ 'u' := by
    rintro rfl
    cases escape
  rw [units?.eq_def]
  split
  · next same => cases same
  · next same => cases (List.cons.inj same).1
  · next same => exact absurd (List.cons.inj (List.cons.inj same).2).1 noCode
  · next same =>
      obtain ⟨rfl, rfl⟩ := List.cons.inj (List.cons.inj same).2
      rw [escape]
      cases units? rest <;> rfl
  · next others same =>
      obtain ⟨rfl, rfl⟩ := List.cons.inj same
      exact absurd rfl (others letter rest rfl)

/-- The units of an escape by code. -/
theorem units?_code {digits : Text} {code : Nat} (small : code < 0x10000)
    (spelled : digits.lower = hex code) (rest : Text) :
    units? ('\\' :: 'u' :: (digits ++ rest)) =
      (units? rest).map fun (more, taken) => (.code code :: more, taken + 6) := by
  obtain ⟨first, second, third, fourth, rfl, value⟩ := natural?_of_hex small spelled
  simp only [List.cons_append, List.nil_append, units?, value]
  cases units? rest <;> rfl

/-- A code that is no half of a pair is a character of its own. -/
theorem text?_code {code : Nat} (whole : isHigh code = false ∧ isLow code = false)
    (more : List Unit) :
    text? (.code code :: more) = (text? more).map (Char.ofNat code :: ·) := by
  cases more with
  | nil => simp [text?, whole]
  | cons unit more => cases unit <;> simp [text?, whole]

theorem toNat_valid (char : Char) :
    char.toNat < 0xD800 ∨ 0xDFFF < char.toNat ∧ char.toNat < 0x110000 :=
  char.valid

/-- The code of a character is no half of a pair. -/
theorem whole_toNat (char : Char) : isHigh char.toNat = false ∧ isLow char.toNat = false := by
  have valid := toNat_valid char
  simp only [isHigh, isLow, Bool.and_eq_false_iff, decide_eq_false_iff_not]
  omega

theorem isHigh_highHalf {code : Nat} (beyond : 0x10000 ≤ code) (below : code < 0x110000) :
    isHigh (highHalf code) = true ∧ highHalf code < 0x10000 := by
  simp only [isHigh, Bool.and_eq_true, decide_eq_true_eq]
  unfold highHalf
  omega

theorem isLow_lowHalf (code : Nat) : isLow (lowHalf code) = true ∧ lowHalf code < 0x10000 := by
  simp only [isLow, Bool.and_eq_true, decide_eq_true_eq]
  unfold lowHalf
  omega

theorem paired_halves {code : Nat} (beyond : 0x10000 ≤ code) :
    paired (highHalf code) (lowHalf code) = code := by
  unfold paired highHalf lowHalf
  omega

theorem Spells.exists_reads {char : Char} {spelling : Text} (spells : Spells char spelling) :
    ∃ units, Reads [char] spelling units := by
  cases spells with
  | plain visible noQuote noEscape =>
      exact ⟨[.char char], fun rest => units?_plain visible noQuote noEscape rest, fun _ => rfl⟩
  | letter escape =>
      exact ⟨[.char char], fun rest => units?_letter escape rest, fun _ => rfl⟩
  | @code char digits basic spelled =>
      refine ⟨[.code char.toNat], fun rest => ?_, fun more => ?_⟩
      · rw [List.cons_append, List.cons_append, units?_code basic spelled, List.length_cons,
          List.length_cons, length_of_hex spelled]
        rfl
      · rw [List.singleton_append, text?_code (whole_toNat char), Char.ofNat_toNat]
        rfl
  | @pair char high low beyond first second =>
      have valid := toNat_valid char
      have isHigh := isHigh_highHalf beyond (by omega)
      have isLow := isLow_lowHalf char.toNat
      refine ⟨[.code (highHalf char.toNat), .code (lowHalf char.toNat)], fun rest => ?_,
        fun more => ?_⟩
      · have taken : ('\\' :: 'u' :: (high ++ '\\' :: 'u' :: low)).length = 12 := by
          simp [length_of_hex first, length_of_hex second]
        rw [List.cons_append, List.cons_append, List.append_assoc, units?_code isHigh.2 first,
          List.cons_append, List.cons_append, units?_code isLow.2 second, Option.map_map, taken]
        rfl
      · simp only [List.cons_append, List.nil_append, text?, isHigh.1, isLow.1,
          paired_halves beyond, if_true, Char.ofNat_toNat]

theorem reads_nil : Reads [] [] [] :=
  ⟨fun rest => by simp, fun more => by simp⟩

theorem Reads.append {first second spelling spelling' : Text} {units units' : List Unit}
    (reads : Reads first spelling units) (others : Reads second spelling' units') :
    Reads (first ++ second) (spelling ++ spelling') (units ++ units') := by
  refine ⟨fun rest => ?_, fun more => ?_⟩
  · rw [List.append_assoc, reads.spelled, others.spelled, Option.map_map, List.length_append]
    congr 1
    funext found
    simp [Nat.add_comm, Nat.add_left_comm]
  · rw [List.append_assoc, reads.meant, others.meant, Option.map_map]
    congr 1
    funext found
    simp

/-- The text is read whole up to the quote that closes the string. -/
theorem Writes.exists_reads {text written : Text} (writes : Writes text written) :
    ∃ units, Reads text written units := by
  induction writes with
  | nil => exact ⟨[], reads_nil⟩
  | cons spells _ ih =>
      obtain ⟨units, reads⟩ := spells.exists_reads
      obtain ⟨others, later⟩ := ih
      exact ⟨units ++ others, reads.append later⟩

/-- However a text is spelled between quotes, it is read back, with all that it takes. -/
theorem Writes.read {text written : Text} (writes : Writes text written) (rest : Text) :
    ∃ units, units? (written ++ '"' :: rest) = some (units, written.length + 1) ∧
      text? units = some text := by
  obtain ⟨units, reads⟩ := writes.exists_reads
  refine ⟨units, ?_, ?_⟩
  · rw [reads.spelled]
    simp [units?, Nat.add_comm]
  · have whole := reads.meant []
    simpa [text?] using whole

/-! ## What the designer writes -/

/-- A control character is written by its code. -/
theorem hex_of_control {code : Nat} (small : code < 0x20) :
    Text.lower ("00" ++ [hexDigit (code / 16), hexDigit (code % 16)]) = hex code := by
  have table : ∀ code < 0x20,
      Text.lower ("00" ++ [hexDigit (code / 16), hexDigit (code % 16)]) = hex code := by decide
  exact table code small

theorem spells_escapeChar (char : Char) : Spells char (escapeChar char) := by
  unfold escapeChar
  split
  · next quote => exact quote ▸ .letter rfl
  split
  · next slash => exact slash ▸ .letter rfl
  split
  · next line => exact line ▸ .letter rfl
  split
  · next return' => exact return' ▸ .letter rfl
  split
  · next tab => exact tab ▸ .letter rfl
  split
  · next back => exact back ▸ .letter rfl
  split
  · next feed => exact feed ▸ .letter rfl
  split
  · next small => exact .code (Nat.lt_trans small (by decide)) (hex_of_control small)
  · next noQuote noEscape _ _ _ _ _ visible => exact .plain (by omega) noQuote noEscape

theorem writes_escaped (text : Text) : Writes text (text.flatMap escapeChar) := by
  induction text with
  | nil => exact .nil
  | cons char text ih => exact .cons (spells_escapeChar char) ih

end PageDesigner.Quoted
