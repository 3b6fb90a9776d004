import PageDesigner.Control.Tag
import PageDesigner.Proofs.Markup.Cut
import PageDesigner.Proofs.Surface.Naming

/-!
# Attributes that are written into tags

The ids that a scan writes are words that end in a digit (`Naming.Numbered`).  Such a
word needs no references, and is neither of the names that the designer itself looks
for in a tag.  An attribute with such a value is three pieces (`attributePieces`), read
as the attribute unless the attribute in front of it still awaits its value.
-/

namespace PageDesigner

/-- A character that no name has is not in a word. -/
theorem absent_of_word {word : Text} (continues : word.all continuesName = true) {char : Char}
    (foreign : continuesName char = false) : char ∉ word := by
  intro member
  rw [List.all_eq_true.mp continues char member] at foreign
  cases foreign

namespace Naming

/-- A valid name that is the base of its kind with a number. -/
structure Numbered (id : Text) : Prop where
  valid : isValid id = true
  ends : ∃ base digit, id = base ++ [digit] ∧ digit.isDigit = true

theorem numbered_unused {base : Text} (valid : isValid base = true) (taken : List Text) :
    Numbered (unused base taken) := by
  refine ⟨isValid_unused valid taken, ?_⟩
  obtain ⟨number, same, _⟩ := unused_eq_numbered base taken
  rcases List.eq_nil_or_concat' (Text.ofNat number) with none' | ⟨digits, digit, shape⟩
  · simp [Text.ofNat] at none'
  · refine ⟨base ++ digits, digit, ?_, Text.isDigit_ofNat (by rw [shape]; simp)⟩
    rw [same, numbered, shape, List.append_assoc]

namespace Numbered

variable {id : Text}

theorem ne_nil (numbered : Numbered id) : id ≠ [] := by
  rintro rfl
  cases numbered.valid

/-- A numbered name consists of letters, digits and underscores. -/
theorem word (numbered : Numbered id) :
    id.all (fun char => char.isAlphanum || char == '_') = true := by
  have valid := numbered.valid
  cases id with
  | nil => rfl
  | cons first rest =>
      simp only [isValid, Bool.and_eq_true] at valid
      rw [List.all_cons, valid.2, Bool.and_true]
      rcases Bool.or_eq_true_iff.mp valid.1 with alpha | underscore
      · simp [Char.isAlphanum, alpha]
      · rw [underscore, Bool.or_true]

theorem continues (numbered : Numbered id) : id.all continuesName = true := by
  rw [List.all_eq_true]
  intro char member
  rcases Bool.or_eq_true_iff.mp (List.all_eq_true.mp numbered.word char member) with word | score
  · simp [continuesName, word]
  · simp [continuesName, score]

theorem starts (numbered : Numbered id) :
    ∃ first rest, id = first :: rest ∧ startsName first = true := by
  have valid := numbered.valid
  cases id with
  | nil => cases valid
  | cons first rest =>
      simp only [isValid, Bool.and_eq_true] at valid
      refine ⟨first, rest, rfl, ?_⟩
      unfold startsName startsTagName
      rw [valid.1, Bool.true_or]

/-- A character that no name has is not in a numbered name. -/
theorem absent (numbered : Numbered id) {char : Char} (foreign : continuesName char = false) :
    char ∉ id :=
  absent_of_word numbered.continues foreign

/-- A numbered name is no name that ends in a letter. -/
theorem sameName_eq_false (numbered : Numbered id) {other : Text} {last : Char}
    (ends : other.lower.getLast? = some last) (letter : last.isDigit = false) :
    id.sameName other = false := by
  obtain ⟨base, digit, rfl, isDigit⟩ := numbered.ends
  rw [Bool.eq_false_iff]
  intro same
  have lower := Text.sameName_iff.mp same
  rw [Text.lower_append] at lower
  rw [← lower] at ends
  have single : Text.lower [digit] = [digit] := congrArg (· :: []) (Text.toLower_of_isDigit isDigit)
  rw [single, List.getLast?_concat] at ends
  rw [Option.some.inj ends, letter] at isDigit
  cases isDigit

end Numbered

end Naming

namespace Reference

/-- Reading leaves a text without ampersands as it is. -/
theorem decode_plain {text : Text} (absent : '&' ∉ text) : decode text = text := by
  unfold decode
  induction text with
  | nil => rfl
  | cons char rest ih =>
      have differs : char ≠ '&' := by
        rintro rfl
        exact absent List.mem_cons_self
      rw [decodeFrom, if_neg differs, ih fun member => absent (List.mem_cons_of_mem _ member)]

theorem decode_cons {char : Char} (plain : char ≠ '&') (rest : Text) :
    decode (char :: rest) = char :: decode rest := by
  unfold decode
  rw [decodeFrom, if_neg plain]

/-- A reference ends in front of an equals sign at the end of the text. -/
theorem length_of_read? {text : Text} {char : Char} {length : Nat}
    (found : read? (text ++ ['=']) = some (char, length)) : length ≤ text.length := by
  unfold read? at found
  dsimp only at found
  split at found
  · next fits =>
      obtain ⟨decoded, _, pair⟩ := Option.map_eq_some_iff.mp found
      obtain ⟨-, rfl⟩ := Prod.mk.inj pair
      obtain ⟨tail, shape⟩ := Piece.quoted_shape fits.2.2
      cases tail with
      | nil =>
          obtain ⟨-, last⟩ := List.append_inj' shape rfl
          cases last
      | cons head tail =>
          have total := congrArg List.length shape
          simp only [List.length_append, List.length_cons, List.length_nil] at total
          omega
  · cases found

/-- An equals sign at the end of a text is read as itself. -/
theorem getLast?_decodeFrom {skip : Nat} {text : Text} (within : skip ≤ text.length) :
    (decodeFrom skip (text ++ ['='])).getLast? = some '=' := by
  induction text generalizing skip with
  | nil =>
      rw [Nat.le_zero.mp within]
      rfl
  | cons char rest ih =>
      rw [List.cons_append]
      cases skip with
      | succ skip => exact ih (Nat.le_of_succ_le_succ within)
      | zero =>
          rw [decodeFrom]
          split
          · split
            · next found => rw [List.getLast?_cons, ih (length_of_read? found)]; rfl
            · rw [List.getLast?_cons, ih (Nat.zero_le _)]; rfl
          · rw [List.getLast?_cons, ih (Nat.zero_le _)]; rfl

theorem escapeAttribute_plain {text : Text} (word : text.all continuesName = true) :
    escapeAttribute text = text := by
  unfold escapeAttribute
  induction text with
  | nil => rfl
  | cons char rest ih =>
      obtain ⟨here, later⟩ := Bool.and_eq_true_iff.mp word
      have single : escapeAttributeChar char = [char] := by
        unfold escapeAttributeChar
        split
        · cases here
        · cases here
        · cases here
        · cases here
        · rfl
      rw [List.flatMap_cons, single, ih later]
      rfl

end Reference

namespace Piece

open TagBody (entryRun bareEntry)

theorem isLayout_of_startsName {char : Char} (starts : startsName char = true) :
    Text.isLayout char = false := by
  rw [Bool.eq_false_iff]
  intro layout
  have blank := Text.isBlank_of_isLayout layout
  rw [isBlank_of_continuesName (continuesName_of_startsName starts)] at blank
  cases blank

/-- The pieces of an attribute with a quoted value. -/
def attributePieces (key content : Text) : List Piece :=
  [.token (.name key) key, .token .equals ['='],
    .token (.doubleQuoted content) ('"' :: content ++ ['"'])]

theorem lexemes_attributePieces (key content : Text) :
    lexemes (attributePieces key content) = key ++ ('=' :: '"' :: (content ++ ['"'])) := by
  simp [attributePieces, lexeme]

/-- A name, and a content that holds no double quote: these can be written as an attribute. -/
structure Writable (key content : Text) : Prop where
  starts : ∃ first more, key = first :: more ∧ startsName first = true
  word : key.all continuesName = true
  inside : content.all (· != '"') = true

/-- An attribute that is written is read as its pieces. -/
theorem Writable.reads {key content : Text} (writable : Writable key content) (rest : Text) :
    Reads (lexemes (attributePieces key content) ++ rest) (attributePieces key content) rest := by
  obtain ⟨⟨first, more, rfl, starts⟩, word, inside⟩ := writable
  have solid := isLayout_of_startsName starts
  have quotation : Reads ('"' :: ((content ++ ['"']) ++ rest))
      [.token (.doubleQuoted content) ('"' :: content ++ ['"'])] rest :=
    .piece (.doubleQuoted rest inside) rfl (.done rest)
  have equals : Reads ('=' :: ([] ++ '"' :: ((content ++ ['"']) ++ rest)))
      [.token .equals ['='], .token (.doubleQuoted content) ('"' :: content ++ ['"'])] rest :=
    .piece (.equals _) rfl quotation
  have whole : Reads (first :: (more ++ '=' :: ([] ++ '"' :: ((content ++ ['"']) ++ rest))))
      (attributePieces (first :: more) content) rest :=
    .piece (.name starts solid (Bool.and_eq_true_iff.mp word).2 rfl) rfl equals
  rw [lexemes_attributePieces]
  simpa using whole

/-- What continues a name continues an unquoted value. -/
theorem continuesBare_of_continuesName {char : Char} (continues : continuesName char = true) :
    continuesBare char = true := by
  have solid : Text.isLayout char = false := by
    rw [Bool.eq_false_iff]
    intro layout
    have blank := Text.isBlank_of_isLayout layout
    rw [isBlank_of_continuesName continues] at blank
    cases blank
  have differs : ∀ mark, continuesName mark = false → (char == mark) = false := by
    intro mark foreign
    refine beq_eq_false_iff_ne.mpr ?_
    rintro rfl
    rw [continues] at foreign
    cases foreign
  simp [continuesBare, solid, differs '"' rfl, differs '\'' rfl, differs '<' rfl, differs '>' rfl,
    differs '=' rfl, differs '/' rfl]

/-- It does not depend on the name behind a piece whether the name lengthens the piece. -/
theorem closedBefore_of_startsName {first other : Char} (starts : startsName first = true)
    (starts' : startsName other = true) (rest rest' : Text) (piece : Piece) :
    piece.closedBefore (first :: rest) = piece.closedBefore (other :: rest') := by
  have word : ∀ {char : Char}, startsName char = true →
      continuesName char = true ∧ continuesBare char = true ∧ (some char != some '>') = true := by
    intro char named
    have continues := continuesName_of_startsName named
    refine ⟨continues, continuesBare_of_continuesName continues, ?_⟩
    rw [bne_iff_ne]
    rintro ⟨⟩
    cases named
  obtain ⟨continues, bare, mark⟩ := word starts
  obtain ⟨continues', bare', mark'⟩ := word starts'
  unfold closedBefore
  split <;> simp [continues, continues', bare, bare', mark, mark']

theorem entryRun_attributePieces {pending : Option (Text × Bool)}
    (settled : pending.any (·.2) = false) (key content : Text) :
    entryRun pending (attributePieces key content) =
      (bareEntry pending ++ [(Name.ofText key, Reference.decode content)], none) := by
  cases pending with
  | none => rfl
  | some waiting =>
      obtain ⟨name, awaits⟩ := waiting
      cases awaits with
      | true => cases settled
      | false => rfl

/-- An attribute that awaits its value takes the name of the attribute that follows. -/
theorem entryRun_attributePieces_awaited (name key content : Text) :
    entryRun (some (name, true)) (attributePieces key content) =
      ([(Name.ofText name, Reference.decode key)], none) :=
  rfl

end Piece

namespace Component

open Piece (lexemes attributePieces)

/-- A written attribute is the text of the pieces it is read as. -/
theorem attributeMarkup_eq (key value : Text) :
    attributeMarkup key value =
      lexemes (attributePieces key (Reference.escapeAttribute value)) := by
  unfold attributeMarkup
  rw [Piece.lexemes_attributePieces]
  simp

/-- A written id is the text of the pieces it is read as. -/
theorem attributeMarkup_numbered {id : Text} (numbered : Naming.Numbered id) (key : Text) :
    attributeMarkup key id = lexemes (attributePieces key id) := by
  rw [attributeMarkup_eq, Reference.escapeAttribute_plain numbered.continues]

end Component

end PageDesigner
