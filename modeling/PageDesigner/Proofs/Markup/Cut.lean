import Mathlib.Data.List.Basic
import PageDesigner.Proofs.Markup.TagBody

/-!
# Cutting off the end of a tag

An attribute is written behind the trimmed text of a tag, so the end of the tag is cut
off between two of its pieces, or inside one.  Only three kinds of pieces can be cut
inside: an unquoted value that ends in blanks, the mark `%>`, and a quote without a
partner (`Takes.cut`).  What is cut off between pieces is blanks, and blanks mean
nothing to a tag (`entryRun_blankPieces`).
-/

namespace PageDesigner

namespace Text

theorem all_bne_of_absent {char : Char} {text : Text} (absent : char ∉ text) :
    text.all (· != char) = true := by
  refine List.all_eq_true.mpr fun other member => bne_iff_ne.mpr ?_
  rintro rfl
  exact absent member

/-- The printable characters of ASCII are not blank. -/
theorem isBlank_of_printable {char : Char} (above : 32 < char.toNat) (below : char.toNat < 127) :
    isBlank char = false := by
  simp only [isBlank, Bool.or_eq_false_iff, Bool.and_eq_false_iff, decide_eq_false_iff_not,
    beq_eq_false_iff_ne]
  omega

end Text

theorem printable_of_isAlphanum {char : Char} (isWord : char.isAlphanum = true) :
    32 < char.toNat ∧ char.toNat < 127 := by
  have classes : (char.isUpper = true ∨ char.isLower = true) ∨ char.isDigit = true :=
    (Bool.or_eq_true_iff.mp isWord).imp_left Bool.or_eq_true_iff.mp
  have bounds : ∀ low high : UInt32, low ≤ char.val ∧ char.val ≤ high →
      low.toNat ≤ char.toNat ∧ char.toNat ≤ high.toNat := fun low high within => within
  rcases classes with (upper | small) | digit
  · have within := bounds _ _ (of_decide_eq_true upper)
    exact ⟨Nat.lt_of_lt_of_le (by decide) within.1, Nat.lt_of_le_of_lt within.2 (by decide)⟩
  · have within := bounds _ _
      ((Bool.and_eq_true_iff.mp small).imp of_decide_eq_true of_decide_eq_true)
    exact ⟨Nat.lt_of_lt_of_le (by decide) within.1, Nat.lt_of_le_of_lt within.2 (by decide)⟩
  · have within := bounds _ _
      ((Bool.and_eq_true_iff.mp digit).imp of_decide_eq_true of_decide_eq_true)
    exact ⟨Nat.lt_of_lt_of_le (by decide) within.1, Nat.lt_of_le_of_lt within.2 (by decide)⟩

/-- Names hold no blanks. -/
theorem isBlank_of_continuesName {char : Char} (continues : continuesName char = true) :
    Text.isBlank char = false := by
  simp only [continuesName, Bool.or_eq_true, beq_iff_eq] at continues
  rcases continues with (((isWord | rfl) | rfl) | rfl) | rfl
  · obtain ⟨above, below⟩ := printable_of_isAlphanum isWord
    exact Text.isBlank_of_printable above below
  all_goals decide

theorem continuesName_of_startsName {char : Char} (starts : startsName char = true) :
    continuesName char = true := by
  simp only [startsName, startsTagName, Bool.or_eq_true] at starts
  rcases starts with (alpha | underscore) | colon
  · simp [continuesName, Char.isAlphanum, alpha]
  · simp [continuesName, underscore]
  · simp [continuesName, colon]

namespace Piece

theorem isBlank_of_startsBare {char : Char} (starts : startsBare char = true) :
    Text.isBlank char = false := by
  simp only [startsBare, Bool.or_eq_true, beq_iff_eq] at starts
  rcases starts with ((digit | rfl) | rfl) | rfl
  · obtain ⟨above, below⟩ := @printable_of_isAlphanum char (by simp [Char.isAlphanum, digit])
    exact Text.isBlank_of_printable above below
  all_goals decide

/-- A blank that is no layout starts nothing. -/
theorem startsNothing_of_isBlank {char : Char} (blank : Text.isBlank char = true)
    (solid : Text.isLayout char = false) : startsNothing char = true := by
  have differs : ∀ other, Text.isBlank other = false → (char == other) = false := by
    intro other visible
    refine beq_eq_false_iff_ne.mpr ?_
    rintro rfl
    rw [blank] at visible
    cases visible
  have unnamed : startsName char = false := by
    rw [Bool.eq_false_iff]
    intro starts
    rw [isBlank_of_continuesName (continuesName_of_startsName starts)] at blank
    cases blank
  have bare : startsBare char = false := by
    rw [Bool.eq_false_iff]
    intro starts
    rw [isBlank_of_startsBare starts] at blank
    cases blank
  simp [startsNothing, solid, unnamed, bare, differs '"' (by decide), differs '\'' (by decide),
    differs '=' (by decide), differs '>' (by decide), differs '<' (by decide)]

/-! ## Blanks -/

/-- The piece that a blank is. -/
def blankPiece (char : Char) : Piece := if Text.isLayout char then .layout char else .junk [char]

/-- The pieces that blanks are. -/
def blankPieces (blanks : Text) : List Piece := blanks.map blankPiece

@[simp]
theorem lexeme_blankPiece (char : Char) : (blankPiece char).lexeme = [char] := by
  unfold blankPiece
  split <;> rfl

@[simp]
theorem lexemes_blankPieces (blanks : Text) : lexemes (blankPieces blanks) = blanks := by
  induction blanks with
  | nil => rfl
  | cons char blanks ih =>
      show (blankPiece char).lexeme ++ lexemes (blankPieces blanks) = char :: blanks
      rw [lexeme_blankPiece, ih]
      rfl

theorem Takes.blank {char : Char} (blank : Text.isBlank char = true) (next : Text) :
    Takes char [] next (blankPiece char) := by
  unfold blankPiece
  by_cases layout : Text.isLayout char = true
  · rw [if_pos layout]
    exact .layout next layout
  · rw [if_neg layout]
    refine .junk (startsNothing_of_isBlank blank (by simpa using layout)) ?_
    rintro (rfl | rfl)
    · cases blank
    · cases blank

theorem reads_blankPieces {blanks : Text} (areBlank : blanks.all Text.isBlank = true)
    (rest : Text) : Reads (blanks ++ rest) (blankPieces blanks) rest := by
  induction blanks with
  | nil => exact .done rest
  | cons char blanks ih =>
      obtain ⟨blank, others⟩ := Bool.and_eq_true_iff.mp areBlank
      have goesOn : (blankPiece char).stop? = none := by
        unfold blankPiece
        split <;> rfl
      have reads : Reads (char :: ([] ++ (blanks ++ rest))) (blankPieces (char :: blanks)) rest :=
        .piece (Takes.blank blank (blanks ++ rest)) goesOn (ih others)
      exact reads

/-- Pieces that are read from blanks only. -/
theorem Reads.eq_blankPieces {text rest : Text} {pieces : List Piece}
    (reads : Reads text pieces rest) (areBlank : (lexemes pieces).all Text.isBlank = true) :
    pieces = blankPieces (lexemes pieces) := by
  induction reads with
  | done => rfl
  | @piece char more next rest piece pieces takes _ _ ih =>
      rw [lexemes_cons, takes.lexeme_eq, List.all_append, List.all_cons] at areBlank
      obtain ⟨here, others⟩ := Bool.and_eq_true_iff.mp areBlank
      have single := (Takes.blank (Bool.and_eq_true_iff.mp here).1 (more ++ next)).first_eq
      rw [List.nil_append, takes.first_eq] at single
      rw [lexemes_cons, single, lexeme_blankPiece]
      exact congrArg (blankPiece char :: ·) (ih others)

/-- Blanks mean nothing to a tag. -/
theorem entryRun_blankPieces (pending : Option (Text × Bool)) (blanks : Text) :
    TagBody.entryRun pending (blankPieces blanks) = ([], pending) := by
  induction blanks with
  | nil => rfl
  | cons char blanks ih =>
      unfold blankPieces at ih ⊢
      rw [List.map_cons]
      unfold blankPiece at ih ⊢
      split
      · exact ih
      · exact ih

/-! ## Cuts -/

/-- The text of pieces is cut between two of them or inside one. -/
theorem lexemes_cut {pieces : List Piece} {front back : Text}
    (shape : lexemes pieces = front ++ back) :
    (∃ former latter, pieces = former ++ latter ∧ front = lexemes former ∧
        back = lexemes latter) ∨
      ∃ former piece latter first second, pieces = former ++ piece :: latter ∧
        piece.lexeme = first ++ second ∧ first ≠ [] ∧ second ≠ [] ∧
        front = lexemes former ++ first ∧ back = second ++ lexemes latter := by
  induction pieces generalizing front with
  | nil =>
      obtain ⟨rfl, rfl⟩ := List.append_eq_nil_iff.mp shape.symm
      exact .inl ⟨[], [], rfl, rfl, rfl⟩
  | cons piece pieces ih =>
      rw [lexemes_cons] at shape
      rcases List.append_eq_append_iff.mp shape with ⟨front', rfl, later⟩ | ⟨second, here, rfl⟩
      · rcases ih later with ⟨former, latter, rfl, rfl, rfl⟩ |
          ⟨former, inner, latter, first, second, rfl, lexeme, some', some'', rfl, rfl⟩
        · exact .inl ⟨piece :: former, latter, rfl, rfl, rfl⟩
        · refine .inr ⟨piece :: former, inner, latter, first, second, rfl, lexeme, some', some'', ?_,
            rfl⟩
          rw [lexemes_cons, List.append_assoc]
      · by_cases none' : front = []
        · subst none'
          refine .inl ⟨[], piece :: pieces, rfl, rfl, ?_⟩
          rw [lexemes_cons, here, List.nil_append]
        by_cases none'' : second = []
        · subst none''
          refine .inl ⟨[piece], pieces, rfl, ?_, rfl⟩
          rw [List.append_nil] at here
          rw [lexemes_cons, here, lexemes_nil, List.append_nil]
        exact .inr ⟨[], piece, pieces, front, second, rfl, here, none', none'', rfl, rfl⟩

/-- How a piece among others is taken. -/
theorem Reads.takes {text rest : Text} {former latter : List Piece} {piece : Piece}
    (reads : Reads text (former ++ piece :: latter) rest) :
    ∃ char more, Takes char more (lexemes latter ++ rest) piece ∧ piece.stop? = none ∧
      Reads (lexemes latter ++ rest) latter rest := by
  obtain ⟨_, later⟩ := reads.pause
  generalize lexemes (piece :: latter) ++ rest = text' at later
  cases later with
  | piece takes goesOn others =>
      have same := others.text_eq
      rw [same] at takes others
      exact ⟨_, _, takes, goesOn, others⟩

/-- Every piece that is read was taken somewhere. -/
theorem Reads.takes_of_mem {text rest : Text} {pieces : List Piece} (reads : Reads text pieces rest)
    {piece : Piece} (member : piece ∈ pieces) : ∃ char more next, Takes char more next piece := by
  obtain ⟨former, latter, rfl⟩ := List.append_of_mem member
  obtain ⟨char, more, takes, _⟩ := reads.takes
  exact ⟨char, more, _, takes⟩

/-- Behind a double quote without a partner there is no other one. -/
theorem Takes.of_unpaired {char : Char} {more next rest : Text}
    (takes : Takes char more next (.junk ('"' :: rest))) : rest.all (· != '"') = true := by
  cases takes with
  | openDouble inside => exact inside
  | junk nothing => cases nothing

theorem Takes.of_name {char : Char} {more next written lexeme : Text}
    (takes : Takes char more next (.token (.name written) lexeme)) :
    written = char :: more ∧ lexeme = char :: more ∧ startsName char = true ∧
      (char :: more).all continuesName = true := by
  cases takes with
  | name starts _ word _ =>
      refine ⟨rfl, rfl, starts, ?_⟩
      rw [List.all_cons, continuesName_of_startsName starts, word]
      rfl

/-- A text that is a single name. -/
theorem word_of_pieces {key : Text} (single : pieces key = [.token (.name key) key]) :
    (∃ char rest, key = char :: rest ∧ startsName char = true) ∧
      key.all continuesName = true := by
  cases key with
  | nil => cases single
  | cons char rest =>
      have first' : first char rest = .token (.name (char :: rest)) (char :: rest) :=
        (List.cons.inj single).1
      obtain ⟨more, next, piece, rfl, takes⟩ := exists_takes char rest
      have taken := takes.first_eq.symm.trans first'
      subst taken
      obtain ⟨same, _, starts, word⟩ := takes.of_name
      rw [← same] at word
      exact ⟨⟨char, _, rfl, starts⟩, word⟩

theorem Takes.of_bare {char : Char} {more next value lexeme : Text}
    (takes : Takes char more next (.token (.bare value) lexeme)) :
    value = char :: more ∧ startsBare char = true ∧ Text.isLayout char = false ∧
      startsName char = false ∧ more.all continuesBare = true := by
  cases takes with
  | bare starts solid unnamed word _ => exact ⟨rfl, starts, solid, unnamed, word⟩

/-- A piece that is cut where a closing mark or a blank begins. -/
theorem Takes.cut {char head : Char} {more next first second : Text} {piece : Piece}
    (takes : Takes char more next piece) (goesOn : piece.stop? = none)
    (shape : char :: more = first ++ head :: second) (nonempty : first ≠ [])
    (begins : head = '>' ∨ head = '/' ∨ Text.isBlank head = true)
    (unquoted : '"' ∉ head :: second ∧ '\'' ∉ head :: second) :
    (piece = .token (.bare (char :: more)) (char :: more) ∧
        (head :: second).all continuesBare = true) ∨
      (piece = .token .directiveClose ['%', '>'] ∧ first = ['%'] ∧ head = '>' ∧ second = []) ∨
      ((char = '"' ∨ char = '\'') ∧ piece = .junk (char :: more) ∧
        more.all (· != char) = true ∧ next = []) := by
  obtain ⟨tail, rfl⟩ : ∃ tail, first = char :: tail := by
    cases first with
    | nil => exact absurd rfl nonempty
    | cons char' tail => exact ⟨tail, by rw [(List.cons.inj shape).1]⟩
  have behind : more = tail ++ head :: second := (List.cons.inj shape).2
  have member : head ∈ more := by rw [behind]; simp
  have single : more ≠ [] := List.ne_nil_of_mem member
  -- The last character of a quotation is its quote.
  have quoted : ∀ (quote : Char) (content : Text), more = content ++ [quote] →
      quote ∈ head :: second := by
    intro quote content ends
    have last := congrArg List.getLast? (behind.symm.trans ends)
    rw [List.getLast?_append_of_ne_nil _ (List.cons_ne_nil _ _), List.getLast?_concat] at last
    exact List.mem_of_getLast? last
  cases takes with
  | layout => exact absurd rfl single
  | name _ _ word _ =>
      exfalso
      have continues := List.all_eq_true.mp word head member
      rcases begins with rfl | rfl | blank
      · cases continues
      · cases continues
      · rw [isBlank_of_continuesName continues] at blank
        cases blank
  | bare _ _ _ word _ =>
      rw [behind, List.all_append] at word
      exact .inl ⟨rfl, (Bool.and_eq_true_iff.mp word).2⟩
  | doubleQuoted => exact absurd (quoted '"' _ rfl) unquoted.1
  | singleQuoted => exact absurd (quoted '\'' _ rfl) unquoted.2
  | openDouble inside => exact .inr (.inr ⟨.inl rfl, rfl, inside, rfl⟩)
  | openSingle inside => exact .inr (.inr ⟨.inr rfl, rfl, inside, rfl⟩)
  | equals => exact absurd rfl single
  | close => exact absurd rfl single
  | opening => exact absurd rfl single
  | selfClose => cases goesOn
  | directiveClose =>
      cases tail with
      | nil =>
          obtain ⟨rfl, rfl⟩ := List.cons.inj behind
          exact .inr (.inl ⟨rfl, rfl, rfl, rfl⟩)
      | cons _ tail => simp at behind
  | junk => exact absurd rfl single

/-- No tag has a slash right in front of its `>`. -/
theorem Reads.getLast?_ne_slash {text behind : Text} {pieces : List Piece}
    (reads : Reads text pieces ('>' :: behind)) : (lexemes pieces).getLast? ≠ some '/' := by
  rcases List.eq_nil_or_concat' pieces with rfl | ⟨former, piece, rfl⟩
  · rintro ⟨⟩
  · obtain ⟨char, more, takes, _, _⟩ := reads.takes
    intro slash
    rw [lexemes_append, lexemes_cons, lexemes_nil, List.append_nil, takes.lexeme_eq,
      List.getLast?_append_of_ne_nil _ (List.cons_ne_nil _ _)] at slash
    have member := List.mem_of_getLast? slash
    rw [lexemes_nil, List.nil_append] at takes
    cases takes with
    | layout _ blank => cases List.mem_singleton.mp member; cases blank
    | name starts _ word _ =>
        rcases List.mem_cons.mp member with rfl | inside
        · cases starts
        · cases List.all_eq_true.mp word _ inside
    | bare starts _ _ word _ =>
        rcases List.mem_cons.mp member with rfl | inside
        · cases starts
        · cases List.all_eq_true.mp word _ inside
    | doubleQuoted => simp [List.getLast?_cons] at slash
    | singleQuoted => simp [List.getLast?_cons] at slash
    | equals => cases List.mem_singleton.mp member
    | close => cases List.mem_singleton.mp member
    | opening => cases List.mem_singleton.mp member
    | selfClose => simp at slash
    | directiveClose => simp at slash
    | junk _ alone =>
        rw [← List.mem_singleton.mp member] at alone
        exact alone (.inl rfl) rfl

end Piece

end PageDesigner
