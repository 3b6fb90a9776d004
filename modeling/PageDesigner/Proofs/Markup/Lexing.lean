import PageDesigner.Markup.Attribute

/-!
# Reading pieces in front of a rest

A tag's inside is read piece by piece, and a piece is as long as the text behind
it allows.  `Piece.Takes` lists every way to take a piece in front of a rest, and
`Piece.Reads text pieces rest` says that reading the pieces from a text leaves the
rest.  The rest is always present, so a word is never split.

Two facts carry all later arguments about edited tags.  Every text can be read up
to what ends the tag (`exists_reads`), and the pieces stay the same in front of
any rest that does not lengthen the last of them (`Reads.swap`).
-/

namespace PageDesigner

/-- What stands at the start of a text that ends a tag in the given way. -/
inductive TagStop.Starts : TagStop → Text → Prop
  | close (rest : Text) : Starts .close ('>' :: rest)
  | selfClose (rest : Text) : Starts .selfClose ('/' :: '>' :: rest)
  | interrupted (rest : Text) : Starts .interrupted ('<' :: rest)
  | exhausted : Starts .exhausted []

/-- The characters that belong to the tag they end. -/
def TagStop.mark : TagStop → Text
  | close => ['>']
  | selfClose => ['/', '>']
  | interrupted => []
  | exhausted => []

namespace Piece

/-- The characters that a list of pieces takes. -/
def lexemes (pieces : List Piece) : Text := (pieces.map lexeme).flatten

@[simp]
theorem lexemes_nil : lexemes [] = [] := rfl

@[simp]
theorem lexemes_cons (piece : Piece) (pieces : List Piece) :
    lexemes (piece :: pieces) = piece.lexeme ++ lexemes pieces := rfl

@[simp]
theorem lexemes_append (first second : List Piece) :
    lexemes (first ++ second) = lexemes first ++ lexemes second := by
  simp [lexemes]

/-! ## Words and quotations -/

/-- A word is read up to a text that does not go on with it. -/
theorem takeWhile_word {continues : Char → Bool} {more next : Text}
    (word : more.all continues = true) (stops : next.head?.any continues = false) :
    (more ++ next).takeWhile continues = more := by
  rw [List.takeWhile_append_of_pos (by simpa using word)]
  cases next with
  | nil => simp
  | cons head tail => simp_all

/-- What a word leaves does not go on with it. -/
theorem stops_dropWhile (continues : Char → Bool) (text : Text) :
    (text.dropWhile continues).head?.any continues = false := by
  cases dropped : text.dropWhile continues with
  | nil => rfl
  | cons head tail =>
      have stopped := List.head_dropWhile_not continues (l := text) (by simp [dropped])
      simp only [dropped, List.head_cons] at stopped
      simp [stopped]

/-- A closed quotation takes the same characters in front of any text. -/
theorem quoted_closed {quote : Char} {asToken : Text → Token} {content next : Text}
    (inside : content.all (· != quote) = true) :
    quoted quote asToken (content ++ quote :: next) =
      .token (asToken content) (quote :: content ++ [quote]) := by
  unfold quoted
  have stops : (quote :: next).head?.any (· != quote) = false := by simp
  simp only [takeWhile_word inside stops]
  rw [if_pos (by simp)]

/-- An open quotation takes everything. -/
theorem quoted_open {quote : Char} {asToken : Text → Token} {rest : Text}
    (inside : rest.all (· != quote) = true) :
    quoted quote asToken rest = .junk (quote :: rest) := by
  have all : rest.takeWhile (· != quote) = rest := by
    have whole := @takeWhile_word (· != quote) rest [] inside rfl
    rwa [List.append_nil] at whole
  unfold quoted
  simp [all]

/-- A quotation is closed by the first quote, or there is none. -/
theorem closed_or_open (quote : Char) (rest : Text) :
    (∃ content next, rest = content ++ quote :: next ∧ content.all (· != quote) = true) ∨
      rest.all (· != quote) = true := by
  by_cases shorter : (rest.takeWhile (· != quote)).length < rest.length
  · obtain ⟨tail, shape⟩ := quoted_shape shorter
    exact .inl ⟨_, tail, shape, by simp⟩
  · have all : rest.takeWhile (· != quote) = rest :=
      (List.takeWhile_prefix _).eq_of_length_le (by omega)
    right
    rw [← all]
    simp

/-! ## Taking one piece -/

/-- Characters that start neither layout nor a token, unless `>` follows. -/
def startsNothing (char : Char) : Bool :=
  !(Text.isLayout char || startsName char || startsBare char || char == '"' || char == '\'' ||
    char == '=' || char == '>' || char == '<')

/-- In front of `next`, the piece takes `char` and the characters `more` behind it. -/
inductive Takes : Char → Text → Text → Piece → Prop
  | layout {char : Char} (next : Text) (blank : Text.isLayout char = true) :
      Takes char [] next (.layout char)
  | name {char : Char} {more next : Text} (starts : startsName char = true)
      (solid : Text.isLayout char = false) (word : more.all continuesName = true)
      (stops : next.head?.any continuesName = false) :
      Takes char more next (.token (.name (char :: more)) (char :: more))
  | bare {char : Char} {more next : Text} (starts : startsBare char = true)
      (solid : Text.isLayout char = false) (unnamed : startsName char = false)
      (word : more.all continuesBare = true) (stops : next.head?.any continuesBare = false) :
      Takes char more next (.token (.bare (char :: more)) (char :: more))
  | doubleQuoted {content : Text} (next : Text) (inside : content.all (· != '"') = true) :
      Takes '"' (content ++ ['"']) next
        (.token (.doubleQuoted content) ('"' :: content ++ ['"']))
  | singleQuoted {content : Text} (next : Text) (inside : content.all (· != '\'') = true) :
      Takes '\'' (content ++ ['\'']) next
        (.token (.singleQuoted content) ('\'' :: content ++ ['\'']))
  | openDouble {rest : Text} (inside : rest.all (· != '"') = true) :
      Takes '"' rest [] (.junk ('"' :: rest))
  | openSingle {rest : Text} (inside : rest.all (· != '\'') = true) :
      Takes '\'' rest [] (.junk ('\'' :: rest))
  | equals (next : Text) : Takes '=' [] next (.token .equals ['='])
  | close (next : Text) : Takes '>' [] next (.token .close ['>'])
  | opening (next : Text) : Takes '<' [] next (.token .opening ['<'])
  | selfClose (next : Text) : Takes '/' ['>'] next (.token .selfClose ['/', '>'])
  | directiveClose (next : Text) : Takes '%' ['>'] next (.token .directiveClose ['%', '>'])
  | junk {char : Char} {next : Text} (nothing : startsNothing char = true)
      (alone : char = '/' ∨ char = '%' → next.head? ≠ some '>') :
      Takes char [] next (.junk [char])

namespace Takes

theorem lexeme_eq {char : Char} {more next : Text} {piece : Piece}
    (takes : Takes char more next piece) : piece.lexeme = char :: more := by
  cases takes <;> rfl

/-- The first piece of a text is the only one that can be taken there. -/
theorem first_eq {char : Char} {more next : Text} {piece : Piece}
    (takes : Takes char more next piece) : first char (more ++ next) = piece := by
  cases takes with
  | layout _ blank => simp [first, blank]
  | name starts solid word stops => simp [first, solid, starts, takeWhile_word word stops]
  | bare starts solid unnamed word stops =>
      simp [first, solid, unnamed, starts, takeWhile_word word stops]
  | doubleQuoted _ inside => rw [List.append_assoc]; exact quoted_closed inside
  | singleQuoted _ inside => rw [List.append_assoc]; exact quoted_closed inside
  | openDouble inside => rw [List.append_nil]; exact quoted_open inside
  | openSingle inside => rw [List.append_nil]; exact quoted_open inside
  | equals => rfl
  | close => rfl
  | opening => rfl
  | selfClose => rfl
  | directiveClose => rfl
  | junk nothing alone =>
      simp only [startsNothing, Bool.not_eq_true', Bool.or_eq_false_iff, beq_eq_false_iff_ne]
        at nothing
      obtain ⟨⟨⟨⟨⟨⟨⟨solid, unnamed⟩, bare⟩, double⟩, single⟩, equals⟩, close⟩, opening⟩ := nothing
      have slash : ¬ (char = '/' ∧ next.head? = some '>') := fun h => alone (.inl h.1) h.2
      have percent : ¬ (char = '%' ∧ next.head? = some '>') := fun h => alone (.inr h.1) h.2
      simp [first, solid, unnamed, bare, double, single, equals, close, opening, slash, percent]

end Takes

/-- Some piece can be taken from every text. -/
theorem exists_takes (char : Char) (rest : Text) :
    ∃ more next piece, rest = more ++ next ∧ Takes char more next piece := by
  by_cases blank : Text.isLayout char = true
  · exact ⟨[], rest, _, rfl, .layout rest blank⟩
  have solid : Text.isLayout char = false := by simpa using blank
  by_cases named : startsName char = true
  · exact ⟨_, _, _, List.takeWhile_append_dropWhile.symm,
      .name named solid (by simp) (stops_dropWhile continuesName rest)⟩
  have unnamed : startsName char = false := by simpa using named
  by_cases bare : startsBare char = true
  · exact ⟨_, _, _, List.takeWhile_append_dropWhile.symm,
      .bare bare solid unnamed (by simp) (stops_dropWhile continuesBare rest)⟩
  by_cases double : char = '"'
  · subst double
    rcases closed_or_open '"' rest with ⟨content, next, shape, inside⟩ | inside
    · exact ⟨content ++ ['"'], next, _, by simpa using shape, .doubleQuoted next inside⟩
    · exact ⟨rest, [], _, by simp, .openDouble inside⟩
  by_cases single : char = '\''
  · subst single
    rcases closed_or_open '\'' rest with ⟨content, next, shape, inside⟩ | inside
    · exact ⟨content ++ ['\''], next, _, by simpa using shape, .singleQuoted next inside⟩
    · exact ⟨rest, [], _, by simp, .openSingle inside⟩
  by_cases equals : char = '='
  · subst equals
    exact ⟨[], rest, _, rfl, .equals rest⟩
  by_cases close : char = '>'
  · subst close
    exact ⟨[], rest, _, rfl, .close rest⟩
  by_cases opening : char = '<'
  · subst opening
    exact ⟨[], rest, _, rfl, .opening rest⟩
  by_cases slash : char = '/' ∧ rest.head? = some '>'
  · obtain ⟨rfl, follows⟩ := slash
    exact ⟨['>'], rest.tail, _, head?_eq_some_cons follows, .selfClose rest.tail⟩
  by_cases percent : char = '%' ∧ rest.head? = some '>'
  · obtain ⟨rfl, follows⟩ := percent
    exact ⟨['>'], rest.tail, _, head?_eq_some_cons follows, .directiveClose rest.tail⟩
  refine ⟨[], rest, _, rfl, .junk ?_ ?_⟩
  · simp [startsNothing, solid, unnamed, bare, double, single, equals, close, opening]
  · rintro (rfl | rfl) follows
    · exact slash ⟨rfl, follows⟩
    · exact percent ⟨rfl, follows⟩

/-! ## One piece in front of another rest -/

/-- Whether a text cannot lengthen the piece it stands behind. -/
def closedBefore (next : Text) : Piece → Bool
  | token (.name _) _ => !next.head?.any continuesName
  | token (.bare _) _ => !next.head?.any continuesBare
  | junk ('"' :: _) => false
  | junk ('\'' :: _) => false
  | junk ('/' :: _) => next.head? != some '>'
  | junk ('%' :: _) => next.head? != some '>'
  | _ => true

theorem closedBefore_congr {next next' : Text} (same : next.head? = next'.head?) (piece : Piece) :
    piece.closedBefore next = piece.closedBefore next' := by
  unfold closedBefore
  split <;> simp [same]

namespace Takes

/-- A piece that leaves something is closed before what it leaves. -/
theorem closed {char : Char} {more next : Text} {piece : Piece}
    (takes : Takes char more next piece) (follows : next ≠ []) :
    piece.closedBefore next = true := by
  cases takes with
  | name _ _ _ stops => simp [closedBefore, stops]
  | bare _ _ _ _ stops => simp [closedBefore, stops]
  | openDouble => exact absurd rfl follows
  | openSingle => exact absurd rfl follows
  | junk nothing alone =>
      unfold closedBefore
      split <;> simp_all [startsNothing]
  | _ => rfl

/-- A piece is taken in front of every text it is closed before. -/
theorem swap {char : Char} {more next next' : Text} {piece : Piece}
    (takes : Takes char more next piece) (closed : piece.closedBefore next' = true) :
    Takes char more next' piece := by
  cases takes with
  | layout _ blank => exact .layout next' blank
  | name starts solid word _ =>
      exact .name starts solid word (by simpa [closedBefore] using closed)
  | bare starts solid unnamed word _ =>
      exact .bare starts solid unnamed word (by simpa [closedBefore] using closed)
  | doubleQuoted _ inside => exact .doubleQuoted next' inside
  | singleQuoted _ inside => exact .singleQuoted next' inside
  | openDouble => cases closed
  | openSingle => cases closed
  | equals => exact .equals next'
  | close => exact .close next'
  | opening => exact .opening next'
  | selfClose => exact .selfClose next'
  | directiveClose => exact .directiveClose next'
  | junk nothing _ =>
      refine .junk nothing ?_
      rintro (rfl | rfl) <;> simpa [closedBefore] using closed

end Takes

/-! ## Reading several pieces -/

/-- Reading the pieces, none of which ends a tag, from a text leaves the rest. -/
inductive Reads : Text → List Piece → Text → Prop
  | done (rest : Text) : Reads rest [] rest
  | piece {char : Char} {more next rest : Text} {piece : Piece} {pieces : List Piece}
      (takes : Takes char more next piece) (goesOn : piece.stop? = none)
      (others : Reads next pieces rest) : Reads (char :: (more ++ next)) (piece :: pieces) rest

namespace Reads

theorem text_eq {text rest : Text} {pieces : List Piece} (reads : Reads text pieces rest) :
    text = lexemes pieces ++ rest := by
  induction reads with
  | done => rfl
  | piece takes _ _ ih => rw [lexemes_cons, takes.lexeme_eq, ih]; simp

theorem goesOn {text rest : Text} {pieces : List Piece} (reads : Reads text pieces rest) :
    ∀ piece ∈ pieces, piece.stop? = none := by
  induction reads with
  | done => simp
  | piece _ goesOn _ ih => simpa using ⟨goesOn, ih⟩

theorem append {text middle rest : Text} {pieces others : List Piece}
    (reads : Reads text pieces middle) (further : Reads middle others rest) :
    Reads text (pieces ++ others) rest := by
  induction reads with
  | done => exact further
  | piece takes goesOn _ ih => exact .piece takes goesOn (ih further)

/-- Reading can pause between any two pieces. -/
theorem pause {text rest : Text} {pieces others : List Piece}
    (reads : Reads text (pieces ++ others) rest) :
    Reads text pieces (lexemes others ++ rest) ∧ Reads (lexemes others ++ rest) others rest := by
  induction pieces generalizing text with
  | nil =>
      have same := reads.text_eq
      rw [List.nil_append] at reads same
      rw [← same]
      exact ⟨.done text, reads⟩
  | cons piece pieces ih =>
      cases reads with
      | piece takes goesOn others =>
          obtain ⟨former, latter⟩ := ih others
          exact ⟨.piece takes goesOn former, latter⟩

/-- Reading on where pieces were read gives the pieces of the rest. -/
theorem tagPieces_eq {text rest : Text} {pieces : List Piece} (reads : Reads text pieces rest) :
    tagPiecesFrom 0 text = pieces ++ tagPiecesFrom 0 rest := by
  induction reads with
  | done => rfl
  | @piece char more next rest piece pieces takes goesOn _ ih =>
      have skipped : tagPiecesFrom more.length (more ++ next) = tagPiecesFrom 0 next := by
        clear takes
        induction more with
        | nil => cases next <;> rfl
        | cons head more ih => exact ih
      simp only [tagPiecesFrom, takes.first_eq, goesOn, Option.isSome_none, Bool.false_eq_true,
        if_false, takes.lexeme_eq, List.length_cons, Nat.add_sub_cancel, skipped, ih,
        List.cons_append]

/-- The pieces are read in front of every text that the last of them is closed before. -/
theorem swap {text rest rest' : Text} {pieces : List Piece} (reads : Reads text pieces rest)
    (closed : ∀ last ∈ pieces.getLast?, last.closedBefore rest' = true) :
    Reads (lexemes pieces ++ rest') pieces rest' := by
  induction reads with
  | done => exact .done rest'
  | @piece char more next rest piece pieces takes goesOn others ih =>
      rw [lexemes_cons, takes.lexeme_eq, List.append_assoc, List.cons_append]
      cases pieces with
      | nil => exact .piece (takes.swap (closed _ rfl)) goesOn (.done rest')
      | cons follower pieces =>
          refine .piece (takes.swap ?_) goesOn (ih (by simpa using closed))
          cases others with
          | @piece char' more' next' _ _ _ takes' _ _ =>
              have before := takes.closed (by simp)
              have same : (lexemes (follower :: pieces) ++ rest').head? =
                  (char' :: (more' ++ next')).head? := by
                rw [lexemes_cons, takes'.lexeme_eq]
                rfl
              rw [closedBefore_congr same]
              exact before

end Reads

/-! ## What ends a tag -/

theorem starts_of_stop? {char : Char} {more next : Text} {piece : Piece} {stop : TagStop}
    (takes : Takes char more next piece) (ends : piece.stop? = some stop) :
    stop.Starts (char :: (more ++ next)) := by
  cases takes <;> cases ends <;> constructor

/-- Every text can be read up to what ends the tag. -/
theorem exists_reads (text : Text) :
    ∃ pieces rest stop, Reads text pieces rest ∧ TagStop.Starts stop rest := by
  induction hlength : text.length using Nat.strongRecOn generalizing text with
  | _ length ih =>
      cases text with
      | nil => exact ⟨[], [], .exhausted, .done [], .exhausted⟩
      | cons char rest =>
          obtain ⟨more, next, piece, rfl, takes⟩ := exists_takes char rest
          cases ends : piece.stop? with
          | some stop => exact ⟨[], _, stop, .done _, starts_of_stop? takes ends⟩
          | none =>
              have shorter : next.length < length := by
                rw [← hlength, List.length_cons, List.length_append]
                omega
              obtain ⟨pieces, rest, stop, others, starts⟩ := ih _ shorter next rfl
              exact ⟨_, rest, stop, .piece takes ends others, starts⟩

end Piece

end PageDesigner
