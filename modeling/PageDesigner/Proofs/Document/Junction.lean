import PageDesigner.Proofs.Document.Update

/-!
# Where an attribute goes

A new attribute goes behind some pieces of its tag and in front of a closing text
(`TagText.Junction`).  When the tag was closed, the pieces are those of the tag and
the closing text is its mark.  When it was not, the closing text is the blanks that the
tag ends in, or a `>` that did not close the tag: that of a `%>`, or one behind a quote
without a partner.  Either way the tags behind stay what they are.
-/

namespace PageDesigner

open Piece (lexemes blankPieces)

namespace Piece

theorem closedBefore_nil {next : Text} {piece : Piece} (closed : piece.closedBefore next = true) :
    piece.closedBefore [] = true := by
  unfold closedBefore at closed ⊢
  split at closed <;> first | rfl | cases closed

/-- Pieces that were read are read at the end of a text as well. -/
theorem Reads.alone {text rest : Text} {pieces : List Piece} (reads : Reads text pieces rest) :
    Reads (lexemes pieces) pieces [] := by
  cases rest with
  | nil =>
      have same := reads.text_eq
      rw [List.append_nil] at same
      rw [← same]
      exact reads
  | cons head tail =>
      have closed : ∀ last ∈ pieces.getLast?, last.closedBefore [] = true := fun last member =>
        closedBefore_nil (reads.closed_last (by simp) last member)
      have swapped := reads.swap closed
      rw [List.append_nil] at swapped
      exact swapped

/-- Behind the name of a tag, the pieces that were read are read again. -/
theorem Reads.behindName {text rest written : Text} {kept : List Piece}
    (reads : Reads text kept rest) (word : written.all continuesName = true)
    (stops : (lexemes kept).head?.any continuesName = false) :
    tagPiecesFrom 0 ((('<' :: (written ++ lexemes kept)).drop 1).dropWhile continuesName) = kept := by
  have behind : ('<' :: (written ++ lexemes kept)).drop 1 = written ++ lexemes kept := rfl
  have rest : (written ++ lexemes kept).dropWhile continuesName = lexemes kept := by
    rw [List.dropWhile_append_of_pos (List.all_eq_true.mp word)]
    cases text : lexemes kept with
    | nil => rfl
    | cons char more =>
        rw [text] at stops
        have plain : continuesName char = false := stops
        rw [List.dropWhile_cons, plain]
        rfl
  rw [behind, rest, reads.alone.tagPieces_eq]
  exact List.append_nil kept

/-- Nothing is left behind a quote without a partner. -/
theorem Reads.eq_nil_of_open {text rest : Text} {pieces : List Piece} {quote : Char} {more : Text}
    (reads : Reads text pieces rest) (last : pieces.getLast? = some (.junk (quote :: more)))
    (isQuote : quote = '"' ∨ quote = '\'') : rest = [] := by
  cases rest with
  | nil => rfl
  | cons head tail =>
      have closed := reads.closed_last (by simp) _ last
      rcases isQuote with rfl | rfl
      · cases closed
      · cases closed

end Piece

namespace TagText

/-- How the tag ends behind an attribute that is written in front of the closing text; the tags
behind it stay what they are. -/
def Closes (tag : TagText) (closing : Text) : Prop :=
  ∃ blanks stop behind,
    Piece.Reads (closing ++ tag.behind) (blankPieces blanks) (TagStop.mark stop ++ behind) ∧
    stop.Starts (stop.mark ++ behind) ∧
    Event.profilesFrom (Event.takenBehind tag.name stop behind) behind = tag.later

/-- An attribute goes behind the kept pieces of a tag, in front of the closing text. -/
structure Junction (tag : TagText) (kept : List Piece) (selfClosing : Bool) (closing : Text) :
    Prop where
  split : Document.splitTag tag.opening = ('<' :: (tag.written ++ lexemes kept), selfClosing)
  whole : tag.opening = '<' :: (tag.written ++ lexemes kept) ++ closing
  reads : Piece.Reads (lexemes kept) kept []
  names : (TagBody.entries none kept).map Prod.fst = tag.entries.map Prod.fst
  serves : Entry.runsAtServer (TagBody.entries none kept) = Entry.runsAtServer tag.entries
  keeps : closing.getLast? = some '>' → TagBody.entries none kept = tag.entries
  unquoted : '"' ∉ closing ∧ '\'' ∉ closing
  exhausted : ∀ quote more, kept.getLast? = some (.junk (quote :: more)) →
    quote = '"' ∨ quote = '\'' → tag.behind = []
  closes : tag.Closes closing

theorem opening_eq (tag : TagText) :
    tag.opening = '<' :: (tag.written ++ lexemes tag.pieces) ++ tag.stop.mark := by
  simp [opening]

/-- A name is what a tag has in front of its pieces, and holds none of these characters. -/
theorem exists_last (tag : TagText) :
    ∃ start last, tag.written = start ++ [last] ∧ continuesName last = true := by
  rcases List.eq_nil_or_concat' tag.written with none' | ⟨start, last, shape⟩
  · have named := tag.named
    rw [none'] at named
    cases named
  · refine ⟨start, last, shape, ?_⟩
    have word := tag.word
    rw [shape] at word
    exact List.all_eq_true.mp word last (by simp)

theorem closes_mark (tag : TagText) : tag.Closes tag.stop.mark :=
  ⟨[], tag.stop, tag.behind, .done _, tag.starts, rfl⟩

/-! ## Tags that were closed -/

/-- Blanks are not behind a text that ends in a visible character. -/
theorem eq_nil_of_blanks {front front' blanks : Text} {last : Char}
    (same : front ++ [last] = front' ++ blanks) (areBlank : blanks.all Text.isBlank = true)
    (visible : Text.isBlank last = false) : blanks = [] := by
  rcases List.eq_nil_or_concat' blanks with none' | ⟨others, blank, rfl⟩
  · exact none'
  · rw [← List.append_assoc] at same
    obtain ⟨-, ends⟩ := List.append_inj' same rfl
    rw [List.all_append] at areBlank
    have isBlank := List.all_eq_true.mp (Bool.and_eq_true_iff.mp areBlank).2 blank
      List.mem_cons_self
    rw [← (List.cons.inj ends).1, visible] at isBlank
    cases isBlank

/-- The text in front of the `>` of a tag does not end in a slash. -/
theorem getLast?_ne_slash (tag : TagText) (closed : tag.stop = .close) :
    ('<' :: (tag.written ++ lexemes tag.pieces)).getLast? ≠ some '/' := by
  have reads := tag.reads
  rw [closed] at reads
  have inner := reads.getLast?_ne_slash
  obtain ⟨start, last, shape, continues⟩ := tag.exists_last
  intro slash
  rw [← List.cons_append, List.getLast?_append] at slash
  cases ends : (lexemes tag.pieces).getLast? with
  | some char =>
      rw [ends, Option.some_or] at slash
      exact inner (ends.trans slash)
  | none =>
      rw [ends, Option.none_or, shape, ← List.cons_append, List.getLast?_concat] at slash
      rw [Option.some.inj slash] at continues
      cases continues

/-- A tag that was closed keeps all its pieces in front of its mark. -/
theorem junction_of_split {tag : TagText} {selfClosing : Bool}
    (split : Document.splitTag tag.opening =
      ('<' :: (tag.written ++ lexemes tag.pieces), selfClosing))
    (unquoted : '"' ∉ tag.stop.mark ∧ '\'' ∉ tag.stop.mark) (follows : tag.stop.mark ≠ []) :
    tag.Junction tag.pieces selfClosing tag.stop.mark where
  split := split
  whole := tag.opening_eq
  reads := tag.reads.alone
  names := rfl
  serves := rfl
  keeps := fun _ => rfl
  unquoted := unquoted
  exhausted := fun _ _ last isQuote =>
    absurd (List.append_eq_nil_iff.mp (tag.reads.eq_nil_of_open last isQuote)).1 follows
  closes := tag.closes_mark

theorem junction_of_close {tag : TagText} (closed : tag.stop = .close) :
    tag.Junction tag.pieces false ['>'] := by
  have mark : tag.stop.mark = ['>'] := by rw [closed]; rfl
  obtain ⟨inside, taken, blanks, shape, areBlank, kinds⟩ := Document.splitTag_cases tag.opening
  have opening := tag.opening_eq
  rw [mark] at opening
  rw [opening] at shape
  have none' : blanks = [] := by
    rw [← List.append_assoc] at shape
    exact eq_nil_of_blanks shape areBlank (by decide)
  subst none'
  rw [List.append_nil] at shape
  rw [← mark]
  refine junction_of_split ?_ (by rw [mark]; decide) (by rw [mark]; decide)
  rcases kinds with ⟨rfl, _⟩ | ⟨rfl, _, split⟩ | ⟨rfl, ends, _⟩
  · exfalso
    have both : inside ++ ['/', '>'] = (inside ++ ['/']) ++ ['>'] := by simp
    rw [both] at shape
    obtain ⟨same, -⟩ := List.append_inj' shape rfl
    refine tag.getLast?_ne_slash closed ?_
    rw [same, List.getLast?_concat]
  · obtain ⟨rfl, -⟩ := List.append_inj' shape rfl
    exact split
  · exfalso
    rw [List.append_nil] at shape
    rw [← shape, List.getLast?_concat] at ends
    exact ends rfl

theorem junction_of_selfClose {tag : TagText} (closed : tag.stop = .selfClose) :
    tag.Junction tag.pieces true ['/', '>'] := by
  have mark : tag.stop.mark = ['/', '>'] := by rw [closed]; rfl
  obtain ⟨inside, taken, blanks, shape, areBlank, kinds⟩ := Document.splitTag_cases tag.opening
  have opening := tag.opening_eq
  have both : ∀ front : Text, front ++ ['/', '>'] = (front ++ ['/']) ++ ['>'] := by simp
  rw [mark, both] at opening
  rw [opening] at shape
  have none' : blanks = [] := by
    rw [← List.append_assoc] at shape
    exact eq_nil_of_blanks shape areBlank (by decide)
  subst none'
  rw [List.append_nil] at shape
  rw [← mark]
  refine junction_of_split ?_ (by rw [mark]; decide) (by rw [mark]; decide)
  rcases kinds with ⟨rfl, split⟩ | ⟨rfl, slash, _⟩ | ⟨rfl, ends, _⟩
  · rw [both] at shape
    obtain ⟨same, -⟩ := List.append_inj' shape rfl
    obtain ⟨rfl, -⟩ := List.append_inj' same rfl
    exact split
  · exfalso
    obtain ⟨same, -⟩ := List.append_inj' shape rfl
    rw [← same, List.getLast?_concat] at slash
    exact slash rfl
  · exfalso
    rw [List.append_nil] at shape
    rw [← shape, List.getLast?_concat] at ends
    exact ends rfl

end TagText

/-! ## What the last pieces of a tag state -/

namespace TagBody

/-- Blanks at the end of a tag state nothing. -/
theorem entries_blankPieces (pending : Option (Text × Bool)) (blanks : Text) :
    entries pending (blankPieces blanks) = bareEntry pending := by
  unfold entries
  rw [Piece.entryRun_blankPieces]
  rfl

/-- A mark that does not close the tag states nothing. -/
theorem entries_directiveClose (pending : Option (Text × Bool)) (blanks : Text) :
    entries pending (.token .directiveClose ['%', '>'] :: blankPieces blanks) =
      bareEntry pending := by
  rw [← entries_blankPieces pending blanks]
  rcases pending with _ | ⟨name, awaits⟩
  · rfl
  · cases awaits <;> rfl

/-- An attribute without a value does not say `server`. -/
theorem runsAtServer_bareEntry (pending : Option (Text × Bool)) :
    Entry.runsAtServer (bareEntry pending) = false := by
  rcases pending with _ | ⟨name, awaits⟩
  · rfl
  · exact Entry.runsAtServer_of_ne (by decide) _

/-- An unquoted value at the end of a tag is the value of the attribute that awaits one: it brings no
name, and does not say `server`. -/
theorem entries_bare {char : Char} (starts : Piece.startsBare char = true) (more lexeme : Text)
    (pending : Option (Text × Bool)) (blanks : Text) :
    (entries pending (.token (.bare (char :: more)) lexeme :: blankPieces blanks)).map Prod.fst =
        (bareEntry pending).map Prod.fst ∧
      Entry.runsAtServer
        (entries pending (.token (.bare (char :: more)) lexeme :: blankPieces blanks)) = false := by
  have others := entries_blankPieces
  rcases pending with _ | ⟨name, awaits⟩
  · exact ⟨congrArg (List.map Prod.fst) (others none blanks),
      (congrArg Entry.runsAtServer (others none blanks)).trans (runsAtServer_bareEntry none)⟩
  · cases awaits with
    | false =>
        exact ⟨congrArg (List.map Prod.fst) (others (some (name, false)) blanks),
          (congrArg Entry.runsAtServer (others (some (name, false)) blanks)).trans
            (runsAtServer_bareEntry _)⟩
    | true =>
        have plain : char ≠ '&' := by
          rintro rfl
          cases starts
        have value : (Reference.decode (char :: more)).sameName "server" = false := by
          rw [Reference.decode_cons plain]
          rw [Bool.eq_false_iff]
          intro same
          have lower := congrArg List.head? (Text.sameName_iff.mp same)
          have small : char.toLower = 's' := Option.some.inj lower
          simp only [Piece.startsBare, Bool.or_eq_true, beq_iff_eq] at starts
          rcases starts with ((digit | rfl) | rfl) | rfl
          · rw [Text.toLower_of_isDigit digit] at small
            rw [small] at digit
            cases digit
          all_goals cases small
        have here : entries (some (name, true))
            (.token (.bare (char :: more)) lexeme :: blankPieces blanks) =
              [(Name.ofText name, Reference.decode (char :: more))] :=
          congrArg ((Name.ofText name, Reference.decode (char :: more)) :: ·)
            (entries_blankPieces none blanks)
        rw [here]
        exact ⟨rfl, Entry.runsAtServer_of_ne value _⟩

end TagBody

/-! ## Tags that were not closed -/

/-- What is cut off the end of a tag: a mark with blanks behind it. -/
structure CutOff (mark blanks : Text) : Prop where
  marked : mark = ['/', '>'] ∨ mark = ['>'] ∨ mark = []
  areBlank : blanks.all Text.isBlank = true

namespace CutOff

variable {mark blanks : Text} {char : Char}

theorem begins (cutOff : CutOff mark blanks) (member : char ∈ mark ++ blanks) :
    char = '>' ∨ char = '/' ∨ Text.isBlank char = true := by
  obtain ⟨marked, areBlank⟩ := cutOff
  rcases List.mem_append.mp member with inMark | inBlanks
  · rcases marked with rfl | rfl | rfl
    · simp only [List.mem_cons, List.not_mem_nil, or_false] at inMark
      rcases inMark with slash | close
      · exact .inr (.inl slash)
      · exact .inl close
    · exact .inl (List.mem_singleton.mp inMark)
    · cases inMark
  · exact .inr (.inr (List.all_eq_true.mp areBlank char inBlanks))

theorem foreign (cutOff : CutOff mark blanks) (member : char ∈ mark ++ blanks) :
    continuesName char = false := by
  rcases cutOff.begins member with rfl | rfl | blank
  · rfl
  · rfl
  · rw [Bool.eq_false_iff]
    intro continues
    rw [isBlank_of_continuesName continues] at blank
    cases blank

theorem unquoted (cutOff : CutOff mark blanks) : '"' ∉ mark ++ blanks ∧ '\'' ∉ mark ++ blanks := by
  constructor
  · intro member
    rcases cutOff.begins member with close | slash | blank
    · cases close
    · cases slash
    · cases blank
  · intro member
    rcases cutOff.begins member with close | slash | blank
    · cases close
    · cases slash
    · cases blank

/-- Where a word of an unquoted value was cut, there was no mark. -/
theorem eq_nil_of_continuesBare (cutOff : CutOff mark blanks) {head : Char} {rest : Text}
    (shape : mark ++ blanks = head :: rest) (continues : Piece.continuesBare head = true) :
    mark = [] := by
  rcases cutOff.marked with rfl | rfl | rfl
  · rw [← (List.cons.inj shape).1] at continues
    cases continues
  · rw [← (List.cons.inj shape).1] at continues
    cases continues
  · rfl

/-- A cut in front of a `>` cuts off the `>`. -/
theorem eq_close (cutOff : CutOff mark blanks) {rest : Text}
    (shape : mark ++ blanks = '>' :: rest) : mark = ['>'] ∧ blanks = rest := by
  obtain ⟨marked, areBlank⟩ := cutOff
  rcases marked with rfl | rfl | rfl
  · cases (List.cons.inj shape).1
  · exact ⟨rfl, (List.cons.inj shape).2⟩
  · rw [List.nil_append] at shape
    rw [shape] at areBlank
    cases areBlank

end CutOff

namespace TagText

/-- What is cut off the end of a tag leaves its name alone. -/
theorem exists_inside {tag : TagText} {inside back : Text}
    (shape : '<' :: (tag.written ++ lexemes tag.pieces) = inside ++ back)
    (foreign : ∀ char ∈ back, continuesName char = false) :
    ∃ inner, inside = '<' :: (tag.written ++ inner) ∧ lexemes tag.pieces = inner ++ back := by
  rw [← List.cons_append] at shape
  rcases List.append_eq_append_iff.mp shape with ⟨inner, rfl, same⟩ | ⟨cut, same, rfl⟩
  · exact ⟨inner, rfl, same⟩
  · rcases List.eq_nil_or_concat' cut with rfl | ⟨others, char, rfl⟩
    · rw [List.append_nil] at same
      exact ⟨[], by rw [List.append_nil]; exact same.symm, rfl⟩
    · exfalso
      obtain ⟨start, last, written, continues⟩ := tag.exists_last
      rw [written, ← List.cons_append, ← List.append_assoc] at same
      obtain ⟨-, ends⟩ := List.append_inj' same rfl
      rw [(List.cons.inj ends).1, foreign char (by simp)] at continues
      cases continues

variable {tag : TagText} {selfClosing : Bool} {former : List Piece} {blanks : Text}

/-- The blanks that a tag ends in are cut off. -/
theorem junction_of_blanks (open' : tag.stop.mark = [])
    (pieces : tag.pieces = former ++ blankPieces blanks) (areBlank : blanks.all Text.isBlank = true)
    (split : Document.splitTag tag.opening =
      ('<' :: (tag.written ++ lexemes former), selfClosing)) :
    tag.Junction former selfClosing blanks := by
  have reads := tag.reads
  rw [pieces] at reads
  have same : TagBody.entries none former = tag.entries := by
    unfold TagText.entries
    rw [pieces, TagBody.entries_append, TagBody.entries_blankPieces]
    rfl
  refine ⟨split, ?_, reads.pause.1.alone, congrArg _ same, congrArg _ same, fun _ => same, ?_, ?_,
    ?_⟩
  · rw [tag.opening_eq, open', pieces]
    simp
  · exact ⟨Text.absent_of_blanks areBlank (by decide), Text.absent_of_blanks areBlank (by decide)⟩
  · intro quote more last isQuote
    have nothing := reads.pause.1.eq_nil_of_open last isQuote
    exact (List.append_eq_nil_iff.mp (List.append_eq_nil_iff.mp nothing).2).2
  · refine ⟨blanks, tag.stop, tag.behind, ?_, tag.starts, rfl⟩
    rw [open']
    exact Piece.reads_blankPieces areBlank _

/-- The blanks that an unquoted value ends in are cut off. -/
theorem junction_of_bare (open' : tag.stop.mark = []) {char : Char} {tail second : Text}
    (pieces : tag.pieces = former ++ .token (.bare (char :: tail ++ second))
      (char :: tail ++ second) :: blankPieces blanks)
    (areBlank : (second ++ blanks).all Text.isBlank = true)
    (split : Document.splitTag tag.opening =
      ('<' :: (tag.written ++ lexemes (former ++ [.token (.bare (char :: tail)) (char :: tail)])),
        selfClosing)) :
    tag.Junction (former ++ [.token (.bare (char :: tail)) (char :: tail)]) selfClosing
      (second ++ blanks) := by
  have reads := tag.reads
  rw [pieces] at reads
  obtain ⟨char', more, takes, _, _⟩ := reads.takes
  obtain ⟨value, starts, solid, unnamed, longer⟩ := takes.of_bare
  obtain ⟨rfl, rfl⟩ := List.cons.inj value
  have word : tail.all Piece.continuesBare = true := by
    have both : (tail ++ second).all Piece.continuesBare = true := longer
    rw [List.all_append] at both
    exact (Bool.and_eq_true_iff.mp both).1
  have last : Piece.Reads (char :: tail) [.token (.bare (char :: tail)) (char :: tail)] [] := by
    have single : Piece.Reads (char :: (tail ++ []))
        [.token (.bare (char :: tail)) (char :: tail)] [] :=
      .piece (.bare starts solid unnamed word rfl) rfl (.done [])
    rw [List.append_nil] at single
    exact single
  have whole := reads.exchange last (by simp [Piece.lexeme]) rfl
  have bare := TagBody.entries_bare starts
  refine ⟨split, ?_, ?_, ?_, ?_, ?_, ?_, ?_, ?_⟩
  · rw [tag.opening_eq, open', pieces]
    simp [Piece.lexeme]
  · have text : lexemes (former ++ [.token (.bare (char :: tail)) (char :: tail)]) =
        lexemes former ++ char :: tail := by
      simp [Piece.lexeme]
    rw [text]
    exact whole
  · unfold TagText.entries
    rw [pieces, TagBody.entries_append, TagBody.entries_append, List.map_append, List.map_append]
    exact congrArg (_ ++ ·) ((bare tail _ _ []).1.trans (bare (tail ++ second) _ _ blanks).1.symm)
  · unfold TagText.entries
    rw [pieces, TagBody.entries_append, TagBody.entries_append, Entry.runsAtServer_append,
      Entry.runsAtServer_append]
    exact congrArg (_ || ·)
      ((bare tail _ _ []).2.trans (bare (tail ++ second) _ _ blanks).2.symm)
  · intro close
    cases List.all_eq_true.mp areBlank _ (List.mem_of_getLast? close)
  · exact ⟨Text.absent_of_blanks areBlank (by decide), Text.absent_of_blanks areBlank (by decide)⟩
  · intro quote more last' _
    rw [List.getLast?_concat] at last'
    cases last'
  · refine ⟨second ++ blanks, tag.stop, tag.behind, ?_, tag.starts, rfl⟩
    rw [open']
    exact Piece.reads_blankPieces areBlank _

/-- The `>` of a mark that did not close the tag is cut off; it closes the tag now. -/
theorem junction_of_directiveClose (open' : tag.stop.mark = [])
    (pieces : tag.pieces = former ++ .token .directiveClose ['%', '>'] :: blankPieces blanks)
    (areBlank : blanks.all Text.isBlank = true)
    (split : Document.splitTag tag.opening =
      ('<' :: (tag.written ++ lexemes (former ++ [.junk ['%']])), selfClosing)) :
    tag.Junction (former ++ [.junk ['%']]) selfClosing ('>' :: blanks) := by
  have reads := tag.reads
  rw [pieces] at reads
  have last : Piece.Reads ['%'] [.junk ['%']] [] := by
    refine @Piece.Reads.piece '%' [] [] [] _ _ (.junk (by decide) ?_) rfl (.done [])
    rintro _ ⟨⟩
  have whole := reads.exchange last (by simp [Piece.lexeme]) rfl
  have same : TagBody.entries none (former ++ [.junk ['%']]) = tag.entries := by
    unfold TagText.entries
    rw [pieces, TagBody.entries_append, TagBody.entries_append, TagBody.entries_directiveClose]
    rfl
  refine ⟨split, ?_, ?_, congrArg _ same, congrArg _ same, fun _ => same, ?_, ?_, ?_⟩
  · rw [tag.opening_eq, open', pieces]
    simp [Piece.lexeme]
  · have text : lexemes (former ++ [.junk ['%']]) = lexemes former ++ ['%'] := by
      simp [Piece.lexeme]
    rw [text]
    exact whole
  · constructor
    · rintro (_ | ⟨_, member⟩)
      exact Text.absent_of_blanks areBlank (by decide) member
    · rintro (_ | ⟨_, member⟩)
      exact Text.absent_of_blanks areBlank (by decide) member
  · intro quote more last' isQuote
    rw [List.getLast?_concat] at last'
    cases last'
    rcases isQuote with isQuote | isQuote
    · cases isQuote
    · cases isQuote
  · refine ⟨[], .close, blanks ++ tag.behind, .done _, .close _, ?_⟩
    refine Event.profilesFrom_blanks areBlank tag.name ?_ tag.behind
    intro closed
    rw [closed] at open'
    cases open'

/-- Behind a tag that takes the rest of the text there are no tags, even if it were closed. -/
theorem closes_of_behind (behind : tag.behind = []) {mark : Text} (cutOff : CutOff mark blanks) :
    tag.Closes (mark ++ blanks) := by
  obtain ⟨marked, areBlank⟩ := cutOff
  have nothing : ∀ skip, Event.profilesFrom skip blanks = tag.later := by
    intro skip
    have absent : '<' ∉ blanks.drop skip := fun member =>
      Text.absent_of_blanks areBlank (by decide) (List.mem_of_mem_drop member)
    have plain := Event.profilesFrom_plain absent []
    rw [List.append_nil] at plain
    unfold later
    rw [Event.profilesFrom_drop, plain, behind]
    cases Event.takenBehind tag.name tag.stop [] <;> rfl
  unfold Closes
  rw [behind, List.append_nil]
  rcases marked with rfl | rfl | rfl
  · exact ⟨[], .selfClose, blanks, .done _, .selfClose blanks, nothing _⟩
  · exact ⟨[], .close, blanks, .done _, .close blanks, nothing _⟩
  · have reads := Piece.reads_blankPieces areBlank []
    rw [List.append_nil] at reads
    refine ⟨blanks, .exhausted, [], reads, .exhausted, ?_⟩
    rw [← nothing blanks.length, Event.profilesFrom_drop blanks.length, List.drop_length]
    cases Event.takenBehind tag.name .exhausted [] <;> rfl

/-- The end of what a quote without a partner takes is cut off. -/
theorem junction_of_quote (open' : tag.stop.mark = []) {quote : Char} {inside mark : Text}
    (isQuote : quote = '"' ∨ quote = '\'')
    (pieces : tag.pieces = former ++ [.junk (quote :: (inside ++ (mark ++ blanks)))])
    (unpaired : inside.all (· != quote) = true) (cutOff : CutOff mark blanks)
    (split : Document.splitTag tag.opening =
      ('<' :: (tag.written ++ lexemes (former ++ [.junk (quote :: inside)])), selfClosing)) :
    tag.Junction (former ++ [.junk (quote :: inside)]) selfClosing (mark ++ blanks) := by
  have reads := tag.reads
  have behind : tag.behind = [] := by
    have nothing := reads.eq_nil_of_open (by rw [pieces, List.getLast?_concat]) isQuote
    exact (List.append_eq_nil_iff.mp nothing).2
  rw [pieces] at reads
  have last : Piece.Reads (quote :: inside) [.junk (quote :: inside)] [] := by
    have single : Piece.Reads (quote :: (inside ++ [])) [.junk (quote :: inside)] [] := by
      rcases isQuote with rfl | rfl
      · exact .piece (.openDouble unpaired) rfl (.done [])
      · exact .piece (.openSingle unpaired) rfl (.done [])
    rw [List.append_nil] at single
    exact single
  have whole := reads.exchange last (by simp [Piece.lexeme]) rfl
  have same : TagBody.entries none (former ++ [.junk (quote :: inside)]) = tag.entries := by
    unfold TagText.entries
    rw [pieces, TagBody.entries_append, TagBody.entries_append]
    rfl
  refine ⟨split, ?_, ?_, congrArg _ same, congrArg _ same, fun _ => same, cutOff.unquoted,
    fun _ _ _ _ => behind, closes_of_behind behind cutOff⟩
  · rw [tag.opening_eq, open', pieces]
    simp [Piece.lexeme]
  · have text : lexemes (former ++ [.junk (quote :: inside)]) =
        lexemes former ++ quote :: inside := by
      simp [Piece.lexeme]
    rw [text]
    exact whole

/-- No piece inside a tag starts with what would close the tag. -/
theorem ne_closing {latter : List Piece} {text rest back : Text}
    (reads : Piece.Reads text (former ++ latter) rest) :
    lexemes latter ≠ '>' :: back ∧ lexemes latter ≠ '/' :: '>' :: back := by
  cases latter with
  | nil =>
      constructor
      · intro shape
        cases shape
      · intro shape
        cases shape
  | cons piece latter =>
      obtain ⟨char, more, takes, goesOn, _⟩ := reads.takes
      rw [Piece.lexemes_cons, takes.lexeme_eq, List.cons_append]
      constructor
      · intro shape
        obtain ⟨rfl, -⟩ := List.cons.inj shape
        cases takes with
        | layout _ blank => cases blank
        | name starts => cases starts
        | bare starts => cases starts
        | close => cases goesOn
        | junk nothing => cases nothing
      · intro shape
        obtain ⟨rfl, behind⟩ := List.cons.inj shape
        generalize next : lexemes latter ++ rest = next' at takes
        cases takes with
        | layout _ blank => cases blank
        | name starts => cases starts
        | bare starts => cases starts
        | selfClose => cases goesOn
        | junk _ alone =>
            rw [List.nil_append] at behind
            rw [← next, behind] at alone
            exact alone (.inl rfl) rfl

/-- Between two pieces only blanks are cut off. -/
theorem exists_junction_between (open' : tag.stop.mark = []) {mark : Text}
    (cutOff : CutOff mark blanks) {latter : List Piece} (pieces : tag.pieces = former ++ latter)
    (rest : mark ++ blanks = lexemes latter)
    (split : Document.splitTag tag.opening =
      ('<' :: (tag.written ++ lexemes former), selfClosing)) :
    ∃ kept selfClosing closing, tag.Junction kept selfClosing closing := by
  have reads := tag.reads
  rw [pieces] at reads
  obtain ⟨marked, areBlank⟩ := cutOff
  rcases marked with rfl | rfl | rfl
  · exact absurd rest.symm (ne_closing reads).2
  · exact absurd rest.symm (ne_closing reads).1
  · have blank : (lexemes latter).all Text.isBlank = true := by
      rw [← rest]
      exact areBlank
    rw [reads.pause.2.eq_blankPieces blank] at pieces
    exact ⟨former, selfClosing, lexemes latter, junction_of_blanks open' pieces blank split⟩

/-- Inside a piece it depends on the piece what is cut off. -/
theorem exists_junction_inside (open' : tag.stop.mark = []) {mark : Text}
    (cutOff : CutOff mark blanks) {piece : Piece} {latter : List Piece} {char head : Char}
    {tail second : Text} (pieces : tag.pieces = former ++ piece :: latter)
    (lexeme : piece.lexeme = (char :: tail) ++ head :: second)
    (rest : mark ++ blanks = head :: second ++ lexemes latter)
    (split : Document.splitTag tag.opening =
      ('<' :: (tag.written ++ (lexemes former ++ char :: tail)), selfClosing)) :
    ∃ kept selfClosing closing, tag.Junction kept selfClosing closing := by
  have reads := tag.reads
  rw [pieces] at reads
  obtain ⟨char', more, takes, goesOn, others⟩ := reads.takes
  rw [takes.lexeme_eq] at lexeme
  obtain ⟨rfl, -⟩ := List.cons.inj lexeme
  have behind : more = tail ++ head :: second := (List.cons.inj lexeme).2
  have begins : head = '>' ∨ head = '/' ∨ Text.isBlank head = true := by
    refine cutOff.begins ?_
    rw [rest]
    exact List.mem_cons_self
  have unquoted : '"' ∉ head :: second ∧ '\'' ∉ head :: second := by
    obtain ⟨double, single⟩ := cutOff.unquoted
    rw [rest] at double single
    exact ⟨fun member => double (List.mem_append_left _ member),
      fun member => single (List.mem_append_left _ member)⟩
  rcases takes.cut goesOn lexeme (List.cons_ne_nil _ _) begins unquoted with
    ⟨rfl, continues⟩ | ⟨rfl, cut, rfl, rfl⟩ | ⟨isQuote, rfl, unpaired, nothing⟩
  · -- An unquoted value loses the blanks that it ends in.
    have none' : mark = [] := by
      rw [List.all_cons] at continues
      exact cutOff.eq_nil_of_continuesBare rest (Bool.and_eq_true_iff.mp continues).1
    have areBlank := cutOff.areBlank
    rw [none', List.nil_append] at rest
    rw [rest] at areBlank
    have blank : (lexemes latter).all Text.isBlank = true := by
      rw [List.all_append] at areBlank
      exact (Bool.and_eq_true_iff.mp areBlank).2
    rw [others.eq_blankPieces blank, behind] at pieces
    refine ⟨_, selfClosing, _, junction_of_bare open' pieces areBlank ?_⟩
    rw [split]
    simp [Piece.lexeme]
  · -- The mark `%>` loses its `>`.
    obtain ⟨rfl, rfl⟩ := cutOff.eq_close rest
    rw [others.eq_blankPieces cutOff.areBlank] at pieces
    refine ⟨_, selfClosing, _, junction_of_directiveClose open' pieces cutOff.areBlank ?_⟩
    rw [split, cut]
    simp [Piece.lexeme]
  · -- A quote without a partner loses whatever would end a tag.
    have last : latter = [] := by
      rw [nothing] at others
      generalize tag.stop.mark ++ tag.behind = rest' at others
      cases others
      rfl
    subst last
    rw [Piece.lexemes_nil, List.append_nil] at rest
    rw [← rest] at behind
    rw [behind, List.all_append] at unpaired
    rw [behind] at pieces
    refine ⟨_, selfClosing, _, junction_of_quote open' isQuote pieces
      (Bool.and_eq_true_iff.mp unpaired).1 cutOff ?_⟩
    rw [split]
    simp [Piece.lexeme]

/-- The end of a tag that was not closed is cut off somewhere among its pieces. -/
theorem exists_junction_of_open (open' : tag.stop.mark = []) :
    ∃ kept selfClosing closing, tag.Junction kept selfClosing closing := by
  obtain ⟨inside, mark, blanks, shape, areBlank, kinds⟩ := Document.splitTag_cases tag.opening
  obtain ⟨marked, selfClosing, split⟩ :
      (mark = ['/', '>'] ∨ mark = ['>'] ∨ mark = []) ∧
        ∃ selfClosing, Document.splitTag tag.opening = (inside, selfClosing) := by
    rcases kinds with ⟨marked, split⟩ | ⟨marked, _, split⟩ | ⟨marked, _, _, split⟩
    · exact ⟨.inl marked, _, split⟩
    · exact ⟨.inr (.inl marked), _, split⟩
    · exact ⟨.inr (.inr marked), _, split⟩
  have cutOff : CutOff mark blanks := ⟨marked, areBlank⟩
  rw [tag.opening_eq, open', List.append_nil] at shape
  obtain ⟨inner, rfl, text⟩ := exists_inside shape fun _ member => cutOff.foreign member
  rcases Piece.lexemes_cut text with ⟨former, latter, pieces, rfl, rest⟩ |
    ⟨former, piece, latter, first, second, pieces, lexeme, some', some'', rfl, rest⟩
  · exact exists_junction_between open' cutOff pieces rest split
  · obtain ⟨char, tail, rfl⟩ := List.exists_cons_of_ne_nil some'
    obtain ⟨head, second, rfl⟩ := List.exists_cons_of_ne_nil some''
    exact exists_junction_inside open' cutOff pieces lexeme rest split

/-- An attribute goes somewhere behind the pieces of a tag. -/
theorem exists_junction (tag : TagText) :
    ∃ kept selfClosing closing, tag.Junction kept selfClosing closing := by
  cases stop : tag.stop with
  | close => exact ⟨_, _, _, junction_of_close stop⟩
  | selfClose => exact ⟨_, _, _, junction_of_selfClose stop⟩
  | interrupted => exact exists_junction_of_open (by rw [stop]; rfl)
  | exhausted => exact exists_junction_of_open (by rw [stop]; rfl)

end TagText

end PageDesigner
