import PageDesigner.Proofs.Document.Junction

/-!
# Whether a new id is read back

A tag without an `id` gets one behind the rest of the tag.  The new attribute is read
back unless a value is awaited there, or the last piece of the tag does not end where
the attribute begins: a quote without a partner, or an unquoted value that ends in a
blank which is no layout (`Document.takesAttribute`).  Then the tag has no `id` after
the edit either (`exists_inserted`).  A tag that repeats no name repeats none after the
edit, unless it cannot get an `id` at all (`Profile.Unrepeated`).
-/

namespace PageDesigner

open Piece (lexemes blankPieces attributePieces)

/-- Whether a piece is a double quote without a partner. -/
def Piece.isUnpaired : Piece → Bool
  | .junk ('"' :: _) => true
  | _ => false

namespace Document

/-- The blank that a new attribute needs in front. -/
def lead (inside : Text) : Text := Text.onlyIf (!endsInBlank inside) " "

/-- The pieces behind the name of a tag, up to a cut. -/
def innerPieces (kept : Text) : List Piece :=
  Piece.tagPiecesFrom 0 ((kept.drop 1).dropWhile continuesName)

/-- Whether an attribute that is written into the tag is read back: no attribute of the tag awaits
its value, and the last piece ends where the new attribute begins. -/
def takesAttribute (opening : Text) : Bool :=
  let inside := (splitTag opening).1
  let pieces := Piece.tagPiecesFrom 0 ((inside.drop 1).dropWhile continuesName)
  !(TagBody.entryRun none pieces).2.any (·.2) &&
    pieces.getLast?.all (·.closedBefore (lead inside ++ "id"))

/-- Whether an attribute that is written into the tag goes behind a double quote without a partner. -/
def endsQuoted (opening : Text) : Bool :=
  (innerPieces (splitTag opening).1).getLast?.any Piece.isUnpaired

theorem lead_cases (inside : Text) :
    lead inside = [' '] ∨ (lead inside = [] ∧ endsInBlank inside = true) := by
  unfold lead Text.onlyIf
  cases endsInBlank inside with
  | true => exact .inr ⟨rfl, rfl⟩
  | false => exact .inl rfl

/-- A new attribute without a blank in front follows one that is there. -/
theorem lead_of_letter {inside : Text} (letter : (lead inside ++ "id").head? = some 'i') :
    lead inside = [] ∧ endsInBlank inside = true := by
  rcases lead_cases inside with blank | ends
  · rw [blank] at letter
    cases letter
  · exact ends

/-- A word does not end in a blank. -/
theorem endsInBlank_word {char : Char} {more : Text}
    (word : (char :: more).all continuesName = true) (front : Text) :
    endsInBlank (front ++ char :: more) = false := by
  obtain ⟨start, last, written⟩ : ∃ start last, char :: more = start ++ [last] :=
    (List.eq_nil_or_concat' (char :: more)).resolve_left (List.cons_ne_nil _ _)
  rw [written, List.all_append] at word
  have continues : continuesName last = true := by
    simpa using (Bool.and_eq_true_iff.mp word).2
  unfold endsInBlank
  rw [written, ← List.append_assoc, List.getLast?_concat]
  exact isBlank_of_continuesName continues

theorem blank_onlyIf (condition : Bool) :
    (Text.onlyIf condition " ").all Text.isBlank = true := by
  cases condition <;> decide

end Document

namespace Piece

/-- A piece at the end of a text that a new attribute would lengthen is a value, or a quote without
a partner, unless it is a name without a blank behind it. -/
theorem Takes.not_closed {char : Char} {more next : Text} {piece : Piece}
    (takes : Takes char more [] piece) (open' : piece.closedBefore next = false)
    (begins : next.head? = some ' ' ∨ next.head? = some 'i') :
    (∃ written, piece = .token (.name written) written ∧ written = char :: more ∧
        (char :: more).all continuesName = true ∧ next.head? = some 'i') ∨
      (piece = .token (.bare (char :: more)) (char :: more) ∧ startsBare char = true ∧
        Text.isLayout char = false ∧ startsName char = false ∧
        more.all continuesBare = true ∧ next.head? = some 'i') ∨
      (piece = .junk ('"' :: more) ∧ char = '"' ∧ more.all (· != '"') = true) ∨
      (piece = .junk ('\'' :: more) ∧ char = '\'' ∧ more.all (· != '\'') = true) := by
  cases takes with
  | layout => cases open'
  | name starts _ word _ =>
      refine .inl ⟨_, rfl, rfl, ?_, ?_⟩
      · rw [List.all_cons, continuesName_of_startsName starts, word]
        rfl
      · rcases begins with blank | letter
        · unfold closedBefore at open'
          rw [blank] at open'
          cases open'
        · exact letter
  | bare starts solid unnamed word _ =>
      refine .inr (.inl ⟨rfl, starts, solid, unnamed, word, ?_⟩)
      rcases begins with blank | letter
      · unfold closedBefore at open'
        rw [blank] at open'
        cases open'
      · exact letter
  | doubleQuoted => cases open'
  | singleQuoted => cases open'
  | openDouble inside => exact .inr (.inr (.inl ⟨rfl, rfl, inside⟩))
  | openSingle inside => exact .inr (.inr (.inr ⟨rfl, rfl, inside⟩))
  | equals => cases open'
  | close => cases open'
  | opening => cases open'
  | selfClose => cases open'
  | directiveClose => cases open'
  | junk nothing _ =>
      exfalso
      unfold closedBefore at open'
      rcases begins with head | head
      · split at open' <;> simp_all [startsNothing]
      · split at open' <;> simp_all [startsNothing]

end Piece

/-- Whether a tag repeats no name.  What an `id` leaves of a tag that ends in a double quote without a
partner may repeat one, but never gets an `id`. -/
def Profile.Unrepeated (profile : Profile) : Prop :=
  Entry.Distinct profile.entries ∨
    (Entry.statesId profile.entries = false ∧ Document.endsQuoted profile.opening = true)

/-- A tag with an `id` that gets there keeps its names apart. -/
theorem Profile.Unrepeated.distinct {profile : Profile} (unrepeated : profile.Unrepeated)
    (named : (Entry.id? profile.entries).isSome = true) : Entry.Distinct profile.entries := by
  rcases unrepeated with distinct | ⟨unstated, _⟩
  · exact distinct
  · rw [Entry.id?_of_unstated unstated] at named
    cases named

namespace TagBody

/-- The `id` behind an unquoted value that it lengthens is not read: the tag has the names that it
had, and does not say `server` there. -/
theorem entries_glued {char : Char} (starts : Piece.startsBare char = true) (more : Text)
    (pending : Option (Text × Bool)) {id : Text} (numbered : Naming.Numbered id) (blanks : Text) :
    let pieces := .token (.bare (char :: more)) (char :: more) ::
      .token .equals ['='] :: .token (.doubleQuoted id) ('"' :: id ++ ['"']) :: blankPieces blanks
    (entries pending pieces).map Prod.fst = (bareEntry pending).map Prod.fst ∧
      Entry.runsAtServer (entries pending pieces) = false := by
  dsimp only
  have settled := entries_blankPieces none blanks
  have ends : (Text.lower "server").getLast? = some 'r' := by decide
  have server : id.sameName "server" = false := numbered.sameName_eq_false ends (by decide)
  rcases pending with _ | ⟨name, awaits⟩
  · exact ⟨congrArg (List.map Prod.fst) settled, congrArg Entry.runsAtServer settled⟩
  · cases awaits with
    | true => exact entries_bare starts more (char :: more) (some (name, true)) blanks
    | false =>
        have here : entries (some (name, false)) (.token (.bare (char :: more)) (char :: more) ::
            .token .equals ['='] :: .token (.doubleQuoted id) ('"' :: id ++ ['"']) ::
              blankPieces blanks) = [(Name.ofText name, Reference.decode id)] :=
          congrArg ((Name.ofText name, Reference.decode id) :: ·) settled
        rw [here, numbered.decode_eq]
        exact ⟨rfl, Entry.runsAtServer_of_ne server _⟩

/-- The `id` behind an open double quote ends a quotation, and its value is the name of another
attribute. -/
theorem entries_quoted (content lexeme : Text) (pending : Option (Text × Bool)) {id : Text}
    (numbered : Naming.Numbered id) (rest : Text) :
    let pieces := [.token (.doubleQuoted (content ++ ['='])) lexeme, .token (.name id) id,
      .junk ('"' :: rest)]
    Entry.statesId (entries pending pieces) = Entry.statesId (bareEntry pending) ∧
      Entry.runsAtServer (entries pending pieces) = Entry.runsAtServer (bareEntry pending) := by
  have ends : (Text.lower "id").getLast? = some 'd' := by decide
  have named : (Name.ofText id).isWritten "id" = false := by
    unfold Name.isWritten
    rw [Name.text_ofText]
    exact numbered.sameName_eq_false ends (by decide)
  have plain : Entry.statesId [(Name.ofText id, ([] : Text))] = false ∧
      Entry.runsAtServer [(Name.ofText id, ([] : Text))] = false := by
    refine ⟨?_, Entry.runsAtServer_of_ne (by decide) _⟩
    unfold Entry.statesId
    rw [List.any_cons, named]
    rfl
  have split : ∀ entry : Entry, Entry.statesId [entry, (Name.ofText id, ([] : Text))] =
      Entry.statesId [entry] ∧ Entry.runsAtServer [entry, (Name.ofText id, ([] : Text))] =
        Entry.runsAtServer [entry] := by
    intro entry
    have both : [entry, (Name.ofText id, ([] : Text))] = [entry] ++ [(Name.ofText id, [])] := rfl
    rw [both, Entry.statesId_append, Entry.runsAtServer_append, plain.1, plain.2]
    exact ⟨Bool.or_false _, Bool.or_false _⟩
  dsimp only
  rcases pending with _ | ⟨name, awaits⟩
  · exact plain
  · cases awaits with
    | false => exact split (Name.ofText name, [])
    | true =>
        obtain ⟨before, value⟩ := List.getLast?_eq_some_iff.mp
          (@Reference.getLast?_decodeFrom 0 content (Nat.zero_le _))
        have server : (Reference.decode (content ++ ['='])).sameName "server" = false := by
          rw [Bool.eq_false_iff]
          intro same
          have lower := Text.sameName_iff.mp same
          unfold Reference.decode at lower
          rw [value, Text.lower_append] at lower
          have last := congrArg List.getLast? lower
          rw [List.getLast?_append] at last
          cases last
        have here := split (Name.ofText name, Reference.decode (content ++ ['=']))
        refine ⟨here.1, here.2.trans ?_⟩
        rw [Entry.runsAtServer_of_ne server, runsAtServer_bareEntry]

end TagBody

namespace TagText

namespace Junction

variable {tag : TagText} {kept : List Piece} {selfClosing : Bool} {closing : Text}

theorem rest_eq (junction : tag.Junction kept selfClosing closing) :
    lexemes tag.pieces ++ (tag.stop.mark ++ tag.behind) =
      lexemes kept ++ (closing ++ tag.behind) := by
  have whole := junction.whole
  rw [tag.opening_eq, List.cons_append, List.cons_append, List.append_assoc,
    List.append_assoc] at whole
  have inner := List.append_cancel_left (List.cons.inj whole).2
  rw [← List.append_assoc, inner, List.append_assoc]

/-- The kept pieces do not go on with the name of the tag. -/
theorem stops_kept (junction : tag.Junction kept selfClosing closing) :
    (lexemes kept).head?.any continuesName = false := by
  have stops := tag.stops
  rw [junction.rest_eq] at stops
  cases text : lexemes kept with
  | nil => rfl
  | cons char rest =>
      rw [text] at stops
      exact stops

/-- Nor does the new attribute. -/
theorem stops_lead (junction : tag.Junction kept selfClosing closing) (rest : Text) :
    (lexemes kept ++ (Document.lead ('<' :: (tag.written ++ lexemes kept)) ++ rest)).head?.any
      continuesName = false := by
  have stops := junction.stops_kept
  cases text : lexemes kept with
  | cons char more =>
      rw [text] at stops
      exact stops
  | nil =>
      rcases Document.lead_cases ('<' :: (tag.written ++ [])) with blank | ⟨_, ends⟩
      · rw [blank]
        rfl
      · exfalso
        obtain ⟨start, last, written, continues⟩ := tag.exists_last
        unfold Document.endsInBlank at ends
        rw [List.append_nil, written, ← List.cons_append, List.getLast?_concat] at ends
        have blank : Text.isBlank last = true := ends
        rw [isBlank_of_continuesName continues] at blank
        cases blank

/-- The kept pieces are those in front of the new attribute. -/
theorem innerPieces_kept (junction : tag.Junction kept selfClosing closing) :
    Document.innerPieces ('<' :: (tag.written ++ lexemes kept)) = kept :=
  junction.reads.behindName tag.word junction.stops_kept

/-- The pieces that decide whether the attribute is read back are the kept ones. -/
theorem takesAttribute_eq (junction : tag.Junction kept selfClosing closing) :
    Document.takesAttribute tag.opening =
      (!(TagBody.entryRun none kept).2.any (·.2) && kept.getLast?.all
        (·.closedBefore (Document.lead ('<' :: (tag.written ++ lexemes kept)) ++ "id"))) := by
  have inner := junction.innerPieces_kept
  unfold Document.innerPieces at inner
  unfold Document.takesAttribute
  rw [junction.split]
  dsimp only
  rw [inner]

theorem endsQuoted_eq (junction : tag.Junction kept selfClosing closing) :
    Document.endsQuoted tag.opening = kept.getLast?.any Piece.isUnpaired := by
  unfold Document.endsQuoted
  rw [junction.split]
  dsimp only
  rw [junction.innerPieces_kept]

/-- A double quote without a partner is kept, less what would close the tag. -/
theorem exists_unpaired (junction : tag.Junction kept selfClosing closing) {more : Text}
    (last : tag.pieces.getLast? = some (.junk ('"' :: more))) :
    ∃ more', kept.getLast? = some (.junk ('"' :: more')) := by
  have reads := tag.reads
  have nothing := reads.eq_nil_of_open last (.inl rfl)
  obtain ⟨former, pieces⟩ := List.getLast?_eq_some_iff.mp last
  have same := junction.rest_eq
  rw [nothing, (List.append_eq_nil_iff.mp nothing).2, pieces, List.append_nil, List.append_nil,
    Piece.lexemes_append, Piece.lexemes_cons, Piece.lexemes_nil, List.append_nil] at same
  have quoted : lexemes former ++ '"' :: more = lexemes kept ++ closing := same
  rw [pieces] at reads
  obtain ⟨_, _, takes, _, _⟩ := reads.takes
  have inside := takes.of_unpaired
  -- The quote stands in front of the cut.
  obtain ⟨more', text, rfl⟩ : ∃ more', lexemes kept = lexemes former ++ '"' :: more' ∧
      more = more' ++ closing := by
    rcases List.append_eq_append_iff.mp quoted with ⟨behind, text, rest⟩ | ⟨front, _, rest⟩
    · cases behind with
      | nil =>
          refine absurd ?_ junction.unquoted.1
          rw [← List.nil_append closing, ← rest]
          exact List.mem_cons_self
      | cons char more' =>
          obtain ⟨rfl, behind⟩ := List.cons.inj rest
          exact ⟨more', text, behind⟩
    · refine absurd ?_ junction.unquoted.1
      rw [rest]
      exact List.mem_append_right _ List.mem_cons_self
  rw [List.all_append] at inside
  have single : Piece.Reads ('"' :: (more' ++ [])) [.junk ('"' :: more')] [] :=
    .piece (.openDouble (Bool.and_eq_true_iff.mp inside).1) rfl (.done [])
  have whole := reads.exchange single (by simp [Piece.lexeme]) rfl
  rw [List.append_nil, ← text] at whole
  have read := whole.tagPieces_eq
  rw [junction.reads.tagPieces_eq] at read
  exact ⟨more', by rw [List.append_cancel_right read, List.getLast?_concat]⟩

variable {id key content : Text}

/-- The text of a tag with the new attribute. -/
def textWith (tag : TagText) (kept : List Piece) (selfClosing : Bool) (closing key content : Text) :
    Text :=
  tag.written ++ (lexemes kept ++ (Document.lead ('<' :: (tag.written ++ lexemes kept)) ++
    (lexemes (attributePieces key content) ++ (Text.onlyIf selfClosing " " ++
      (closing ++ tag.behind)))))

/-- Pieces that are read from the text of a tag behind its name make up a version of the tag. -/
theorem exists_revised (junction : tag.Junction kept selfClosing closing) {rest behind : Text}
    {pieces : List Piece} {stop : TagStop}
    (reads : Piece.Reads (lexemes kept ++
      (Document.lead ('<' :: (tag.written ++ lexemes kept)) ++ rest)) pieces (stop.mark ++ behind))
    (starts : stop.Starts (stop.mark ++ behind)) :
    ∃ revised : TagText, revised.text = tag.written ++ (lexemes kept ++
        (Document.lead ('<' :: (tag.written ++ lexemes kept)) ++ rest)) ∧
      revised.written = tag.written ∧ revised.pieces = pieces ∧ revised.stop = stop ∧
      revised.behind = behind := by
  have same := reads.text_eq
  refine ⟨⟨tag.written, pieces, stop, behind, tag.named, tag.word, ?_, ?_, starts⟩, ?_, rfl, rfl,
    rfl, rfl⟩
  · rw [← same]
    exact junction.stops_lead rest
  · rw [← same]
    exact reads
  · exact congrArg (tag.written ++ ·) same.symm

/-- Other pieces at the end make a revision of the tag when they say `server` just as the kept ones
do. -/
theorem revision_of_exchange (junction : tag.Junction kept selfClosing closing)
    {former last latter : List Piece} {revised : TagText} (shape : kept = former ++ last)
    (pieces : revised.pieces = former ++ latter) (name : revised.written = tag.written)
    (later : revised.later = tag.later)
    (serves : Entry.runsAtServer (TagBody.entries (TagBody.entryRun none former).2 latter) =
      Entry.runsAtServer (TagBody.entries (TagBody.entryRun none former).2 last)) :
    tag.Revision revised := by
  have entries : revised.entries = TagBody.entries none (former ++ latter) :=
    congrArg (TagBody.entries none) pieces
  refine ⟨name, later, ?_⟩
  rw [← junction.serves, shape, entries, TagBody.entries_append, TagBody.entries_append,
    Entry.runsAtServer_append, Entry.runsAtServer_append, serves]

/-- Other pieces at the end leave the names of the tag when they bring those of the kept ones. -/
theorem names_of_exchange (junction : tag.Junction kept selfClosing closing)
    {former last latter : List Piece} {revised : TagText} (shape : kept = former ++ last)
    (pieces : revised.pieces = former ++ latter)
    (names : (TagBody.entries (TagBody.entryRun none former).2 latter).map Prod.fst =
      (TagBody.entries (TagBody.entryRun none former).2 last).map Prod.fst) :
    revised.entries.map Prod.fst = tag.entries.map Prod.fst := by
  have entries : revised.entries = TagBody.entries none (former ++ latter) :=
    congrArg (TagBody.entries none) pieces
  rw [← junction.names, shape, entries, TagBody.entries_append, TagBody.entries_append,
    List.map_append, List.map_append, names]

/-- Only a tag that ends in a double quote without a partner may repeat a name. -/
theorem distinct_of_paired (junction : tag.Junction kept selfClosing closing)
    (paired : kept.getLast?.any Piece.isUnpaired = false) (unrepeated : tag.profile.Unrepeated) :
    Entry.Distinct tag.entries := by
  rcases unrepeated with distinct | ⟨_, quoted⟩
  · exact distinct
  · have ends : Document.endsQuoted tag.opening = true := quoted
    rw [junction.endsQuoted_eq, paired] at ends
    cases ends

/-- A new attribute behind a piece that ends there gives a tag with three more pieces. -/
theorem exists_closed (junction : tag.Junction kept selfClosing closing)
    (writable : Piece.Writable key content)
    (closed : kept.getLast?.all (·.closedBefore
      (Document.lead ('<' :: (tag.written ++ lexemes kept)) ++ key)) = true) :
    ∃ revised : TagText, revised.text = textWith tag kept selfClosing closing key content ∧
      revised.written = tag.written ∧ revised.later = tag.later ∧
      revised.entries = (TagBody.entryRun none kept).1 ++
        TagBody.entries (TagBody.entryRun none kept).2 (attributePieces key content) := by
  obtain ⟨blanks, stop, behind, ending, starts, later⟩ := junction.closes
  have leading := Piece.reads_blankPieces (Document.blank_onlyIf
    (!Document.endsInBlank ('<' :: (tag.written ++ lexemes kept))))
    (lexemes (attributePieces key content) ++
      (Text.onlyIf selfClosing " " ++ (closing ++ tag.behind)))
  have own := writable.reads (Text.onlyIf selfClosing " " ++ (closing ++ tag.behind))
  have trailing := Piece.reads_blankPieces (Document.blank_onlyIf selfClosing)
    (closing ++ tag.behind)
  obtain ⟨first, more, rfl, _⟩ := writable.starts
  have ahead : ∀ last ∈ kept.getLast?, last.closedBefore
      (Document.lead ('<' :: (tag.written ++ lexemes kept)) ++
        (lexemes (attributePieces (first :: more) content) ++ (Text.onlyIf selfClosing " " ++
          (closing ++ tag.behind)))) = true := by
    intro last member
    rw [Option.mem_def.mp member] at closed
    rw [← (closed : last.closedBefore _ = true)]
    refine Piece.closedBefore_congr ?_ last
    rcases Document.lead_cases ('<' :: (tag.written ++ lexemes kept)) with lead | ⟨lead, _⟩
    · rw [lead]
      rfl
    · rw [lead]
      rfl
  have whole := (junction.reads.swap ahead).append
    (leading.append (own.append (trailing.append ending)))
  obtain ⟨revised, text, name, pieces, stop', behind'⟩ := junction.exists_revised whole starts
  refine ⟨revised, text, name, ?_, ?_⟩
  · unfold TagText.later TagText.name
    rw [name, stop', behind']
    exact later
  · unfold TagText.entries
    rw [pieces, TagBody.entries_append, TagBody.entries_append, Piece.entryRun_blankPieces,
      TagBody.entries_append, TagBody.entries_append, Piece.entryRun_blankPieces,
      TagBody.entries_blankPieces]
    rfl

/-- A new attribute that lengthens an unquoted value is no attribute: the value goes on up to the
equals sign. -/
theorem exists_glued (junction : tag.Junction kept selfClosing closing)
    (writable : Piece.Writable key content) {former : List Piece} {char : Char} {more : Text}
    (shape : kept = former ++ [.token (.bare (char :: more)) (char :: more)])
    (starts : Piece.startsBare char = true) (solid : Text.isLayout char = false)
    (unnamed : startsName char = false) (word : more.all Piece.continuesBare = true)
    (lead : Document.lead ('<' :: (tag.written ++ lexemes kept)) = []) :
    ∃ (revised : TagText) (blanks : Text),
      revised.text = textWith tag kept selfClosing closing key content ∧
      revised.written = tag.written ∧ revised.later = tag.later ∧
      revised.pieces = former ++
        .token (.bare (char :: (more ++ key))) (char :: (more ++ key)) ::
          .token .equals ['='] :: .token (.doubleQuoted content) ('"' :: content ++ ['"']) ::
            blankPieces blanks := by
  obtain ⟨blanks, stop, behind, ending, starts', later⟩ := junction.closes
  have trailing := Piece.reads_blankPieces (Document.blank_onlyIf selfClosing)
    (closing ++ tag.behind)
  have longer : (more ++ key).all Piece.continuesBare = true := by
    rw [List.all_append, word, Bool.true_and, List.all_eq_true]
    exact fun char member =>
      Piece.continuesBare_of_continuesName (List.all_eq_true.mp writable.word char member)
  have glued : Piece.Reads (char :: ((more ++ key) ++ ('=' :: ([] ++ ('"' ::
      ((content ++ ['"']) ++ (Text.onlyIf selfClosing " " ++ (closing ++ tag.behind))))))))
      (.token (.bare (char :: (more ++ key))) (char :: (more ++ key)) ::
        .token .equals ['='] :: .token (.doubleQuoted content) ('"' :: content ++ ['"']) ::
          (blankPieces (Text.onlyIf selfClosing " ") ++ blankPieces blanks))
      (stop.mark ++ behind) :=
    .piece (.bare starts solid unnamed longer rfl) rfl (.piece (.equals _) rfl
      (.piece (.doubleQuoted _ writable.inside) rfl (trailing.append ending)))
  have reads := junction.reads
  rw [shape] at reads
  have whole := reads.exchange glued (by simp [Piece.lexeme]) rfl
  have text : lexemes former ++ (char :: ((more ++ key) ++ ('=' :: ([] ++ ('"' ::
      ((content ++ ['"']) ++ (Text.onlyIf selfClosing " " ++ (closing ++ tag.behind)))))))) =
      lexemes kept ++ (Document.lead ('<' :: (tag.written ++ lexemes kept)) ++
        (lexemes (attributePieces key content) ++ (Text.onlyIf selfClosing " " ++
          (closing ++ tag.behind)))) := by
    rw [lead, shape, Piece.lexemes_attributePieces]
    simp [Piece.lexeme]
  rw [text] at whole
  obtain ⟨revised, text', name, pieces, stop', behind'⟩ := junction.exists_revised whole starts'
  have both : blankPieces (Text.onlyIf selfClosing " ") ++ blankPieces blanks =
      blankPieces (Text.onlyIf selfClosing " " ++ blanks) := List.map_append.symm
  rw [both] at pieces
  refine ⟨revised, _, text', name, ?_, pieces⟩
  unfold TagText.later TagText.name
  rw [name, stop', behind']
  exact later

/-- The `id` of a tag is not read where it lengthens an unquoted value. -/
theorem exists_lengthened (junction : tag.Junction kept selfClosing closing)
    (numbered : Naming.Numbered id) {former : List Piece} {char : Char} {more : Text}
    (shape : kept = former ++ [.token (.bare (char :: more)) (char :: more)])
    (starts : Piece.startsBare char = true) (solid : Text.isLayout char = false)
    (unnamed : startsName char = false) (word : more.all Piece.continuesBare = true)
    (lead : Document.lead ('<' :: (tag.written ++ lexemes kept)) = []) :
    ∃ revised : TagText, revised.text = textWith tag kept selfClosing closing "id" id ∧
      tag.Revision revised ∧ revised.entries.map Prod.fst = tag.entries.map Prod.fst := by
  obtain ⟨revised, blanks, text, name, later, pieces⟩ :=
    junction.exists_glued numbered.writable shape starts solid unnamed word lead
  have before := TagBody.entries_bare starts more (char :: more) (TagBody.entryRun none former).2 []
  have after := TagBody.entries_glued starts (more ++ ['i', 'd']) (TagBody.entryRun none former).2
    numbered blanks
  exact ⟨revised, text,
    junction.revision_of_exchange shape pieces name later (after.2.trans before.2.symm),
    junction.names_of_exchange shape pieces (after.1.trans before.1.symm)⟩

/-- There are no tags behind a tag that takes the rest of the text. -/
theorem later_of_behind {tag : TagText} (behind : tag.behind = []) : tag.later = [] := by
  unfold TagText.later
  rw [behind]
  cases Event.takenBehind tag.name tag.stop [] <;> rfl

/-- What goes behind the kept pieces holds no apostrophe when they take the rest of the text. -/
theorem absent_rest (junction : tag.Junction kept selfClosing closing)
    (numbered : Naming.Numbered id) (behind : tag.behind = []) :
    '\'' ∉ Document.lead ('<' :: (tag.written ++ lexemes kept)) ++
      (lexemes (attributePieces "id" id) ++ (Text.onlyIf selfClosing " " ++
        (closing ++ tag.behind))) := by
  intro member
  rw [behind, List.append_nil] at member
  rcases List.mem_append.mp member with inLead | member
  · exact Text.absent_of_blanks (Document.blank_onlyIf _) (by decide) inLead
  rcases List.mem_append.mp member with inside | member
  · rw [Piece.lexemes_attributePieces] at inside
    simp only [List.mem_append, List.mem_cons, List.not_mem_nil, or_false] at inside
    rcases inside with written | equals | double | inId | double
    · exact absurd written (by decide)
    · cases equals
    · cases double
    · exact numbered.absent (by decide) inId
    · cases double
  rcases List.mem_append.mp member with inTrail | inClosing
  · exact Text.absent_of_blanks (Document.blank_onlyIf _) (by decide) inTrail
  · exact junction.unquoted.2 inClosing

/-- A new attribute behind an open apostrophe is part of the junk there. -/
theorem exists_apostrophe (junction : tag.Junction kept selfClosing closing)
    (numbered : Naming.Numbered id) {former : List Piece} {more : Text}
    (shape : kept = former ++ [.junk ('\'' :: more)]) (inside : more.all (· != '\'') = true) :
    ∃ revised : TagText, revised.text = textWith tag kept selfClosing closing "id" id ∧
      tag.Revision revised ∧ revised.entries.map Prod.fst = tag.entries.map Prod.fst := by
  have behind := junction.exhausted '\'' more (by rw [shape, List.getLast?_concat]) (.inr rfl)
  have absent := junction.absent_rest numbered behind
  generalize added : lexemes (attributePieces "id" id) ++ (Text.onlyIf selfClosing " " ++
    (closing ++ tag.behind)) = rest at absent
  generalize blank : Document.lead ('<' :: (tag.written ++ lexemes kept)) = lead at absent
  have longer : (more ++ (lead ++ rest)).all (· != '\'') = true := by
    rw [List.all_append, inside, Bool.true_and]
    exact Text.all_bne_of_absent absent
  have reads := junction.reads
  rw [shape] at reads
  have junk : Piece.Reads ('\'' :: ((more ++ (lead ++ rest)) ++ []))
      [.junk ('\'' :: (more ++ (lead ++ rest)))] (TagStop.mark .exhausted ++ []) :=
    .piece (.openSingle longer) rfl (.done [])
  have whole := reads.exchange junk (by simp [Piece.lexeme]) rfl
  have text : lexemes former ++ ('\'' :: ((more ++ (lead ++ rest)) ++ [])) =
      lexemes kept ++ (Document.lead ('<' :: (tag.written ++ lexemes kept)) ++ rest) := by
    rw [blank, shape]
    simp [Piece.lexeme]
  rw [text] at whole
  obtain ⟨revised, text', name, pieces, stop', behind'⟩ := junction.exists_revised whole .exhausted
  refine ⟨revised, ?_, junction.revision_of_exchange shape pieces name ?_ rfl,
    junction.names_of_exchange shape pieces rfl⟩
  · rw [text', ← added]
    rfl
  · rw [later_of_behind behind', later_of_behind behind]

/-- A new attribute behind an open double quote ends a quotation and begins another one. -/
theorem exists_doubleQuote (junction : tag.Junction kept selfClosing closing)
    (numbered : Naming.Numbered id) {former : List Piece} {more : Text}
    (shape : kept = former ++ [.junk ('"' :: more)]) (inside : more.all (· != '"') = true) :
    ∃ revised : TagText, revised.text = textWith tag kept selfClosing closing "id" id ∧
      tag.Revision revised ∧ Entry.statesId revised.entries = Entry.statesId tag.entries ∧
      Document.endsQuoted revised.opening = true := by
  have behind := junction.exhausted '"' more (by rw [shape, List.getLast?_concat]) (.inl rfl)
  obtain ⟨first, others, rfl, starts⟩ := numbered.starts
  have word := numbered.continues
  rw [List.all_cons] at word
  have solid := Piece.isLayout_of_startsName starts
  generalize blank : Document.lead ('<' :: (tag.written ++ lexemes kept)) = lead
  have content : (more ++ (lead ++ ['i', 'd']) ++ ['=']).all (· != '"') = true := by
    have visible : lead.all (· != '"') = true := by
      rw [← blank]
      exact Text.all_bne_of_absent
        (Text.absent_of_blanks (Document.blank_onlyIf _) (by decide))
    rw [List.all_append, List.all_append, List.all_append, inside, visible]
    decide
  have unpaired : (Text.onlyIf selfClosing " " ++ closing).all (· != '"') = true := by
    refine Text.all_bne_of_absent fun member => ?_
    rcases List.mem_append.mp member with inTrail | inClosing
    · exact Text.absent_of_blanks (Document.blank_onlyIf _) (by decide) inTrail
    · exact junction.unquoted.1 inClosing
  have reads := junction.reads
  rw [shape] at reads
  have quoted : Piece.Reads ('"' :: ((more ++ (lead ++ ['i', 'd']) ++ ['='] ++ ['"']) ++
      (first :: (others ++ ('"' :: ((Text.onlyIf selfClosing " " ++ closing) ++ []))))))
      [.token (.doubleQuoted (more ++ (lead ++ ['i', 'd']) ++ ['=']))
        ('"' :: (more ++ (lead ++ ['i', 'd']) ++ ['=']) ++ ['"']),
        .token (.name (first :: others)) (first :: others),
        .junk ('"' :: (Text.onlyIf selfClosing " " ++ closing))] (TagStop.mark .exhausted ++ []) :=
    .piece (.doubleQuoted _ content) rfl
      (.piece (.name starts solid (Bool.and_eq_true_iff.mp word).2 rfl) rfl
        (.piece (.openDouble unpaired) rfl (.done [])))
  have whole := reads.exchange quoted (by simp [Piece.lexeme]) rfl
  have text : lexemes former ++ ('"' :: ((more ++ (lead ++ ['i', 'd']) ++ ['='] ++ ['"']) ++
      (first :: (others ++ ('"' :: ((Text.onlyIf selfClosing " " ++ closing) ++ [])))))) =
      lexemes kept ++ (Document.lead ('<' :: (tag.written ++ lexemes kept)) ++
        (lexemes (attributePieces "id" (first :: others)) ++ (Text.onlyIf selfClosing " " ++
          (closing ++ tag.behind)))) := by
    rw [blank, shape, behind, Piece.lexemes_attributePieces]
    simp [Piece.lexeme]
  rw [text] at whole
  obtain ⟨revised, text', name, pieces, stop', behind'⟩ := junction.exists_revised whole .exhausted
  have states := TagBody.entries_quoted (more ++ (lead ++ ['i', 'd']))
    ('"' :: (more ++ (lead ++ ['i', 'd']) ++ ['=']) ++ ['"']) (TagBody.entryRun none former).2
    numbered (Text.onlyIf selfClosing " " ++ closing)
  refine ⟨revised, text', junction.revision_of_exchange shape pieces name ?_ states.2, ?_, ?_⟩
  · rw [later_of_behind behind', later_of_behind behind]
  · have entries := congrArg (TagBody.entries none) pieces
    have before := Entry.statesId_congr junction.names
    unfold TagText.entries at before ⊢
    rw [entries, ← before, shape, TagBody.entries_append, TagBody.entries_append,
      Entry.statesId_append, Entry.statesId_append, states.1]
    rfl
  · obtain ⟨kept', selfClosing', closing', junction'⟩ := revised.exists_junction
    have last : revised.pieces.getLast? =
        some (.junk ('"' :: (Text.onlyIf selfClosing " " ++ closing))) := by
      rw [pieces, List.getLast?_append]
      rfl
    obtain ⟨more', last'⟩ := junction'.exists_unpaired last
    rw [junction'.endsQuoted_eq, last']
    rfl

/-- A new attribute behind an attribute that is complete is the `id` of the tag. -/
theorem exists_taken (junction : tag.Junction kept selfClosing closing)
    (numbered : Naming.Numbered id) (unstated : Entry.statesId tag.entries = false)
    (closed : kept.getLast?.all (·.closedBefore
      (Document.lead ('<' :: (tag.written ++ lexemes kept)) ++ "id")) = true)
    (complete : (TagBody.entryRun none kept).2.any (·.2) = false) :
    ∃ revised : TagText, revised.text = textWith tag kept selfClosing closing "id" id ∧
      tag.Revision revised ∧ Entry.id? revised.entries = some id ∧
      revised.entries = TagBody.entries none kept ++ [(Name.ofText "id", id)] := by
  obtain ⟨revised, text, name, later, entries⟩ := junction.exists_closed numbered.writable closed
  rw [TagBody.entries, Piece.entryRun_attributePieces complete, numbered.decode_eq] at entries
  have shape : revised.entries = TagBody.entries none kept ++ [(Name.ofText "id", id)] := by
    rw [entries]
    simp [TagBody.entries, TagBody.bareEntry]
  have none' : ∀ entry ∈ TagBody.entries none kept, entry.1.isWritten "id" = false := by
    rw [← Entry.statesId_congr junction.names] at unstated
    exact fun entry member => by simpa using List.any_eq_false.mp unstated entry member
  refine ⟨revised, text, ⟨name, later, ?_⟩, ?_, shape⟩
  · rw [shape, ← Entry.withValue_of_unstated none', Entry.runsAtServer_withValue, junction.serves]
  · rw [shape, ← Entry.withValue_of_unstated none', Entry.id?_withValue numbered.ne_nil]

/-- An attribute that awaits its value takes the name of the new attribute for it. -/
theorem exists_awaited (junction : tag.Junction kept selfClosing closing)
    (numbered : Naming.Numbered id)
    (closed : kept.getLast?.all (·.closedBefore
      (Document.lead ('<' :: (tag.written ++ lexemes kept)) ++ "id")) = true)
    (awaited : (TagBody.entryRun none kept).2.any (·.2) = true) :
    ∃ revised : TagText, revised.text = textWith tag kept selfClosing closing "id" id ∧
      tag.Revision revised ∧ revised.entries.map Prod.fst = tag.entries.map Prod.fst := by
  obtain ⟨revised, text, name, later, entries⟩ := junction.exists_closed numbered.writable closed
  obtain ⟨awaiting, pending⟩ : ∃ awaiting,
      (TagBody.entryRun none kept).2 = some (awaiting, true) := by
    rcases state : (TagBody.entryRun none kept).2 with _ | ⟨awaiting, waits⟩
    · rw [state] at awaited
      cases awaited
    · rw [state] at awaited
      obtain rfl : waits = true := awaited
      exact ⟨awaiting, rfl⟩
  have before : TagBody.entries none kept =
      (TagBody.entryRun none kept).1 ++ TagBody.bareEntry (some (awaiting, true)) := by
    rw [← pending]
    rfl
  have shape : revised.entries = (TagBody.entryRun none kept).1 ++
      [(Name.ofText awaiting, Reference.decode "id")] := by
    rw [entries, pending, TagBody.entries, Piece.entryRun_attributePieces_awaited]
    rfl
  refine ⟨revised, text, ⟨name, later, ?_⟩, ?_⟩
  · have completed : Entry.runsAtServer [(Name.ofText awaiting, Reference.decode "id")] = false :=
      Entry.runsAtServer_of_ne (by decide) _
    rw [← junction.serves, before, shape, Entry.runsAtServer_append, Entry.runsAtServer_append,
      TagBody.runsAtServer_bareEntry, completed]
  · rw [← junction.names, before, shape, List.map_append, List.map_append]
    rfl

/-- A piece that does not end where a new attribute begins is an unquoted value without a blank
behind it, or a quote without a partner. -/
theorem lost_cases (junction : tag.Junction kept selfClosing closing)
    (open' : kept.getLast?.all (·.closedBefore
      (Document.lead ('<' :: (tag.written ++ lexemes kept)) ++ "id")) = false) :
    ∃ former char more,
      (kept = former ++ [.token (.bare (char :: more)) (char :: more)] ∧
        Piece.startsBare char = true ∧ Text.isLayout char = false ∧ startsName char = false ∧
        more.all Piece.continuesBare = true ∧
        Document.lead ('<' :: (tag.written ++ lexemes kept)) = []) ∨
      ((char = '"' ∨ char = '\'') ∧ kept = former ++ [.junk (char :: more)] ∧
        more.all (· != char) = true) := by
  obtain ⟨former, piece, shape, open'⟩ : ∃ former piece, kept = former ++ [piece] ∧
      piece.closedBefore
        (Document.lead ('<' :: (tag.written ++ lexemes kept)) ++ "id") = false := by
    rcases List.eq_nil_or_concat' kept with rfl | ⟨former, piece, shape⟩
    · cases open'
    · rw [shape, List.getLast?_concat, ← shape] at open'
      exact ⟨former, piece, shape, open'⟩
  have reads := junction.reads
  rw [shape] at reads
  obtain ⟨char, more, takes, _, _⟩ := reads.takes
  have begins : (Document.lead ('<' :: (tag.written ++ lexemes kept)) ++ "id").head? = some ' ' ∨
      (Document.lead ('<' :: (tag.written ++ lexemes kept)) ++ "id").head? = some 'i' := by
    rcases Document.lead_cases ('<' :: (tag.written ++ lexemes kept)) with lead | ⟨lead, _⟩
    · rw [lead]
      exact .inl rfl
    · rw [lead]
      exact .inr rfl
  refine ⟨former, char, more, ?_⟩
  rcases takes.not_closed open' begins with
    ⟨written, rfl, rfl, word, head⟩ | ⟨rfl, starts, solid, unnamed, word, head⟩ |
      ⟨rfl, rfl, inside⟩ | ⟨rfl, rfl, inside⟩
  · -- A name does not end in a blank, so there is one in front of the attribute.
    exfalso
    have ends := (Document.lead_of_letter head).2
    have text : lexemes kept = lexemes former ++ char :: more := by
      rw [shape]
      simp [Piece.lexeme]
    rw [text, ← List.append_assoc, ← List.cons_append, Document.endsInBlank_word word] at ends
    cases ends
  · exact .inl ⟨shape, starts, solid, unnamed, word, (Document.lead_of_letter head).1⟩
  · exact .inr ⟨.inl rfl, shape, inside⟩
  · exact .inr ⟨.inr rfl, shape, inside⟩

/-- A new attribute behind a piece that does not end there is lost in the piece. -/
theorem exists_lost (junction : tag.Junction kept selfClosing closing)
    (numbered : Naming.Numbered id) (unstated : Entry.statesId tag.entries = false)
    (open' : kept.getLast?.all (·.closedBefore
      (Document.lead ('<' :: (tag.written ++ lexemes kept)) ++ "id")) = false) :
    ∃ revised : TagText, revised.text = textWith tag kept selfClosing closing "id" id ∧
      tag.Revision revised ∧ Entry.id? revised.entries = none ∧
      (tag.profile.Unrepeated → revised.profile.Unrepeated) := by
  obtain ⟨former, char, more, ⟨shape, starts, solid, unnamed, word, lead⟩ | ⟨rfl | rfl, shape,
    inside⟩⟩ := junction.lost_cases open'
  · obtain ⟨revised, text, revision, names⟩ :=
      junction.exists_lengthened numbered shape starts solid unnamed word lead
    have paired : kept.getLast?.any Piece.isUnpaired = false := by
      rw [shape, List.getLast?_concat]
      rfl
    exact ⟨revised, text, revision,
      Entry.id?_of_unstated ((Entry.statesId_congr names).trans unstated),
      fun unrepeated => .inl ((junction.distinct_of_paired paired unrepeated).of_names names)⟩
  · obtain ⟨revised, text, revision, states, quoted⟩ :=
      junction.exists_doubleQuote numbered shape inside
    exact ⟨revised, text, revision, Entry.id?_of_unstated (states.trans unstated),
      fun _ => .inr ⟨states.trans unstated, quoted⟩⟩
  · obtain ⟨revised, text, revision, names⟩ := junction.exists_apostrophe numbered shape inside
    have paired : kept.getLast?.any Piece.isUnpaired = false := by
      rw [shape, List.getLast?_concat]
      rfl
    exact ⟨revised, text, revision,
      Entry.id?_of_unstated ((Entry.statesId_congr names).trans unstated),
      fun unrepeated => .inl ((junction.distinct_of_paired paired unrepeated).of_names names)⟩

/-- A piece that ends where a new attribute begins is no double quote without a partner. -/
theorem paired_of_closed {next : Text} (closed : kept.getLast?.all (·.closedBefore next) = true) :
    kept.getLast?.any Piece.isUnpaired = false := by
  cases last : kept.getLast? with
  | none => rfl
  | some piece =>
      rw [last] at closed
      rw [Option.any_some, Bool.eq_false_iff]
      intro unpaired
      unfold Piece.isUnpaired at unpaired
      split at unpaired
      · cases closed
      · cases unpaired

/-- A new attribute that the tag takes is its `id`; otherwise the tag still has none.  The tag repeats
no name if it repeated none. -/
theorem exists_inserted (junction : tag.Junction kept selfClosing closing)
    (numbered : Naming.Numbered id) (unstated : Entry.statesId tag.entries = false) :
    ∃ revised : TagText, revised.text = textWith tag kept selfClosing closing "id" id ∧
      tag.Revision revised ∧
      Entry.id? revised.entries =
        (if Document.takesAttribute tag.opening then some id else none) ∧
      (tag.profile.Unrepeated → revised.profile.Unrepeated) := by
  rw [junction.takesAttribute_eq]
  cases closed : kept.getLast?.all (·.closedBefore
      (Document.lead ('<' :: (tag.written ++ lexemes kept)) ++ "id")) with
  | true =>
      have paired := paired_of_closed closed
      cases awaited : (TagBody.entryRun none kept).2.any (·.2) with
      | false =>
          obtain ⟨revised, text, revision, own, entries⟩ :=
            junction.exists_taken numbered unstated closed awaited
          refine ⟨revised, text, revision, own, fun unrepeated => .inl ?_⟩
          have apart := (junction.distinct_of_paired paired unrepeated).of_names junction.names
          have whole :=
            apart.concat_id ((Entry.statesId_congr junction.names).trans unstated) id
          rw [← entries] at whole
          exact whole
      | true =>
          obtain ⟨revised, text, revision, names⟩ :=
            junction.exists_awaited numbered closed awaited
          exact ⟨revised, text, revision,
            Entry.id?_of_unstated ((Entry.statesId_congr names).trans unstated),
            fun unrepeated => .inl ((junction.distinct_of_paired paired unrepeated).of_names names)⟩
  | false =>
      rw [Bool.and_false]
      exact junction.exists_lost numbered unstated closed

end Junction

end TagText

namespace Document

/-- A tag that gets a numbered `id` has it then if it had one before or takes a new attribute, and
none otherwise.  It repeats no name if it repeated none. -/
theorem exists_revision {document : Document} {front : Text} {tag : TagText}
    (shape : document.text = front ++ '<' :: tag.text) {id : Text}
    (numbered : Naming.Numbered id) :
    ∃ revised : TagText,
      (document.setAttribute (tag.tagOf (Location.start.advance front)) "id" id).2.text =
        front ++ '<' :: revised.text ∧
      tag.Revision revised ∧
      Entry.id? revised.entries =
        (if Entry.statesId tag.entries || takesAttribute tag.opening then some id else none) ∧
      (tag.profile.Unrepeated → revised.profile.Unrepeated) := by
  cases stated : Entry.statesId tag.entries with
  | true =>
      obtain ⟨revised, text, revision, own, names⟩ := exists_renamed shape stated numbered.ne_nil
      refine ⟨revised, text, revision, own, ?_⟩
      rintro (distinct | ⟨unstated, _⟩)
      · exact .inl (distinct.of_names names)
      · exact absurd (unstated.symm.trans stated) Bool.false_ne_true
  | false =>
      obtain ⟨kept, selfClosing, closing, junction⟩ := tag.exists_junction
      obtain ⟨revised, text, revision, id', unrepeated⟩ := junction.exists_inserted numbered stated
      refine ⟨revised, ?_, revision, id', unrepeated⟩
      have missing : (tag.tagOf (Location.start.advance front)).attribute? "id" = none := by
        rw [← Option.not_isSome_iff_eq_none, ← Tag.statesId_entries, tag.entries_tagOf, stated]
        decide
      unfold setAttribute
      rw [missing]
      dsimp only
      rw [text_insertAttribute shape junction.split junction.whole, text]
      unfold insertion TagText.Junction.textWith lead
      rw [Component.attributeMarkup_numbered numbered]
      simp

end Document

end PageDesigner
