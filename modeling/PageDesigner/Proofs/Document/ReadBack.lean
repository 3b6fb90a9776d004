import PageDesigner.Proofs.Document.Insertion

/-!
# Whether an attribute is read back

An element that gets a value for a key is read back with it when it states the key
already, or when its tag takes a new attribute (`Document.takesAttribute`).  Otherwise
the new attribute becomes part of what the tag ends in: the value of an attribute that
awaits one, an unquoted value, or a quotation.  `readsBack_setAttribute_iff` puts both
together; all else in the document reads as before.
-/

namespace PageDesigner

open Piece (lexemes blankPieces attributePieces)

/-- What a tag says without regard to its place. -/
def Tag.said (tag : Tag) : Name × List Entry := (tag.name, tag.entries)

/-- An element in an edited text, where its tag got a value for a key. -/
structure Element.SetTo (element edited : Element) (key value : Text) : Prop where
  first_eq : edited.region.first = element.region.first
  name_eq : edited.name = element.name
  value_eq : (edited.attribute? key).map (·.value) = some value
  others_eq : edited.entries.eraseP (·.1.isWritten key) =
    element.entries.eraseP (·.1.isWritten key)

/-- A tree where one of the given elements got a value for a key, and the others say what they
said. -/
def Tree.ReadsBack (tree : Tree) (former : List Element) (element : Element)
    (latter : List Element) (key value : Text) : Prop :=
  ∃ former' edited latter', tree.elements = former' ++ edited :: latter' ∧
    element.SetTo edited key value ∧
    former'.map (·.toTag.said) = former.map (·.toTag.said) ∧
    latter'.map (·.toTag.said) = latter.map (·.toTag.said)

/-- An element in an edited text, where its tag states the given entries. -/
structure Element.Restated (element edited : Element) (entries : List Entry) : Prop where
  first_eq : edited.region.first = element.region.first
  name_eq : edited.name = element.name
  entries_eq : edited.entries = entries

/-- A tree where one of the given elements states the given entries, and the others say what they
said. -/
def Tree.Restates (tree : Tree) (former : List Element) (element : Element)
    (latter : List Element) (entries : List Entry) : Prop :=
  ∃ former' edited latter', tree.elements = former' ++ edited :: latter' ∧
    element.Restated edited entries ∧
    former'.map (·.toTag.said) = former.map (·.toTag.said) ∧
    latter'.map (·.toTag.said) = latter.map (·.toTag.said)

/-! ## Written attributes -/

namespace Piece

/-- A key that is a single name can be written with any value. -/
theorem writable_of_pieces {key : Text} (single : pieces key = [.token (.name key) key])
    (value : Text) : Writable key (Reference.escapeAttribute value) where
  starts := (word_of_pieces single).1
  word := (word_of_pieces single).2
  inside := Text.all_bne_of_absent (Reference.quote_not_mem_escapeAttribute value)

/-- A key and its equals sign hold no character that is neither a part of a name nor the sign. -/
theorem Writable.all_bne {key content : Text} (writable : Writable key content) {char : Char}
    (foreign : continuesName char = false) (other : '=' ≠ char) :
    (key ++ ['=']).all (· != char) = true := by
  have named : key.all (· != char) = true := by
    refine Text.all_bne_of_absent fun member => ?_
    rw [List.all_eq_true.mp writable.word char member] at foreign
    cases foreign
  simp [List.all_append, named, other]

/-- A quote takes a quotation, or everything. -/
theorem Takes.of_quote {quote : Char} {more next : Text} {piece : Piece}
    (takes : Takes quote more next piece) (isQuote : quote = '"' ∨ quote = '\'') :
    piece.stop? = none ∧
      ((∃ token lexeme content, piece = .token token lexeme ∧ token.value? = some content ∧
          (∀ written, token ≠ .name written) ∧ more = content ++ [quote]) ∨
        (piece = .junk (quote :: more) ∧ next = [])) := by
  rcases isQuote with rfl | rfl
  · cases takes with
    | layout _ blank => cases blank
    | name starts => cases starts
    | bare starts => cases starts
    | doubleQuoted => exact ⟨rfl, .inl ⟨_, _, _, rfl, rfl, by simp, rfl⟩⟩
    | openDouble => exact ⟨rfl, .inr ⟨rfl, rfl⟩⟩
    | junk nothing => cases nothing
  · cases takes with
    | layout _ blank => cases blank
    | name starts => cases starts
    | bare starts => cases starts
    | singleQuoted => exact ⟨rfl, .inl ⟨_, _, _, rfl, rfl, by simp, rfl⟩⟩
    | openSingle => exact ⟨rfl, .inr ⟨rfl, rfl⟩⟩
    | junk nothing => cases nothing

/-- The value of a token is part of it. -/
theorem Takes.value_infix {char : Char} {more next lexeme written : Text} {token : Token}
    (takes : Takes char more next (.token token lexeme)) (value : token.value? = some written) :
    written <:+: lexeme := by
  have quoted : ∀ (quote : Char) (content : Text), content <:+: quote :: content ++ [quote] :=
    fun quote content => ⟨[quote], [quote], rfl⟩
  cases takes with
  | name => obtain rfl := Option.some.inj value; exact List.infix_rfl
  | bare => obtain rfl := Option.some.inj value; exact List.infix_rfl
  | doubleQuoted => obtain rfl := Option.some.inj value; exact quoted _ _
  | singleQuoted => obtain rfl := Option.some.inj value; exact quoted _ _
  | _ => cases value

theorem Takes.of_equals {char : Char} {more next lexeme : Text}
    (takes : Takes char more next (.token .equals lexeme)) : lexeme = ['='] := by
  cases takes
  rfl

end Piece

namespace TagBody

/-- A value behind an equals sign: it is part of the pieces, and the equals sign is not part of
it. -/
def HoldsValue (pending : Option (Text × Bool)) (pieces : List Piece) (value : Text) : Prop :=
  ∃ written, value = Reference.decode written ∧ written <:+: lexemes pieces ∧
    written.count '=' + (if pending.any (·.2) then 0 else 1) ≤ (lexemes pieces).count '='

theorem HoldsValue.cons {pending pending' : Option (Text × Bool)} {pieces : List Piece}
    {value : Text} (holds : HoldsValue pending' pieces value) {piece : Piece}
    (room : (if pending.any (·.2) then 0 else 1) ≤
      (if pending'.any (·.2) then 0 else 1) + piece.lexeme.count '=') :
    HoldsValue pending (piece :: pieces) value := by
  obtain ⟨written, same, inside, count⟩ := holds
  refine ⟨written, same, inside.trans (List.suffix_append _ _).isInfix, ?_⟩
  rw [Piece.lexemes_cons, List.count_append]
  omega

/-- What one piece completes and leaves open. -/
structure Steps (pending : Option (Text × Bool)) (piece : Piece) (done : List Entry)
    (next : Option (Text × Bool)) : Prop where
  name : ∀ entry ∈ done, ∃ waiting ∈ pending, entry.1 = Name.ofText waiting.1
  value : ∀ entry ∈ done, entry.2 = [] ∨ pending.any (·.2) = true ∧
    ∃ written, entry.2 = Reference.decode written ∧ written <:+: piece.lexeme
  opens : ∀ waiting ∈ next, (∃ before ∈ pending, before.1 = waiting.1) ∨
    ∃ lexeme, piece = .token (.name waiting.1) lexeme
  room : (if pending.any (·.2) then 0 else 1) ≤
    (if next.any (·.2) then 0 else 1) + piece.lexeme.count '='

theorem Steps.pass {piece : Piece} (pending : Option (Text × Bool)) :
    Steps pending piece [] pending where
  name := by simp
  value := by simp
  opens := fun waiting member => .inl ⟨waiting, member, rfl⟩
  room := Nat.le_add_right _ _

/-- Every piece that was taken makes such a step. -/
theorem steps_of_takes {char : Char} {more next : Text} {piece : Piece}
    (takes : Piece.Takes char more next piece) (pending : Option (Text × Bool)) :
    Steps pending piece (entryRun pending [piece]).1 (entryRun pending [piece]).2 := by
  have completes : ∀ {token lexeme name written}, piece = .token token lexeme →
      token.value? = some written →
      Steps (some (name, true)) piece [(Name.ofText name, Reference.decode written)] none := by
    rintro token lexeme name written rfl value
    refine ⟨?_, ?_, by simp, by simp⟩
    · rintro entry (_ | ⟨_, ⟨⟩⟩)
      exact ⟨(name, true), rfl, rfl⟩
    · rintro entry (_ | ⟨_, ⟨⟩⟩)
      exact .inr ⟨rfl, written, rfl, takes.value_infix value⟩
  cases piece with
  | layout char => exact .pass pending
  | junk lexeme => exact .pass pending
  | token token lexeme =>
      rcases pending with _ | ⟨name, awaits⟩
      · cases token with
        | name written => exact ⟨by simp [entryRun, entryStep], by simp [entryRun, entryStep],
            by simp [entryRun, entryStep], by simp [entryRun, entryStep]⟩
        | _ => exact .pass none
      · cases token with
        | equals =>
            refine ⟨by simp [entryRun, entryStep], by simp [entryRun, entryStep], ?_, ?_⟩
            · simp [entryRun, entryStep]
            · rw [takes.of_equals]
              cases awaits <;> simp [Piece.lexeme]
        | name written =>
            cases awaits with
            | true => exact completes rfl rfl
            | false => exact ⟨by simp [entryRun, entryStep, Token.value?],
                by simp [entryRun, entryStep, Token.value?],
                by simp [entryRun, entryStep, Token.value?],
                by simp [entryRun, entryStep, Token.value?]⟩
        | doubleQuoted content =>
            cases awaits with
            | true => exact completes rfl rfl
            | false => exact .pass _
        | singleQuoted content =>
            cases awaits with
            | true => exact completes rfl rfl
            | false => exact .pass _
        | bare content =>
            cases awaits with
            | true => exact completes rfl rfl
            | false => exact .pass _
        | _ => exact .pass _

/-- What pieces state has its name from the open attribute or from a name among them, and its value
from a token behind an equals sign, if it has one. -/
theorem of_mem_entries {pieces : List Piece}
    (taken : ∀ piece ∈ pieces, ∃ char more next, Piece.Takes char more next piece)
    {pending : Option (Text × Bool)} {entry : Entry} (member : entry ∈ entries pending pieces) :
    ((∃ waiting ∈ pending, entry.1 = Name.ofText waiting.1) ∨
        ∃ written lexeme, .token (.name written) lexeme ∈ pieces) ∧
      (entry.2 = [] ∨ HoldsValue pending pieces entry.2) := by
  induction pieces generalizing pending with
  | nil =>
      obtain ⟨waiting, same, rfl⟩ : ∃ waiting, pending = some waiting ∧
          entry = (Name.ofText waiting.1, []) := by
        cases pending with
        | none => cases member
        | some waiting => exact ⟨waiting, rfl, List.mem_singleton.mp member⟩
      exact ⟨.inl ⟨waiting, same, rfl⟩, .inl rfl⟩
  | cons piece pieces ih =>
      obtain ⟨char, more, next, takes⟩ := taken piece List.mem_cons_self
      have step := steps_of_takes takes pending
      have split := entries_append pending [piece] pieces
      rw [List.singleton_append] at split
      rw [split] at member
      rcases List.mem_append.mp member with here | later
      · refine ⟨.inl (step.name entry here), (step.value entry here).imp_right ?_⟩
        rintro ⟨awaited, written, same, inside⟩
        refine ⟨written, same, inside.trans (List.prefix_append _ _).isInfix, ?_⟩
        rw [Piece.lexemes_cons, List.count_append, if_pos awaited]
        exact (inside.sublist.count_le _).trans (Nat.le_add_right _ _)
      · obtain ⟨name, value⟩ :=
          ih (fun other inside => taken other (List.mem_cons_of_mem _ inside)) later
        refine ⟨?_, value.imp_right fun holds => holds.cons step.room⟩
        rcases name with ⟨waiting, open', same⟩ | ⟨written, lexeme, inside⟩
        · rcases step.opens waiting open' with ⟨before, open', name⟩ | ⟨lexeme, rfl⟩
          · exact .inl ⟨before, open', by rw [same, name]⟩
          · exact .inr ⟨_, lexeme, List.mem_cons_self⟩
        · exact .inr ⟨written, lexeme, List.mem_cons_of_mem _ inside⟩

/-- An attribute that lengthens an unquoted value is no entry of its own. -/
theorem length_entries_glued (pending : Option (Text × Bool)) (word longer content blanks : Text) :
    (entries pending (.token (.bare longer) longer :: .token .equals ['='] ::
        .token (.doubleQuoted content) ('"' :: content ++ ['"']) :: blankPieces blanks)).length =
      (entries pending [.token (.bare word) word]).length := by
  have none' := entries_blankPieces none blanks
  rcases pending with _ | ⟨name, awaits⟩
  · exact congrArg List.length none'
  · cases awaits with
    | true => exact congrArg (fun rest => (_ :: rest).length) none'
    | false => exact congrArg (fun rest => (_ :: rest).length) none'

/-- A value is passed over, or it completes the attribute that awaits one. -/
theorem entries_value {token : Token} {written : Text} (value : token.value? = some written)
    (unnamed : ∀ name, token ≠ .name name) (lexeme : Text) (pending : Option (Text × Bool))
    (rest : List Piece) :
    (pending.any (·.2) = false ∧
        entries pending (.token token lexeme :: rest) = entries pending rest) ∨
      ∃ name, pending = some (name, true) ∧ entries pending (.token token lexeme :: rest) =
        (Name.ofText name, Reference.decode written) :: entries none rest := by
  rcases pending with _ | ⟨name, awaits⟩
  · left
    cases token with
    | name name => exact absurd rfl (unnamed name)
    | doubleQuoted content => exact ⟨rfl, rfl⟩
    | singleQuoted content => exact ⟨rfl, rfl⟩
    | bare content => exact ⟨rfl, rfl⟩
    | _ => cases value
  · cases awaits with
    | false =>
        left
        cases token with
        | name name => exact absurd rfl (unnamed name)
        | doubleQuoted content => exact ⟨rfl, rfl⟩
        | singleQuoted content => exact ⟨rfl, rfl⟩
        | bare content => exact ⟨rfl, rfl⟩
        | _ => cases value
    | true =>
        refine .inr ⟨name, rfl, ?_⟩
        cases token with
        | name name => exact absurd rfl (unnamed name)
        | doubleQuoted content => obtain rfl := Option.some.inj value; rfl
        | singleQuoted content => obtain rfl := Option.some.inj value; rfl
        | bare content => obtain rfl := Option.some.inj value; rfl
        | _ => cases value

/-- What is read from the part of an attribute behind its key does not have its value. -/
theorem value_ne {value tail next rest : Text} {pieces : List Piece}
    (plain : ∀ char ∈ tail, startsName char = false ∧ char ≠ '=' ∧ char ≠ '#')
    (behind : next <:+ '"' :: (Reference.escapeAttribute value ++ '"' :: tail))
    (reads : Piece.Reads next pieces rest) {pending : Option (Text × Bool)}
    (settled : pending.any (·.2) = false) {entry : Entry}
    (member : entry ∈ entries pending pieces)
    (fresh : ∀ waiting ∈ pending, entry.1 ≠ Name.ofText waiting.1) : entry.2 ≠ value := by
  have within : lexemes pieces <:+: '"' :: (Reference.escapeAttribute value ++ '"' :: tail) := by
    rw [reads.text_eq] at behind
    exact (List.prefix_append _ _).isInfix.trans behind.isInfix
  obtain ⟨name, holds⟩ := of_mem_entries (fun _ => reads.takes_of_mem) member
  rintro rfl
  rcases holds with empty | ⟨written, same, inside, count⟩
  · -- Without a value there is no name behind the key.
    rcases name with ⟨waiting, open', same⟩ | ⟨written, lexeme, among⟩
    · exact fresh waiting open' same
    · obtain ⟨char, more, _, takes⟩ := reads.takes_of_mem among
      obtain ⟨_, rfl, starts, _⟩ := takes.of_name
      have among' : char ∈ lexemes pieces :=
        List.mem_flatten.mpr ⟨_, List.mem_map_of_mem among, List.mem_cons_self⟩
      have found := within.subset among'
      rw [empty] at found
      rcases List.mem_cons.mp found with rfl | found
      · cases starts
      rcases List.mem_cons.mp found with rfl | found
      · cases starts
      · rw [(plain char found).1] at starts
        cases starts
  · -- A value has fewer equals signs than what the attribute is written with.
    have wordy : Reference.Wordy ('"' :: (Reference.escapeAttribute entry.2 ++ '"' :: tail)) :=
      .cons (by decide) ((Reference.wordy_escapeAttribute _).append (by
        rintro (_ | ⟨_, found⟩)
        exact (plain _ found).2.2 rfl))
    have decoded := Reference.count_decode_le (wordy.of_infix (inside.trans within))
    have whole := within.sublist.count_le '='
    have none' : tail.count '=' = 0 :=
      List.count_eq_zero.mpr fun found => (plain _ found).2.1 rfl
    rw [List.count_cons_of_ne (by decide), List.count_append, Reference.count_escapeAttribute,
      List.count_cons_of_ne (by decide), none', same] at whole
    rw [settled] at count
    simp only [Bool.false_eq_true, if_false] at count
    omega

/-- What a quote takes states no such value under the key, and neither does what is read behind
it. -/
theorem value_ne_of_quote {quote : Char} {more value tail next rest : Text} {piece : Piece}
    {pieces : List Piece} (isQuote : quote = '"' ∨ quote = '\'')
    (takes : Piece.Takes quote more next piece)
    (plain : ∀ char ∈ tail, startsName char = false ∧ char ≠ '=' ∧ char ≠ '#')
    (behind : next <:+ '"' :: (Reference.escapeAttribute value ++ '"' :: tail))
    (reads : Piece.Reads next pieces rest) {pending : Option (Text × Bool)} {entry : Entry}
    (member : entry ∈ entries pending (piece :: pieces))
    (fresh : ∀ waiting ∈ pending, entry.1 ≠ Name.ofText waiting.1) : entry.2 ≠ value := by
  rcases (takes.of_quote isQuote).2 with
    ⟨token, lexeme, quoted, rfl, isValue, unnamed, rfl⟩ | ⟨rfl, rfl⟩
  · rcases entries_value isValue unnamed lexeme pending pieces with
      ⟨settled, passed⟩ | ⟨name, rfl, completes⟩
    · rw [passed] at member
      exact value_ne plain behind reads settled member fresh
    · rw [completes] at member
      rcases List.mem_cons.mp member with rfl | member
      · exact absurd rfl (fresh (name, true) rfl)
      · exact value_ne plain behind reads rfl member (by simp)
  · -- Nothing is left to read behind the quote.
    cases reads
    cases pending with
    | none => cases member
    | some waiting =>
        rw [List.mem_singleton.mp member] at fresh
        exact absurd rfl (fresh waiting rfl)

end TagBody

namespace TagText.Junction

variable {tag : TagText} {kept : List Piece} {selfClosing : Bool} {closing key : Text}

/-- In front of a `>` an attribute goes in front of what closes the tag. -/
theorem closing_of_close (junction : tag.Junction kept selfClosing closing)
    (closed : tag.opening.getLast? = some '>') : closing = ['/', '>'] ∨ closing = ['>'] := by
  obtain ⟨inside, mark, blanks, shape, areBlank, kinds⟩ := Document.splitTag_cases tag.opening
  have none' : blanks = [] := by
    obtain ⟨front, ends⟩ := List.getLast?_eq_some_iff.mp closed
    rw [ends, ← List.append_assoc] at shape
    exact eq_nil_of_blanks shape areBlank (by decide)
  subst none'
  rw [List.append_nil] at shape
  have same : inside = '<' :: (tag.written ++ lexemes kept) → mark = closing := by
    rintro rfl
    exact List.append_cancel_left (shape.symm.trans junction.whole)
  rcases kinds with ⟨rfl, split⟩ | ⟨rfl, _, split⟩ | ⟨rfl, open', _, _⟩
  · exact .inl (same (congrArg Prod.fst (split.symm.trans junction.split))).symm
  · exact .inr (same (congrArg Prod.fst (split.symm.trans junction.split))).symm
  · rw [List.append_nil] at shape
    rw [shape] at closed
    exact absurd closed open'

/-- A new attribute behind a quote without a partner is part of a quotation; what follows states no
such value. -/
theorem exists_quoted (junction : tag.Junction kept selfClosing closing)
    (closed : tag.opening.getLast? = some '>') {value : Text}
    (writable : Piece.Writable key (Reference.escapeAttribute value))
    (unstated : ∀ entry ∈ tag.entries, entry.1.isWritten key = false)
    {former : List Piece} {quote : Char} {inside : Text} (isQuote : quote = '"' ∨ quote = '\'')
    (shape : kept = former ++ [.junk (quote :: inside)])
    (unpaired : inside.all (· != quote) = true) :
    ∃ revised : TagText,
      revised.text = textWith tag kept selfClosing closing key (Reference.escapeAttribute value) ∧
      ∀ entry ∈ revised.entries, entry.1.isWritten key = true → entry.2 ≠ value := by
  have behind : tag.behind = [] :=
    junction.exhausted quote inside (by rw [shape, List.getLast?_concat]) isQuote
  generalize blank : Document.lead ('<' :: (tag.written ++ lexemes kept)) = lead
  -- The key and its equals sign are inside the quotation.
  have content : (inside ++ (lead ++ (key ++ ['=']))).all (· != quote) = true := by
    have visible : lead.all (· != quote) = true := by
      rw [← blank]
      exact Text.all_bne_of_absent (Text.absent_of_blanks (Document.blank_onlyIf _)
        (by rcases isQuote with rfl | rfl <;> decide))
    have named : (key ++ ['=']).all (· != quote) = true := by
      rcases isQuote with rfl | rfl
      · exact writable.all_bne (by decide) (by decide)
      · exact writable.all_bne (by decide) (by decide)
    rw [List.all_append, unpaired, List.all_append, visible, named]
    rfl
  have plain : ∀ char ∈ Text.onlyIf selfClosing " " ++ closing,
      startsName char = false ∧ char ≠ '=' ∧ char ≠ '#' := by
    rcases junction.closing_of_close closed with rfl | rfl <;> cases selfClosing <;>
      simp [Text.onlyIf] <;> decide
  generalize ends : Text.onlyIf selfClosing " " ++ closing = tail at plain
  obtain ⟨more, next, piece, split, takes⟩ := Piece.exists_takes quote
    ((inside ++ (lead ++ (key ++ ['=']))) ++
      '"' :: (Reference.escapeAttribute value ++ '"' :: tail))
  obtain ⟨goesOn, kinds⟩ := takes.of_quote isQuote
  have later : next <:+ '"' :: (Reference.escapeAttribute value ++ '"' :: tail) := by
    rcases kinds with ⟨_, _, quoted, _, _, _, rfl⟩ | ⟨_, rfl⟩
    · rcases List.append_eq_append_iff.mp split with ⟨others, _, rest⟩ | ⟨others, early, _⟩
      · exact ⟨others, rest.symm⟩
      · exfalso
        rw [early] at content
        simp at content
    · exact List.nil_suffix
  obtain ⟨others, rest, stop, reads, starts⟩ := Piece.exists_reads next
  obtain ⟨behind', rfl⟩ := starts.exists_behind
  have kept' := junction.reads
  rw [shape] at kept'
  have whole := kept'.exchange (.piece takes goesOn reads) (by simp [Piece.lexeme]) rfl
  rw [← split] at whole
  have text : lexemes former ++ (quote :: ((inside ++ (lead ++ (key ++ ['=']))) ++
      '"' :: (Reference.escapeAttribute value ++ '"' :: tail))) =
      lexemes kept ++ (Document.lead ('<' :: (tag.written ++ lexemes kept)) ++
        (lexemes (attributePieces key (Reference.escapeAttribute value)) ++
          (Text.onlyIf selfClosing " " ++ (closing ++ tag.behind)))) := by
    rw [blank, shape, behind, Piece.lexemes_attributePieces, ← ends]
    simp [Piece.lexeme]
  rw [text] at whole
  obtain ⟨revised, text', _, pieces, _, _⟩ := junction.exists_revised whole starts
  refine ⟨revised, text', fun entry member named => ?_⟩
  have known : tag.entries =
      (TagBody.entryRun none former).1 ++ TagBody.bareEntry (TagBody.entryRun none former).2 := by
    have closing' : closing.getLast? = some '>' := by
      rcases junction.closing_of_close closed with rfl | rfl <;> rfl
    rw [← junction.keeps closing', shape, TagBody.entries_append]
    rfl
  unfold TagText.entries at member
  rw [pieces, TagBody.entries_append] at member
  rw [known] at unstated
  generalize (TagBody.entryRun none former).2 = pending at member unstated
  have fresh : ∀ waiting ∈ pending, entry.1 ≠ Name.ofText waiting.1 := by
    rintro waiting open' same
    rw [same, unstated (Name.ofText waiting.1, []) (List.mem_append_right _ ?_)] at named
    · cases named
    · obtain rfl := Option.mem_def.mp open'
      exact List.mem_singleton.mpr rfl
  rcases List.mem_append.mp member with early | member
  · rw [unstated entry (List.mem_append_left _ early)] at named
    cases named
  exact TagBody.value_ne_of_quote isQuote takes plain later reads member fresh

/-- It does not depend on the key whether a new attribute begins behind the last piece. -/
theorem closedBefore_key (inside : Text) {content : Text} (writable : Piece.Writable key content)
    (piece : Piece) :
    piece.closedBefore (Document.lead inside ++ key) =
      piece.closedBefore (Document.lead inside ++ "id") := by
  obtain ⟨first, more, rfl, starts⟩ := writable.starts
  rcases Document.lead_cases inside with lead | ⟨lead, _⟩
  · rw [lead]
    exact Piece.closedBefore_congr rfl piece
  · rw [lead]
    exact Piece.closedBefore_of_startsName starts rfl _ _ piece

/-- A tag that takes a new attribute states it behind all it stated before. -/
theorem exists_stated (junction : tag.Junction kept selfClosing closing)
    (closed : tag.opening.getLast? = some '>') {value : Text}
    (writable : Piece.Writable key (Reference.escapeAttribute value))
    (unstated : ∀ entry ∈ tag.entries, entry.1.isWritten key = false)
    (takes : Document.takesAttribute tag.opening = true) :
    ∃ revised : TagText,
      revised.text = textWith tag kept selfClosing closing key (Reference.escapeAttribute value) ∧
      revised.written = tag.written ∧ revised.later = tag.later ∧
      revised.entries = Entry.withValue key value tag.entries := by
  rw [junction.takesAttribute_eq, Bool.and_eq_true, Bool.not_eq_true'] at takes
  obtain ⟨complete, ends⟩ := takes
  have ends' : kept.getLast?.all (·.closedBefore
      (Document.lead ('<' :: (tag.written ++ lexemes kept)) ++ key)) = true := by
    simpa only [closedBefore_key _ writable] using ends
  obtain ⟨revised, text, written, later, entries⟩ := junction.exists_closed writable ends'
  refine ⟨revised, text, written, later, ?_⟩
  have closing' : closing.getLast? = some '>' := by
    rcases junction.closing_of_close closed with rfl | rfl <;> rfl
  rw [Entry.withValue_of_unstated unstated, ← junction.keeps closing', entries, TagBody.entries,
    Piece.entryRun_attributePieces complete, Reference.decode_escapeAttribute]
  simp [TagBody.entries, TagBody.bareEntry]

/-- A tag that does not take a new attribute states as many as before, or nothing under the key that
has the value. -/
theorem exists_refused (junction : tag.Junction kept selfClosing closing)
    (closed : tag.opening.getLast? = some '>') {value : Text}
    (writable : Piece.Writable key (Reference.escapeAttribute value))
    (unstated : ∀ entry ∈ tag.entries, entry.1.isWritten key = false)
    (refuses : Document.takesAttribute tag.opening = false) :
    ∃ revised : TagText,
      revised.text = textWith tag kept selfClosing closing key (Reference.escapeAttribute value) ∧
      (revised.entries.length = tag.entries.length ∨
        ∀ entry ∈ revised.entries, entry.1.isWritten key = true → entry.2 ≠ value) := by
  have closing' : closing.getLast? = some '>' := by
    rcases junction.closing_of_close closed with rfl | rfl <;> rfl
  rw [junction.takesAttribute_eq] at refuses
  cases ends : kept.getLast?.all (·.closedBefore
      (Document.lead ('<' :: (tag.written ++ lexemes kept)) ++ "id")) with
  | true =>
      -- The attribute that awaits a value takes the key for it.
      rw [ends, Bool.and_true, Bool.not_eq_false'] at refuses
      have ends' : kept.getLast?.all (·.closedBefore
          (Document.lead ('<' :: (tag.written ++ lexemes kept)) ++ key)) = true := by
        simpa only [closedBefore_key _ writable] using ends
      obtain ⟨revised, text, _, _, entries⟩ := junction.exists_closed writable ends'
      refine ⟨revised, text, .inl ?_⟩
      rw [← junction.keeps closing', entries]
      rcases state : (TagBody.entryRun none kept).2 with _ | ⟨awaiting, waits⟩
      · rw [state] at refuses
        cases refuses
      · rw [state] at refuses
        obtain rfl : waits = true := refuses
        rw [TagBody.entries, Piece.entryRun_attributePieces_awaited, TagBody.entries, state]
        simp [TagBody.bareEntry]
  | false =>
      obtain ⟨former, char, more, ⟨shape, starts, solid, unnamed, word, lead⟩ | ⟨isQuote, shape,
        unpaired⟩⟩ := junction.lost_cases ends
      · obtain ⟨revised, blanks, text, _, _, pieces⟩ :=
          junction.exists_glued writable shape starts solid unnamed word lead
        refine ⟨revised, text, .inl ?_⟩
        rw [← junction.keeps closing', shape, TagText.entries, pieces, TagBody.entries_append,
          TagBody.entries_append, List.length_append, List.length_append,
          TagBody.length_entries_glued _ (char :: more)]
      · obtain ⟨revised, text, differs⟩ :=
          junction.exists_quoted closed writable unstated isQuote shape unpaired
        exact ⟨revised, text, .inr differs⟩

end TagText.Junction

/-! ## Elements of an edited text -/

theorem Tag.value_entries (tag : Tag) (key : Text) :
    (tag.attribute? key).map (·.value) =
      (tag.entries.find? (·.1.isWritten key)).map Prod.snd := by
  unfold attribute? entries
  rw [List.find?_map, Option.map_map]
  rfl

/-- What a profile says of its tag. -/
def Profile.said (profile : Profile) : Name × List Entry := (profile.name, profile.entries)

namespace Document

variable {document : Document} {front key value : Text} {tag : TagText} {events : List Event}
  {former latter : List Element} {element : Element}

/-- The elements of a text with a tag behind a settled beginning. -/
theorem exists_elements (shape : document.text = front ++ '<' :: tag.text)
    (settled : Event.Settled .start front events) :
    ∃ former element latter,
      (Tree.parse document.text).elements = former ++ element :: latter ∧
      former.map Element.opening = events.flatMap Event.openings ∧
      element.toTag = tag.tagOf (Location.start.advance front) ∧
      latter.map (·.toTag.said) = tag.later.map Profile.said := by
  have openings := Tree.openings_settled settled tag
  rw [← shape] at openings
  obtain ⟨former, others, elements, formerEq, othersEq⟩ := List.map_eq_append_iff.mp openings
  obtain ⟨element, latter, rfl, same, latterEq⟩ := List.map_eq_cons_iff.mp othersEq
  refine ⟨former, element, latter, elements, formerEq, congrArg Prod.fst same, ?_⟩
  have later := TagText.openings_later shape
  rw [← latterEq] at later
  rw [← later, List.map_map, List.map_map]
  rfl

/-- An element of a text is one tag behind a settled beginning. -/
theorem exists_element
    (split : (Tree.parse document.text).elements = former ++ element :: latter) :
    ∃ (front : Text) (tag : TagText) (events : List Event),
      document.text = front ++ '<' :: tag.text ∧ Event.Settled .start front events ∧
      former.map Element.opening = events.flatMap Event.openings ∧
      element.toTag = tag.tagOf (Location.start.advance front) ∧
      latter.map (·.toTag.said) = tag.later.map Profile.said := by
  have openings : (Tree.parse document.text).openings =
      former.map Element.opening ++ element.opening :: latter.map Element.opening := by
    unfold Tree.openings
    rw [split, List.map_append, List.map_cons]
  obtain ⟨front, tag, events, shape, begins, brings, same, remaining⟩ :=
    Tree.exists_tagText openings
  refine ⟨front, tag, events, shape, begins.settled, brings.symm, congrArg Prod.fst same, ?_⟩
  have later := TagText.openings_later shape
  rw [remaining] at later
  rw [← later, List.map_map, List.map_map]
  rfl

/-- A version of a tag with the same tags behind it is what the edited text states. -/
theorem restates_of_revised {edited : Document} {revised : TagText}
    (settled : Event.Settled .start front events)
    (formerEq : former.map Element.opening = events.flatMap Event.openings)
    (tagEq : element.toTag = tag.tagOf (Location.start.advance front))
    (latterEq : latter.map (·.toTag.said) = tag.later.map Profile.said)
    (shape : edited.text = front ++ '<' :: revised.text) (written : revised.written = tag.written)
    (later : revised.later = tag.later) :
    (Tree.parse edited.text).Restates former element latter revised.entries := by
  obtain ⟨former', edited', latter', elements, formerEq', tagEq', latterEq'⟩ :=
    exists_elements shape settled
  refine ⟨former', edited', latter', elements, ⟨?_, ?_, ?_⟩, ?_, ?_⟩
  · rw [tagEq, tagEq']
    rfl
  · rw [tagEq, tagEq']
    exact congrArg Name.ofText written
  · rw [tagEq', TagText.entries_tagOf]
  · have same := congrArg (List.map fun opening : Opening => opening.1.said)
      (formerEq'.trans formerEq.symm)
    rw [List.map_map, List.map_map] at same
    exact same
  · rw [latterEq', latterEq, later]

/-- A version of a tag that states the value, with the same tags behind it, is read back. -/
theorem readsBack_of_revised {edited : Document} {revised : TagText}
    (settled : Event.Settled .start front events)
    (formerEq : former.map Element.opening = events.flatMap Event.openings)
    (tagEq : element.toTag = tag.tagOf (Location.start.advance front))
    (latterEq : latter.map (·.toTag.said) = tag.later.map Profile.said)
    (shape : edited.text = front ++ '<' :: revised.text) (written : revised.written = tag.written)
    (later : revised.later = tag.later)
    (entries : revised.entries = Entry.withValue key value tag.entries) :
    (Tree.parse edited.text).ReadsBack former element latter key value := by
  obtain ⟨former', edited', latter', elements, restated, saysFormer, saysLatter⟩ :=
    restates_of_revised settled formerEq tagEq latterEq shape written later
  refine ⟨former', edited', latter', elements,
    ⟨restated.first_eq, restated.name_eq, ?_, ?_⟩, saysFormer, saysLatter⟩
  · rw [Tag.value_entries, restated.entries_eq, entries, Entry.find?_withValue]
  · rw [restated.entries_eq, entries, tagEq, TagText.entries_tagOf, Entry.eraseP_withValue]

/-- Behind the same elements stands the tag that the edited text has there. -/
theorem tagOf_of_elements {edited : Document} {revised : TagText} {former' latter' : List Element}
    {element' : Element} (settled : Event.Settled .start front events)
    (formerEq : former.map Element.opening = events.flatMap Event.openings)
    (shape : edited.text = front ++ '<' :: revised.text)
    (elements : (Tree.parse edited.text).elements = former' ++ element' :: latter')
    (saysFormer : former'.map (·.toTag.said) = former.map (·.toTag.said)) :
    element'.toTag = revised.tagOf (Location.start.advance front) := by
  obtain ⟨former₁, element₁, latter₁, elements₁, formerEq₁, tagEq₁, _⟩ :=
    exists_elements shape settled
  have length : former₁.length = former'.length := by
    have first := congrArg List.length (formerEq₁.trans formerEq.symm)
    have second := congrArg List.length saysFormer
    simp only [List.length_map] at first second
    exact first.trans second.symm
  obtain ⟨-, same⟩ := List.append_inj (elements₁.symm.trans elements) length
  obtain ⟨rfl, -⟩ := List.cons.inj same
  exact tagEq₁

/-- What is read back is stated by the tag that stands there now. -/
theorem stated_of_readsBack {edited : Document} {revised : TagText}
    (settled : Event.Settled .start front events)
    (formerEq : former.map Element.opening = events.flatMap Event.openings)
    (tagEq : element.toTag = tag.tagOf (Location.start.advance front))
    (shape : edited.text = front ++ '<' :: revised.text)
    (reads : (Tree.parse edited.text).ReadsBack former element latter key value) :
    (revised.entries.find? (·.1.isWritten key)).map Prod.snd = some value ∧
      revised.entries.eraseP (·.1.isWritten key) = tag.entries.eraseP (·.1.isWritten key) := by
  obtain ⟨former', element', latter', elements, setTo, saysFormer, _⟩ := reads
  have tagEq' := tagOf_of_elements settled formerEq shape elements saysFormer
  have value_eq := setTo.value_eq
  have others_eq := setTo.others_eq
  rw [tagEq', Tag.value_entries, TagText.entries_tagOf] at value_eq
  rw [tagEq', tagEq, TagText.entries_tagOf, TagText.entries_tagOf] at others_eq
  exact ⟨value_eq, others_eq⟩

/-- A tag that did not state the key and states no more than it did is not read back with it. -/
theorem not_readsBack_of_length {edited : Document} {revised : TagText}
    (settled : Event.Settled .start front events)
    (formerEq : former.map Element.opening = events.flatMap Event.openings)
    (tagEq : element.toTag = tag.tagOf (Location.start.advance front))
    (shape : edited.text = front ++ '<' :: revised.text)
    (unstated : ∀ entry ∈ tag.entries, entry.1.isWritten key = false)
    (length : revised.entries.length = tag.entries.length) :
    ¬ (Tree.parse edited.text).ReadsBack former element latter key value := by
  intro reads
  obtain ⟨stated, others⟩ := stated_of_readsBack settled formerEq tagEq shape reads
  obtain ⟨entry, found, _⟩ := Option.map_eq_some_iff.mp stated
  have fewer := List.length_eraseP_of_mem (List.mem_of_find?_eq_some found)
    (List.find?_some found)
  rw [others, List.eraseP_of_forall_not (by simpa using unstated), length] at fewer
  have some' := List.length_pos_of_mem (List.mem_of_find?_eq_some found)
  omega

/-- An element whose tag ends in `>` or `/>` is read back with the value it gets, and all else as
before, just in case it states the key already or its tag takes a new attribute.  A tag does not when
an attribute awaits its value there, or when its last piece goes on: an unquoted value that ends in a
blank which is no layout, or a quote without a partner. -/
theorem readsBack_setAttribute_iff
    (split : (Tree.parse document.text).elements = former ++ element :: latter)
    (closed : (document.regionText element.region).getLast? = some '>')
    (single : Piece.pieces key = [.token (.name key) key]) (value : Text) :
    (Tree.parse (document.setAttribute element.toTag key value).2.text).ReadsBack
        former element latter key value ↔
      (element.attribute? key).isSome = true ∨
        takesAttribute (document.regionText element.region) = true := by
  obtain ⟨front, tag, events, shape, settled, formerEq, tagEq, latterEq⟩ := exists_element split
  rw [tagEq, regionText_tagOf shape] at closed
  rw [tagEq, regionText_tagOf shape]
  cases found : (tag.tagOf (Location.start.advance front)).attribute? key with
  | some existing =>
      obtain ⟨revised, text, written, later, entries⟩ := exists_updated shape found value
      refine iff_of_true ?_ (.inl rfl)
      exact readsBack_of_revised settled formerEq tagEq latterEq text written later entries
  | none =>
      have unstated : ∀ entry ∈ tag.entries, entry.1.isWritten key = false := by
        intro entry member
        rw [← tag.entries_tagOf (Location.start.advance front)] at member
        obtain ⟨stated, among, rfl⟩ := List.mem_map.mp member
        exact Bool.eq_false_iff.mpr (List.find?_eq_none.mp found stated among)
      obtain ⟨kept, selfClosing, closing, junction⟩ := tag.exists_junction
      have writable := Piece.writable_of_pieces single value
      have inserted :
          (document.setAttribute (tag.tagOf (Location.start.advance front)) key value).2.text =
            front ++ '<' :: TagText.Junction.textWith tag kept selfClosing closing key
              (Reference.escapeAttribute value) := by
        unfold setAttribute
        rw [found]
        dsimp only
        rw [text_insertAttribute shape junction.split junction.whole]
        unfold insertion TagText.Junction.textWith lead
        rw [Component.attributeMarkup_eq]
        simp
      cases takes : takesAttribute tag.opening with
      | true =>
          obtain ⟨revised, text, written, later, entries⟩ :=
            junction.exists_stated closed writable unstated takes
          rw [← text] at inserted
          refine iff_of_true ?_ (.inr rfl)
          exact readsBack_of_revised settled formerEq tagEq latterEq inserted written later entries
      | false =>
          obtain ⟨revised, text, less | differs⟩ :=
            junction.exists_refused closed writable unstated takes
          · rw [← text] at inserted
            refine iff_of_false ?_ (by simp)
            exact not_readsBack_of_length settled formerEq tagEq inserted unstated less
          · rw [← text] at inserted
            refine iff_of_false (fun reads => ?_) (by simp)
            obtain ⟨stated, _⟩ := stated_of_readsBack settled formerEq tagEq inserted reads
            obtain ⟨entry, found', same⟩ := Option.map_eq_some_iff.mp stated
            exact differs entry (List.mem_of_find?_eq_some found')
              (by simpa using List.find?_some found') same

/-- A page with an attribute that awaits its value. -/
def danglingDocument : Document := .ofText .standard .standard .standard "<a x= ><b>"

/-- The key becomes the value that was awaited. -/
theorem readsBack_setAttribute_iff_of_dangling :
    ∃ element latter,
      (Tree.parse danglingDocument.text).elements = [] ++ element :: latter ∧
      (danglingDocument.regionText element.region).getLast? = some '>' ∧
      Piece.pieces "k" = [.token (.name "k") "k"] ∧
      ¬ (Tree.parse (danglingDocument.setAttribute element.toTag "k" "v").2.text).ReadsBack
        [] element latter "k" "v" := by
  have refuses : (Tree.parse danglingDocument.text).elements.head?.any (fun element =>
      (danglingDocument.regionText element.region).getLast? == some '>' &&
        !((element.attribute? "k").isSome ||
          takesAttribute (danglingDocument.regionText element.region))) = true := by
    decide +kernel
  cases elements : (Tree.parse danglingDocument.text).elements with
  | nil => rw [elements] at refuses; cases refuses
  | cons element latter =>
      rw [elements] at refuses
      simp only [List.head?_cons, Option.any_some, Bool.and_eq_true, beq_iff_eq, Bool.not_eq_true',
        Bool.or_eq_false_iff] at refuses
      obtain ⟨closed, unstated, refused⟩ := refuses
      have single : Piece.pieces "k" = [.token (.name "k") "k"] := by decide
      refine ⟨element, latter, rfl, closed, single, fun reads => ?_⟩
      rcases (readsBack_setAttribute_iff elements closed single "v").mp reads with stated | takes
      · rw [unstated] at stated
        cases stated
      · rw [refused] at takes
        cases takes

end Document

end PageDesigner
