import PageDesigner.Proofs.Document.ReadBack

/-!
# Dropping an attribute

An attribute is dropped with the blank in front of it, and what stood on its two sides is
read as one.  An element loses just the attribute when the last piece in front of the cut
ends there (`Document.staysApart`) and no attribute in front of it takes a value from behind
the cut (`Document.takesValue`).  When a name in front of the cut goes on behind it
(`Document.joinsName`), the element says something else (`restates_removeAttribute`).
-/

namespace PageDesigner

open Piece (lexemes)

namespace TagBody

/-- The value that pieces give to an attribute whose name stands right in front of them. -/
def valueBehind (pieces : List Piece) : Text :=
  ((entries (some ([], false)) pieces).head?.map Prod.snd).getD []

/-- An open attribute gets its value from the pieces behind it.  When that is empty, the others are
read as if nothing had been open. -/
theorem exists_valueBehind {pieces : List Piece}
    (taken : ∀ piece ∈ pieces, ∃ char more next, Piece.Takes char more next piece)
    (waits : Bool) :
    ∃ value rest, (∀ name, entries (some (name, waits)) pieces = (Name.ofText name, value) :: rest) ∧
      (value = [] → rest = entries none pieces) := by
  induction pieces generalizing waits with
  | nil => exact ⟨[], [], fun _ => rfl, fun _ => rfl⟩
  | cons piece pieces ih =>
      have others := fun waits => ih (fun other member =>
        taken other (List.mem_cons_of_mem _ member)) waits
      obtain ⟨char, more, next, takes⟩ := taken piece List.mem_cons_self
      -- Most pieces are passed over, with or without an open attribute.
      have passed : ∀ {waits'}, (∀ name, entries (some (name, waits)) (piece :: pieces) =
          entries (some (name, waits')) pieces) → entries none (piece :: pieces) = entries none pieces →
          ∃ value rest, (∀ name, entries (some (name, waits)) (piece :: pieces) =
            (Name.ofText name, value) :: rest) ∧
              (value = [] → rest = entries none (piece :: pieces)) := by
        intro waits' open' without
        obtain ⟨value, rest, reads, bare⟩ := others waits'
        exact ⟨value, rest, fun name => (open' name).trans (reads name),
          fun empty => (bare empty).trans without.symm⟩
      cases piece with
      | layout char => exact passed (fun _ => rfl) rfl
      | junk lexeme => exact passed (fun _ => rfl) rfl
      | token token lexeme =>
          cases waits with
          | true =>
              cases token with
              | name written =>
                  refine ⟨Reference.decode written, entries none pieces, fun _ => rfl, fun empty => ?_⟩
                  obtain ⟨rfl, _, _, word⟩ := takes.of_name
                  rw [Reference.decode_plain] at empty
                  · cases empty
                  · intro member
                    cases List.all_eq_true.mp word _ member
              | doubleQuoted content =>
                  exact ⟨Reference.decode content, entries none pieces, fun _ => rfl, fun _ => rfl⟩
              | singleQuoted content =>
                  exact ⟨Reference.decode content, entries none pieces, fun _ => rfl, fun _ => rfl⟩
              | bare content =>
                  exact ⟨Reference.decode content, entries none pieces, fun _ => rfl, fun _ => rfl⟩
              | _ => exact passed (fun _ => rfl) rfl
          | false =>
              cases token with
              | name written =>
                  exact ⟨[], entries (some (written, false)) pieces, fun _ => rfl, fun _ => rfl⟩
              | _ => exact passed (fun _ => rfl) rfl

/-- Pieces are read behind an open attribute as they are read alone just in case they give it no
value. -/
theorem entries_eq_bareEntry_append_iff {pieces : List Piece}
    (taken : ∀ piece ∈ pieces, ∃ char more next, Piece.Takes char more next piece)
    {pending : Option (Text × Bool)} (settled : pending.any (·.2) = false) :
    entries pending pieces = bareEntry pending ++ entries none pieces ↔
      (pending.isSome && !(valueBehind pieces).isEmpty) = false := by
  rcases pending with _ | ⟨name, waits⟩
  · exact iff_of_true rfl rfl
  obtain rfl : waits = false := settled
  obtain ⟨value, rest, reads, bare⟩ := exists_valueBehind taken false
  have behind : valueBehind pieces = value := by
    unfold valueBehind
    rw [reads]
    rfl
  rw [behind, reads]
  cases value with
  | nil => exact iff_of_true (by rw [bare rfl]; rfl) rfl
  | cons char more => exact iff_of_false (fun same => by cases same) (by simp)

/-- What ends a tag gives no value. -/
theorem entries_stop {stop : TagStop} {rest : Text} (starts : stop.Starts rest)
    (pending : Option (Text × Bool)) :
    entries pending (Piece.tagPiecesFrom 0 rest) = bareEntry pending := by
  cases starts <;> cases pending <;> rfl

/-- The value behind a name does not depend on how the tag ends. -/
theorem valueBehind_tagPieces {pieces : List Piece} {stop : TagStop} {rest : Text}
    (reads : Piece.Reads (lexemes pieces ++ rest) pieces rest) (starts : stop.Starts rest) :
    valueBehind (Piece.tagPiecesFrom 0 (lexemes pieces ++ rest)) = valueBehind pieces := by
  unfold valueBehind
  rw [reads.tagPieces_eq, entries_append, entries_stop starts]
  rfl

/-- A name that goes on gives another attribute, or another value. -/
theorem entries_name_ne {word more : Text} (plain : '&' ∉ word ++ more) (longer : more ≠ [])
    {pieces : List Piece}
    (taken : ∀ piece ∈ pieces, ∃ char rest next, Piece.Takes char rest next piece)
    (pending : Option (Text × Bool)) (lexeme lexeme' : Text) (after : List Entry) :
    entries pending (.token (.name (word ++ more)) lexeme :: pieces) ≠
      entries pending [.token (.name word) lexeme'] ++ after := by
  obtain ⟨value, rest, reads, _⟩ := exists_valueBehind taken false
  have differs : word ++ more ≠ word := fun same => longer (List.append_right_eq_self.mp same)
  have renamed : Name.ofText (word ++ more) ≠ Name.ofText word := fun same =>
    differs (by rw [← Name.text_ofText (word ++ more), same, Name.text_ofText])
  rcases pending with _ | ⟨name, waits⟩
  · intro same
    have here : (Name.ofText (word ++ more), value) :: rest = (Name.ofText word, []) :: after :=
      (reads (word ++ more)).symm.trans same
    exact renamed (congrArg Prod.fst (List.cons.inj here).1)
  · cases waits with
    | false =>
        intro same
        have here : (Name.ofText name, []) :: entries (some (word ++ more, false)) pieces =
            (Name.ofText name, []) :: (Name.ofText word, []) :: after := same
        rw [reads (word ++ more)] at here
        exact renamed (congrArg Prod.fst (List.cons.inj (List.cons.inj here).2).1)
    | true =>
        intro same
        have here : (Name.ofText name, Reference.decode (word ++ more)) :: entries none pieces =
            (Name.ofText name, Reference.decode word) :: after := same
        have value' := congrArg Prod.snd (List.cons.inj here).1
        dsimp only at value'
        rw [Reference.decode_plain plain,
          Reference.decode_plain fun inside => plain (List.mem_append_left _ inside)] at value'
        exact differs value'

end TagBody

/-! ## Cuts -/

namespace Document

/-- Whether the last piece of a tag in front of a cut ends there. -/
def staysApart (kept rest : Text) : Bool :=
  match (innerPieces kept).getLast? with
  | none => !rest.head?.any continuesName
  | some piece => piece.closedBefore rest

/-- Whether a name in front of a cut goes on behind it. -/
def joinsName (kept rest : Text) : Bool :=
  rest.head?.any continuesName &&
    match (innerPieces kept).getLast? with
    | none => true
    | some (.token (.name _) _) => true
    | some _ => false

/-- Whether an attribute without a value in front of a cut gets one from behind it. -/
def takesValue (kept rest : Text) : Bool :=
  (TagBody.entryRun none (innerPieces kept)).2.isSome &&
    !(TagBody.valueBehind (Piece.tagPiecesFrom 0 rest)).isEmpty

/-- The text of a tag that stays in front of an attribute when the attribute is dropped. -/
def keptText (document : Document) (tag : Tag) (target : Attribute) : Text :=
  document.buffer.between tag.region.first (document.regionWithBlank tag target).first

/-- The text of a document behind an attribute. -/
def textBehind (document : Document) (target : Attribute) : Text :=
  document.text.drop (document.buffer.history.index target.region.last)

/-- The blanks that are dropped with an attribute behind them. -/
def isGap (char : Char) : Bool := char == ' ' || char == '\t'

end Document

namespace Location

theorem one_le_column_advance {location : Location} (walked : Text) (one : 1 ≤ location.column) :
    1 ≤ (location.advance walked).column := by
  induction walked generalizing location with
  | nil => exact one
  | cons char rest ih =>
      rw [advance_cons]
      refine ih ?_
      unfold next
      split
      · exact Nat.le_refl 1
      · exact Nat.le_add_left 1 _

/-- Behind a blank that is dropped, the column in front of it is one less. -/
theorem advance_gap {char : Char} (gap : Document.isGap char = true) (walked : Text) :
    start.advance (walked ++ [char]) =
      ⟨(start.advance walked).line, (start.advance walked).column + 1⟩ := by
  have other : char ≠ '\n' := by
    rintro rfl
    cases gap
  rw [advance_append]
  exact if_neg other

end Location

namespace Piece

/-- A piece in front of another one ends in a blank that is dropped only if it is that blank. -/
theorem Takes.eq_layout_of_gap {char last : Char} {more next : Text} {piece : Piece}
    (takes : Takes char more next piece) (goesOn : piece.stop? = none) (follows : next ≠ [])
    (ends : piece.lexeme.getLast? = some last) (gap : Document.isGap last = true) :
    piece = .layout last := by
  obtain ⟨foreign, unvalued, blank⟩ : continuesName last = false ∧ continuesBare last = false ∧
      Text.isLayout last = true := by
    simp only [Document.isGap, Bool.or_eq_true, beq_iff_eq] at gap
    rcases gap with rfl | rfl <;> decide
  rw [takes.lexeme_eq] at ends
  have member := List.mem_of_getLast? ends
  have closed : ∀ {front : Text} {mark : Char}, char :: more = front ++ [mark] →
      Document.isGap mark = false → False := by
    intro front mark shape solid
    rw [shape, List.getLast?_concat] at ends
    rw [Option.some.inj ends, gap] at solid
    cases solid
  cases takes with
  | layout => rw [List.mem_singleton.mp member]
  | name starts _ word _ =>
      have continues : continuesName last = true := by
        rcases List.mem_cons.mp member with rfl | inside
        · exact continuesName_of_startsName starts
        · exact List.all_eq_true.mp word _ inside
      rw [foreign] at continues
      cases continues
  | bare _ solid _ word _ =>
      rcases List.mem_cons.mp member with rfl | inside
      · rw [blank] at solid
        cases solid
      · have continues := List.all_eq_true.mp word _ inside
        rw [unvalued] at continues
        cases continues
  | doubleQuoted => exact (@closed ('"' :: _) _ rfl rfl).elim
  | singleQuoted => exact (@closed ('\'' :: _) _ rfl rfl).elim
  | openDouble => exact absurd rfl follows
  | openSingle => exact absurd rfl follows
  | equals => exact (@closed [] _ rfl rfl).elim
  | close => cases goesOn
  | opening => cases goesOn
  | selfClose => cases goesOn
  | directiveClose => exact (@closed ['%'] _ rfl rfl).elim
  | junk nothing _ =>
      obtain rfl := List.mem_singleton.mp member
      simp [startsNothing, blank] at nothing

end Piece

namespace TagText

/-- The pieces in front of others, without the blank at their end that is dropped. -/
theorem exists_gap (tag : TagText) {former rest : List Piece} (shape : tag.pieces = former ++ rest)
    (nonempty : rest ≠ []) :
    ∃ kept gap, former = kept ++ gap ∧
      ((gap = [] ∧ ('<' :: (tag.written ++ lexemes former)).getLast?.any Document.isGap = false) ∨
        ∃ char, gap = [.layout char] ∧ Document.isGap char = true) := by
  rcases List.eq_nil_or_concat' former with rfl | ⟨before, piece, rfl⟩
  · refine ⟨[], [], rfl, .inl ⟨rfl, ?_⟩⟩
    obtain ⟨start, last, written, continues⟩ := tag.exists_last
    rw [Piece.lexemes_nil, List.append_nil, written, ← List.cons_append, List.getLast?_concat]
    cases gap : Document.isGap last with
    | false => exact gap
    | true =>
        simp only [Document.isGap, Bool.or_eq_true, beq_iff_eq] at gap
        rcases gap with rfl | rfl <;> cases continues
  · have reads := tag.reads
    rw [shape, List.append_assoc, List.singleton_append] at reads
    obtain ⟨char, more, takes, goesOn, _⟩ := reads.takes
    have follows : lexemes rest ++ (tag.stop.mark ++ tag.behind) ≠ [] := by
      obtain ⟨next, others, rfl⟩ := List.exists_cons_of_ne_nil nonempty
      have inside : next ∈ before ++ piece :: next :: others := by simp
      obtain ⟨_, _, _, taken⟩ := reads.takes_of_mem inside
      rw [Piece.lexemes_cons, taken.lexeme_eq]
      simp
    obtain ⟨last, ends⟩ : ∃ last, piece.lexeme.getLast? = some last := by
      rw [takes.lexeme_eq]
      exact ⟨_, List.getLast?_cons⟩
    cases gap : Document.isGap last with
    | true =>
        obtain rfl := takes.eq_layout_of_gap goesOn follows ends gap
        exact ⟨before, _, rfl, .inr ⟨last, rfl, gap⟩⟩
    | false =>
        refine ⟨before ++ [piece], [], (List.append_nil _).symm, .inl ⟨rfl, ?_⟩⟩
        rw [Piece.lexemes_append, ← List.append_assoc, ← List.cons_append,
          List.getLast?_append_of_ne_nil]
        · rw [Piece.lexemes_cons, Piece.lexemes_nil, List.append_nil, ends]
          exact gap
        · rw [Piece.lexemes_cons, takes.lexeme_eq]
          simp

/-- Up to a cut between two pieces of a tag, the pieces are read again. -/
theorem innerPieces_eq (tag : TagText) {kept rest : List Piece} (shape : tag.pieces = kept ++ rest) :
    Document.innerPieces ('<' :: (tag.written ++ lexemes kept)) = kept := by
  have reads := tag.reads
  have stops := tag.stops
  rw [shape] at reads
  rw [shape, Piece.lexemes_append, List.append_assoc] at stops
  refine reads.pause.1.behindName tag.word ?_
  cases text : lexemes kept with
  | nil => rfl
  | cons char more =>
      rw [text] at stops
      exact stops

/-- Pieces on the two sides of a cut are read as before when the last one in front ends there. -/
theorem exists_joined (tag : TagText) {kept own latter : List Piece}
    (shape : tag.pieces = kept ++ (own ++ latter))
    (apart : Document.staysApart ('<' :: (tag.written ++ lexemes kept))
      (lexemes latter ++ (tag.stop.mark ++ tag.behind)) = true) :
    ∃ joined : TagText, joined.written = tag.written ∧ joined.pieces = kept ++ latter ∧
      joined.stop = tag.stop ∧ joined.behind = tag.behind := by
  have reads := tag.reads
  have stops := tag.stops
  rw [shape] at reads
  rw [shape, Piece.lexemes_append, List.append_assoc] at stops
  unfold Document.staysApart at apart
  rw [tag.innerPieces_eq shape] at apart
  have closed : ∀ last ∈ kept.getLast?,
      last.closedBefore (lexemes latter ++ (tag.stop.mark ++ tag.behind)) = true := by
    intro last member
    rw [Option.mem_def.mp member] at apart
    exact apart
  have whole := (reads.pause.1.swap closed).append reads.pause.2.pause.2
  rw [← List.append_assoc, ← Piece.lexemes_append] at whole
  refine ⟨⟨tag.written, kept ++ latter, tag.stop, tag.behind, tag.named, tag.word, ?_, whole,
    tag.starts⟩, rfl, rfl, rfl, rfl⟩
  rw [Piece.lexemes_append, List.append_assoc]
  cases kept with
  | nil => simpa using apart
  | cons piece others =>
      obtain ⟨_, _, _, takes⟩ := reads.takes_of_mem (List.mem_append_left _ List.mem_cons_self)
      rw [Piece.lexemes_cons, takes.lexeme_eq] at stops ⊢
      exact stops

/-- A text right behind the name of a tag makes the name longer. -/
theorem exists_longName (tag : TagText) (rest : Text) :
    ∃ merged : TagText, merged.text = tag.written ++ rest ∧
      merged.written = tag.written ++ rest.takeWhile continuesName := by
  have named : (tag.written ++ rest).head?.any startsTagName = true := by
    have named := tag.named
    cases written : tag.written with
    | nil => rw [written] at named; cases named
    | cons char others => rw [written] at named; exact named
  obtain ⟨merged, text⟩ := exists_tagText named
  refine ⟨merged, text, ?_⟩
  rw [← merged.takeWhile_text, text, List.takeWhile_append_of_pos (List.all_eq_true.mp tag.word)]

/-- A text right behind a name among the pieces of a tag makes the name longer. -/
theorem exists_longWord (tag : TagText) {former latter : List Piece} {written lexeme : Text}
    (shape : tag.pieces = former ++ .token (.name written) lexeme :: latter) (rest : Text) :
    ∃ (merged : TagText) (lexeme' : Text) (others : List Piece),
      merged.text = tag.written ++ (lexemes former ++ (lexeme ++ rest)) ∧
      merged.pieces = former ++
        .token (.name (written ++ rest.takeWhile continuesName)) lexeme' :: others ∧
      '&' ∉ written ++ rest.takeWhile continuesName ∧
      ∀ piece ∈ others, ∃ char more next, Piece.Takes char more next piece := by
  have reads := tag.reads
  rw [shape] at reads
  obtain ⟨char, more, takes, _, _⟩ := reads.takes
  obtain ⟨rfl, rfl, starts, word⟩ := takes.of_name
  have solid : Text.isLayout char = false := by
    generalize lexemes latter ++ (tag.stop.mark ++ tag.behind) = next at takes
    cases takes with
    | name _ solid _ _ => exact solid
  have whole : ((char :: more) ++ rest.takeWhile continuesName).all continuesName = true := by
    rw [List.all_append, word]
    simp
  have word' : (more ++ rest.takeWhile continuesName).all continuesName = true := by
    rw [List.cons_append, List.all_cons, Bool.and_eq_true] at whole
    exact whole.2
  obtain ⟨others, rest', stop, further, starts'⟩ :=
    Piece.exists_reads (rest.dropWhile continuesName)
  obtain ⟨behind, rfl⟩ := starts'.exists_behind
  have read := Piece.Reads.piece (.name starts solid word'
    (Piece.stops_dropWhile continuesName rest)) rfl further
  rw [List.append_assoc, List.takeWhile_append_dropWhile] at read
  obtain ⟨merged, text, _, pieces, _, _⟩ :=
    tag.exists_exchanged shape read starts' (by simp [Piece.lexeme]) rfl
  refine ⟨merged, _, others, text, pieces, fun member => ?_, fun _ => further.takes_of_mem⟩
  cases List.all_eq_true.mp whole _ member

end TagText

namespace Document

/-- What is left of a tag when an attribute is dropped: the pieces in front of it without a blank
that goes with it, and the pieces behind it. -/
structure Drops (document : Document) (front : Text) (tag : TagText) (key : Text)
    (target : Attribute) (kept latter : List Piece) : Prop where
  pieces_eq : ∃ own, tag.pieces = kept ++ (own ++ latter)
  settled : (TagBody.entryRun none kept).2.any (·.2) = false
  entries_eq : tag.entries.eraseP (·.1.isWritten key) =
    TagBody.entries none kept ++ TagBody.entries none latter
  keptText_eq : document.keptText (tag.tagOf (Location.start.advance front)) target =
    '<' :: (tag.written ++ lexemes kept)
  textBehind_eq : document.textBehind target = lexemes latter ++ (tag.stop.mark ++ tag.behind)
  text_eq : (document.removeAttribute (tag.tagOf (Location.start.advance front)) key).2.text =
    front ++ '<' :: (tag.written ++ (lexemes kept ++
      (lexemes latter ++ (tag.stop.mark ++ tag.behind))))

variable {document : Document} {front key : Text} {tag : TagText} {target : Attribute}

/-- A blank that stands in front of an attribute is dropped with it. -/
theorem regionWithBlank_eq {tag : Tag} {ahead gap rest : Text}
    (text : document.buffer.history.text = front ++ (ahead ++ gap) ++ rest)
    (first : tag.region.first = Location.start.advance front)
    (target_first : target.region.first = Location.start.advance (front ++ (ahead ++ gap)))
    (blank : (gap = [] ∧ (ahead ++ gap).getLast?.any isGap = false) ∨
      ∃ char, gap = [char] ∧ isGap char = true) :
    document.regionWithBlank tag target =
      ⟨Location.start.advance (front ++ ahead), target.region.last⟩ := by
  have between : document.buffer.between tag.region.first target.region.first = ahead ++ gap := by
    rw [first, target_first]
    exact History.between_advance text
  have test : (fun char : Char => char == ' ' || char == '\t') = isGap := rfl
  unfold regionWithBlank
  dsimp only
  rw [between, test]
  rcases blank with ⟨rfl, solid⟩ | ⟨char, rfl, gap⟩
  · rw [solid, Bool.and_false, if_neg Bool.false_ne_true]
    rw [List.append_nil] at target_first
    rw [← target_first]
  · rw [← List.append_assoc, Location.advance_gap gap] at target_first
    have column := @Location.one_le_column_advance .start (front ++ ahead) (Nat.le_refl 1)
    rw [List.getLast?_concat, Option.any_some, gap, Bool.and_true, target_first,
      if_pos (decide_eq_true (by dsimp only; omega))]
    rfl

/-- An attribute that is found is dropped with at most one blank. -/
theorem exists_drops (shape : document.text = front ++ '<' :: tag.text)
    (found : (tag.tagOf (Location.start.advance front)).attribute? key = some target) :
    ∃ kept latter, document.Drops front tag key target kept latter := by
  obtain ⟨before, after, former, own, latter, written, lexeme, spans, entries, unstated, named⟩ :=
    TagText.exists_spans found
  obtain ⟨kept, gap, rfl, blank⟩ := tag.exists_gap spans.pieces_eq (by simp)
  -- The blank in front says nothing.
  have run : TagBody.entryRun none (kept ++ gap) = TagBody.entryRun none kept := by
    rw [TagBody.entryRun_append]
    rcases blank with ⟨rfl, _⟩ | ⟨char, rfl, _⟩ <;> simp [TagBody.entryRun]
  have pieces : tag.pieces = kept ++ ((gap ++ .token (.name written) lexeme :: own) ++ latter) := by
    rw [spans.pieces_eq]
    simp
  have text : document.buffer.history.text =
      (front ++ '<' :: (tag.written ++ lexemes kept)) ++
        lexemes (gap ++ .token (.name written) lexeme :: own) ++
          (lexemes latter ++ (tag.stop.mark ++ tag.behind)) := by
    have same : document.buffer.history.text = front ++ '<' :: tag.text := shape
    rw [same, TagText.text, pieces]
    simp
  have last : target.region.last =
      Location.start.advance ((front ++ '<' :: (tag.written ++ lexemes kept)) ++
        lexemes (gap ++ .token (.name written) lexeme :: own)) := by
    rw [spans.region_eq]
    simp [Location.advance_append]
  have region : document.regionWithBlank (tag.tagOf (Location.start.advance front)) target =
      ⟨Location.start.advance (front ++ '<' :: (tag.written ++ lexemes kept)),
        target.region.last⟩ := by
    have text' : document.buffer.history.text =
        front ++ ('<' :: (tag.written ++ lexemes kept) ++ lexemes gap) ++
          (lexemes (.token (.name written) lexeme :: own) ++
            (lexemes latter ++ (tag.stop.mark ++ tag.behind))) := by
      rw [text]
      simp
    refine regionWithBlank_eq text' rfl ?_ ?_
    · rw [spans.region_eq]
      simp [Location.advance_append]
    · rcases blank with ⟨rfl, solid⟩ | ⟨char, rfl, isBlank⟩
      · rw [List.append_nil] at solid
        refine .inl ⟨rfl, ?_⟩
        rw [Piece.lexemes_nil, List.append_nil]
        exact solid
      · exact .inr ⟨char, rfl, isBlank⟩
  refine ⟨kept, latter, ⟨_, pieces⟩, ?_, ?_, ?_, ?_, ?_⟩
  · rw [← run]
    exact TagBody.entryRun_settled spans.settled
  · rw [entries, Entry.eraseP_of_stated unstated named, spans.before_eq, spans.after_eq,
      TagBody.attributesOf_entry, TagBody.attributesOf_entry]
    unfold TagBody.entries
    rw [TagBody.state, Option.map_none, run]
  · have text' : document.buffer.history.text =
        front ++ '<' :: (tag.written ++ lexemes kept) ++
          (lexemes (gap ++ .token (.name written) lexeme :: own) ++
            (lexemes latter ++ (tag.stop.mark ++ tag.behind))) := by
      rw [text, List.append_assoc]
    unfold keptText
    rw [region]
    exact History.between_advance text'
  · unfold textBehind
    rw [last, History.index_advance text]
    exact (congrArg (List.drop _) text).trans List.drop_left
  · unfold removeAttribute
    rw [found]
    dsimp only
    rw [text_removed, region, last, History.text_replace_advance [] text]
    simp

/-- What stays of a tag is read as the element without the attribute when nothing in front of the cut
takes a value from behind it. -/
theorem Drops.entries_joined {kept latter : List Piece}
    (drops : document.Drops front tag key target kept latter) {joined : TagText}
    (pieces : joined.pieces = kept ++ latter) :
    joined.entries = tag.entries.eraseP (·.1.isWritten key) ↔
      takesValue ('<' :: (tag.written ++ lexemes kept))
        (lexemes latter ++ (tag.stop.mark ++ tag.behind)) = false := by
  obtain ⟨own, shape⟩ := drops.pieces_eq
  have reads := tag.reads
  rw [shape] at reads
  have behind := reads.pause.2.pause.2
  have front' : TagBody.entries none kept = (TagBody.entryRun none kept).1 ++
      TagBody.bareEntry (TagBody.entryRun none kept).2 := rfl
  unfold takesValue
  rw [tag.innerPieces_eq shape, TagBody.valueBehind_tagPieces behind tag.starts, drops.entries_eq,
    TagText.entries, pieces, TagBody.entries_append, front', List.append_assoc,
    List.append_cancel_left_eq]
  exact TagBody.entries_eq_bareEntry_append_iff (fun _ => behind.takes_of_mem) drops.settled

/-- A name in front of the cut that goes on behind it makes another tag of what stays. -/
theorem Drops.exists_merged {kept latter : List Piece}
    (drops : document.Drops front tag key target kept latter)
    (joins : joinsName ('<' :: (tag.written ++ lexemes kept))
      (lexemes latter ++ (tag.stop.mark ++ tag.behind)) = true) :
    ∃ merged : TagText,
      merged.text = tag.written ++ (lexemes kept ++
        (lexemes latter ++ (tag.stop.mark ++ tag.behind))) ∧
      (merged.name ≠ tag.name ∨ merged.entries ≠ tag.entries.eraseP (·.1.isWritten key)) := by
  obtain ⟨own, shape⟩ := drops.pieces_eq
  generalize lexemes latter ++ (tag.stop.mark ++ tag.behind) = rest at joins ⊢
  unfold joinsName at joins
  rw [tag.innerPieces_eq shape, Bool.and_eq_true] at joins
  obtain ⟨goesOn, last⟩ := joins
  have longer : rest.takeWhile continuesName ≠ [] := by
    cases rest with
    | nil => cases goesOn
    | cons char rest =>
        have continues : continuesName char = true := goesOn
        rw [List.takeWhile_cons, if_pos continues]
        exact List.cons_ne_nil _ _
  rcases List.eq_nil_or_concat' kept with rfl | ⟨former, piece, rfl⟩
  · -- The name of the tag goes on.
    obtain ⟨merged, text, written⟩ := tag.exists_longName rest
    refine ⟨merged, text, .inl fun same => longer ?_⟩
    have texts := congrArg Name.text same
    unfold TagText.name at texts
    rw [Name.text_ofText, Name.text_ofText, written] at texts
    exact List.append_right_eq_self.mp texts
  · -- The name of an attribute goes on, or a name that is a value.
    rw [List.getLast?_concat] at last
    obtain ⟨written, lexeme, rfl⟩ : ∃ written lexeme, piece = .token (.name written) lexeme := by
      cases piece with
      | token token lexeme =>
          cases token with
          | name written => exact ⟨written, lexeme, rfl⟩
          | _ => cases last
      | _ => cases last
    rw [List.append_assoc, List.singleton_append] at shape
    obtain ⟨merged, lexeme', others, text, pieces, plain, taken⟩ := tag.exists_longWord shape rest
    refine ⟨merged, ?_, .inr ?_⟩
    · rw [text]
      simp [Piece.lexeme]
    · rw [drops.entries_eq, TagText.entries, pieces, TagBody.entries_append,
        TagBody.entries_append, List.append_assoc, ne_eq, List.append_cancel_left_eq]
      exact TagBody.entries_name_ne plain longer taken _ _ _ _

/-- An attribute that an element states is dropped.  When the last piece in front of the cut ends
there, the element loses just the attribute, and all else says what it said, unless an attribute in
front of the cut takes a value from behind it.  When a name in front of the cut goes on behind it,
the element gets another name or says something else. -/
theorem restates_removeAttribute {former latter : List Element} {element : Element}
    (split : (Tree.parse document.text).elements = former ++ element :: latter)
    (found : element.attribute? key = some target) :
    (document.removeAttribute element.toTag key).1 = true ∧
      (staysApart (document.keptText element.toTag target) (document.textBehind target) = true →
        ((Tree.parse (document.removeAttribute element.toTag key).2.text).Restates former element
            latter (element.entries.eraseP (·.1.isWritten key)) ↔
          takesValue (document.keptText element.toTag target) (document.textBehind target) =
            false)) ∧
      (joinsName (document.keptText element.toTag target) (document.textBehind target) = true →
        ¬ (Tree.parse (document.removeAttribute element.toTag key).2.text).Restates former element
          latter (element.entries.eraseP (·.1.isWritten key))) := by
  obtain ⟨front, tag, events, shape, settled, formerEq, tagEq, latterEq⟩ := exists_element split
  have answers : (document.removeAttribute element.toTag key).1 = true := by
    unfold removeAttribute
    rw [found]
  rw [tagEq] at found answers ⊢
  obtain ⟨kept, others, drops⟩ := exists_drops shape found
  obtain ⟨own, pieces⟩ := drops.pieces_eq
  rw [drops.keptText_eq, drops.textBehind_eq, TagText.entries_tagOf]
  refine ⟨answers, fun apart => ?_, fun joins restates => ?_⟩
  · obtain ⟨joined, written, pieces', stop, behind⟩ := tag.exists_joined pieces apart
    have text := drops.text_eq
    have text' : joined.text = tag.written ++ (lexemes kept ++
        (lexemes others ++ (tag.stop.mark ++ tag.behind))) := by
      rw [TagText.text, written, pieces', stop, behind, Piece.lexemes_append, List.append_assoc]
    rw [← text'] at text
    have later : joined.later = tag.later := by
      unfold TagText.later TagText.name
      rw [written, stop, behind]
    rw [← drops.entries_joined pieces']
    constructor
    · rintro ⟨former', element', latter', elements, restated, saysFormer, _⟩
      rw [← restated.entries_eq, tagOf_of_elements settled formerEq text elements saysFormer,
        TagText.entries_tagOf]
    · intro same
      rw [← same]
      exact restates_of_revised settled formerEq tagEq latterEq text written later
  · obtain ⟨merged, text', differs⟩ := drops.exists_merged joins
    have text := drops.text_eq
    rw [← text'] at text
    obtain ⟨former', element', latter', elements, restated, saysFormer, _⟩ := restates
    have tagEq' := tagOf_of_elements settled formerEq text elements saysFormer
    have name := restated.name_eq
    have entries := restated.entries_eq
    rw [tagEq'] at name entries
    rw [tagEq] at name
    rw [TagText.entries_tagOf] at entries
    exact differs.elim (fun other => other name) fun other => other entries

/-- A page with two attributes that no blank parts. -/
def touchingDocument : Document := .ofText .standard .standard .standard "<a b=\"x\"c=\"y\">"

/-- Without the first attribute, the second one is a part of the name of the tag. -/
theorem restates_removeAttribute_of_touching :
    ∃ element target,
      (Tree.parse touchingDocument.text).elements = [] ++ element :: [] ∧
      element.attribute? "b" = some target ∧
      joinsName (touchingDocument.keptText element.toTag target)
        (touchingDocument.textBehind target) = true ∧
      (touchingDocument.removeAttribute element.toTag "b").1 = true ∧
      ¬ (Tree.parse (touchingDocument.removeAttribute element.toTag "b").2.text).Restates
        [] element [] (element.entries.eraseP (·.1.isWritten "b")) := by
  have merges : ((Tree.parse touchingDocument.text).elements.length == 1 &&
      (Tree.parse touchingDocument.text).elements.all fun element =>
        (element.attribute? "b").any fun target =>
          joinsName (touchingDocument.keptText element.toTag target)
            (touchingDocument.textBehind target)) = true := by
    decide +kernel
  obtain ⟨single, all⟩ := Bool.and_eq_true_iff.mp merges
  obtain ⟨element, elements⟩ := List.length_eq_one_iff.mp (eq_of_beq single)
  rw [elements, List.all_cons, List.all_nil, Bool.and_true] at all
  have split : (Tree.parse touchingDocument.text).elements = [] ++ element :: [] := elements
  obtain ⟨target, found, joins⟩ := (Option.any_eq_true _ _).mp all
  obtain ⟨answers, _, fails⟩ := restates_removeAttribute split found
  exact ⟨element, target, split, found, joins, answers, fails joins⟩

end Document

end PageDesigner
