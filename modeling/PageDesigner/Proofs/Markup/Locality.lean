import PageDesigner.Proofs.Markup.Openings
import PageDesigner.Proofs.Markup.TagBody

/-!
# What stands in front of a tag

Markup is read from left to right, and every construct ends before the next tag
starts.  So the text in front of a tag is read in the same way whatever the tag
and the text behind it become: a construct that fits in front of a `<` is the
same in front of any other text that starts with `<` (`construct_local`), and a
beginning of constructs that fit is settled (`Settled`).
-/

namespace PageDesigner

namespace Text

/-- A mark that fits into the beginning of a text does not see the rest. -/
theorem isPrefixOf_append {mark front : Text} (fits : mark.length ≤ front.length) (rest : Text) :
    mark.isPrefixOf (front ++ rest) = mark.isPrefixOf front := by
  induction front generalizing mark with
  | nil =>
      have empty : mark = [] := List.eq_nil_of_length_eq_zero (Nat.le_zero.mp fits)
      simp [empty]
  | cons char front ih =>
      cases mark with
      | nil => rfl
      | cons head mark =>
          simp only [List.cons_append, List.isPrefixOf, ih (Nat.le_of_succ_le_succ fits)]

/-- A mark without the character behind a text does not see what follows that character. -/
theorem isPrefixOf_stop {mark : Text} {stop : Char} (absent : stop ∉ mark) (front rest rest' : Text) :
    mark.isPrefixOf (front ++ stop :: rest) = mark.isPrefixOf (front ++ stop :: rest') := by
  induction front generalizing mark with
  | nil =>
      cases mark with
      | nil => rfl
      | cons head mark =>
          have differs : (head == stop) = false := by
            simpa using fun same : head = stop => absent (same ▸ List.mem_cons_self)
          simp [List.isPrefixOf, differs]
  | cons char front ih =>
      cases mark with
      | nil => rfl
      | cons head mark =>
          simp only [List.cons_append, List.isPrefixOf,
            ih fun member => absent (List.mem_cons_of_mem _ member)]

/-- A mark that is found inside the beginning of a text is found there whatever follows. -/
theorem cut?_append {mark front rest content after : Text} (nonempty : mark ≠ [])
    (found : cut? mark (front ++ rest) = some (content, after))
    (fits : content.length + mark.length ≤ front.length) (rest' : Text) :
    ∃ after', cut? mark (front ++ rest') = some (content, after') := by
  induction front generalizing content with
  | nil =>
      have empty : mark.length = 0 := by simp only [List.length_nil] at fits; omega
      exact absurd (List.eq_nil_of_length_eq_zero empty) nonempty
  | cons char front ih =>
      rw [List.cons_append, cut?] at found ⊢
      have inside : mark.length ≤ (char :: front).length := by omega
      have same : mark.isPrefixOf (char :: (front ++ rest')) =
          mark.isPrefixOf (char :: (front ++ rest)) := by
        rw [← List.cons_append, ← List.cons_append, isPrefixOf_append inside,
          isPrefixOf_append inside]
      rw [same]
      split at found
      · next here =>
          obtain ⟨rfl, -⟩ := Prod.mk.inj (Option.some.inj found)
          rw [if_pos here]
          exact ⟨_, rfl⟩
      · next here =>
          obtain ⟨⟨later, behind⟩, cut, pair⟩ := Option.map_eq_some_iff.mp found
          obtain ⟨rfl, rfl⟩ := Prod.mk.inj pair
          obtain ⟨after', found'⟩ := ih cut (by simp only [List.length_cons] at fits; omega)
          rw [if_neg here, found']
          exact ⟨after', rfl⟩

theorem takeWhile_stop {continues : Char → Bool} {stop : Char} (stops : continues stop = false)
    (front rest : Text) :
    (front ++ stop :: rest).takeWhile continues = front.takeWhile continues := by
  induction front with
  | nil => simp [stops]
  | cons char front ih => simp [List.takeWhile_cons, ih]

end Text

theorem Piece.Reads.closed_last {text rest : Text} {pieces : List Piece}
    (reads : Piece.Reads text pieces rest) (follows : rest ≠ []) :
    ∀ last ∈ pieces.getLast?, last.closedBefore rest = true := by
  induction reads with
  | done => simp
  | @piece char more next rest piece pieces takes _ others ih =>
      cases pieces with
      | nil =>
          cases others
          simpa using takes.closed follows
      | cons follower pieces => simpa using ih follows

/-- Pieces may be exchanged for others whose text begins alike. -/
theorem Piece.Reads.exchange {text rest text' rest' : Text} {former latter pieces : List Piece}
    (reads : Piece.Reads text (former ++ latter) rest) (others : Piece.Reads text' pieces rest')
    (follows : Piece.lexemes latter ++ rest ≠ [])
    (head : text'.head? = (Piece.lexemes latter ++ rest).head?) :
    Piece.Reads (Piece.lexemes former ++ text') (former ++ pieces) rest' := by
  obtain ⟨front, _⟩ := reads.pause
  have closed : ∀ last ∈ former.getLast?, last.closedBefore text' = true := by
    intro last member
    rw [Piece.closedBefore_congr head]
    exact front.closed_last follows last member
  exact (front.swap closed).append others

/-- The inside of a tag that ends in front of a `<` does not see what follows it. -/
theorem TagBody.ofText_local {front rest : Text} {location : Location}
    (fits : (ofText location (front ++ '<' :: rest)).length ≤ front.length) (rest' : Text) :
    ofText location (front ++ '<' :: rest') = ofText location (front ++ '<' :: rest) := by
  obtain ⟨pieces, last, stop, reads, starts⟩ := Piece.exists_reads (front ++ '<' :: rest)
  have whole := ofText_eq reads starts location
  rw [whole] at fits ⊢
  have shape := reads.text_eq
  have marked : ∃ behind, last = stop.mark ++ behind := by cases starts <;> exact ⟨_, rfl⟩
  obtain ⟨behind, rfl⟩ := marked
  -- What the tag takes lies inside `front`.
  obtain ⟨middle, rfl⟩ : Piece.lexemes pieces ++ stop.mark <+: front :=
    List.prefix_of_prefix_length_le ⟨behind, by rw [shape, List.append_assoc]⟩
      (List.prefix_append _ _) fits
  have same : stop.mark ++ behind = stop.mark ++ (middle ++ '<' :: rest) := by
    refine (List.append_right_inj (Piece.lexemes pieces)).mp ?_
    rw [← shape]
    simp
  rw [same] at reads starts
  have starts' : stop.Starts (stop.mark ++ (middle ++ '<' :: rest')) := by
    cases stop with
    | close => exact .close _
    | selfClose => exact .selfClose _
    | interrupted =>
        cases middle with
        | nil => exact .interrupted _
        | cons char middle => cases starts; exact .interrupted _
    | exhausted =>
        exact absurd starts (by
          intro ended
          generalize hlast : TagStop.exhausted.mark ++ (middle ++ '<' :: rest) = last at ended
          cases ended
          simp [TagStop.mark] at hlast)
  have headEq : (stop.mark ++ (middle ++ '<' :: rest)).head? =
      (stop.mark ++ (middle ++ '<' :: rest')).head? := by
    cases stop <;> cases middle <;> rfl
  have closed : ∀ piece ∈ pieces.getLast?,
      piece.closedBefore (stop.mark ++ (middle ++ '<' :: rest')) = true := by
    intro piece member
    rw [← Piece.closedBefore_congr headEq]
    exact reads.closed_last (by simp) piece member
  have reads' := reads.swap closed
  rw [← ofText_eq reads' starts' location]
  simp

namespace Event

theorem enclosed_local {skip : Nat} {mark front rest : Text} (nonempty : mark ≠ [])
    (follows : rest ≠ []) (fits : (enclosed skip mark (front ++ rest)).length ≤ front.length)
    (rest' : Text) :
    enclosed skip mark (front ++ rest') = enclosed skip mark (front ++ rest) := by
  unfold enclosed at fits ⊢
  cases found : Text.cut? mark ((front ++ rest).drop skip) with
  | none =>
      rw [found] at fits
      have more : 0 < rest.length := List.length_pos_iff.mpr follows
      simp only [List.length_append] at fits
      omega
  | some parts =>
      obtain ⟨content, after⟩ := parts
      rw [found] at fits
      dsimp only at fits
      have within : skip ≤ front.length := by omega
      rw [List.drop_append_of_le_length within] at found ⊢
      obtain ⟨after', found'⟩ := Text.cut?_append nonempty found
        (by rw [List.length_drop]; omega) rest'
      rw [found']

theorem regionOf_local {front rest rest' : Text} {length : Nat} (first : Location)
    (fits : length ≤ front.length) :
    regionOf first (front ++ rest') length = regionOf first (front ++ rest) length := by
  unfold regionOf
  rw [List.take_append_of_le_length fits, List.take_append_of_le_length fits]

/-- What is enclosed lies behind the characters skipped. -/
theorem skip_le_enclosed {skip : Nat} {mark front rest : Text} (follows : rest ≠ [])
    (fits : (enclosed skip mark (front ++ rest)).length ≤ front.length) :
    skip ≤ (enclosed skip mark (front ++ rest)).length := by
  unfold enclosed at fits ⊢
  split
  · dsimp only
    omega
  · next unclosed =>
      have more : 0 < rest.length := List.length_pos_iff.mpr follows
      rw [unclosed] at fits
      simp only [List.length_append] at fits
      omega

theorem rawEnd?_local {base front rest : Text} {location : Location} {closing : Region}
    {taken : Nat} (follows : rest ≠ [])
    (found : rawEnd? base location (front ++ rest) = some (closing, taken))
    (fits : taken ≤ front.length) (rest' : Text) :
    rawEnd? base location (front ++ rest') = some (closing, taken) := by
  unfold rawEnd? lengthThrough at found ⊢
  dsimp only at found ⊢
  rw [Text.lower_append] at found ⊢
  split at found
  · cases found
  next content after cut =>
  obtain ⟨regionEq, lengthEq⟩ := Prod.mk.inj (Option.some.inj found)
  have within := lengthEq.symm ▸ fits
  have ends := enclosed_local (by decide) follows within rest'
  have behind := skip_le_enclosed follows within
  have contentFits : content.length ≤ front.length := by omega
  obtain ⟨after', cut'⟩ := Text.cut?_append (by simp) cut
    (by rw [Text.length_lower]; omega) (Text.lower rest')
  rw [cut']
  dsimp only
  rw [ends, lengthEq, ← regionEq, lengthEq]
  rw [List.take_append_of_le_length contentFits, List.take_append_of_le_length fits,
    List.take_append_of_le_length contentFits, List.take_append_of_le_length fits]

theorem openingTag_local {front rest : Text} {first : Location}
    (fits : (openingTag first (front ++ '<' :: rest)).2 ≤ front.length) (rest' : Text) :
    openingTag first (front ++ '<' :: rest') = openingTag first (front ++ '<' :: rest) := by
  have stops : continuesName '<' = false := by decide
  have within : (front.takeWhile continuesName).length ≤ front.length :=
    (List.takeWhile_prefix _).length_le
  have longer : front.length < (front ++ '<' :: rest).length := by simp
  have innerLength : (front.drop (front.takeWhile continuesName).length).length +
      (front.takeWhile continuesName).length = front.length := by
    rw [List.length_drop]
    omega
  unfold openingTag at fits ⊢
  dsimp only at fits ⊢
  rw [Text.takeWhile_stop stops] at fits
  rw [Text.takeWhile_stop stops, Text.takeWhile_stop stops]
  rw [List.drop_append_of_le_length within] at fits
  rw [List.drop_append_of_le_length within, List.drop_append_of_le_length within]
  generalize front.takeWhile continuesName = written at fits innerLength ⊢
  generalize front.drop written.length = inner at fits innerLength ⊢
  have bodyFits : (TagBody.ofText ((first.next '<').advance written) (inner ++ '<' :: rest)).length ≤
      inner.length := by
    split at fits
    · dsimp only at fits; omega
    split at fits
    · dsimp only at fits; omega
    split at fits
    · split at fits <;> dsimp only at fits <;> omega
    · dsimp only at fits; omega
  rw [TagBody.ofText_local bodyFits rest']
  generalize TagBody.ofText ((first.next '<').advance written) (inner ++ '<' :: rest) = body
    at fits bodyFits ⊢
  by_cases single : body.stop = .selfClose
  · rw [if_pos single, if_pos single]
  rw [if_neg single] at fits
  rw [if_neg single, if_neg single]
  split
  · rfl
  next isVoid =>
  rw [if_neg isVoid] at fits
  split
  · next isRaw =>
      rw [if_pos isRaw, List.drop_append_of_le_length bodyFits] at fits
      rw [List.drop_append_of_le_length bodyFits, List.drop_append_of_le_length bodyFits]
      cases found : rawEnd? (Name.ofText written).base.lower body.last
          (inner.drop body.length ++ '<' :: rest) with
      | none =>
          rw [found] at fits
          dsimp only at fits
          omega
      | some ending =>
          obtain ⟨closing, taken⟩ := ending
          rw [found] at fits
          dsimp only at fits
          rw [rawEnd?_local (by simp) found (by rw [List.length_drop]; omega) ('<' :: rest')]
  · rfl

theorem blockKind_local (front rest rest' : Text) :
    blockKind (front ++ '<' :: rest') = blockKind (front ++ '<' :: rest) := by
  cases front with
  | nil => rfl
  | cons char front =>
      unfold blockKind
      simp only [List.cons_append]
      split <;> simp_all

theorem comment_local {server : Bool} {skip : Nat} {mark front rest : Text} {first : Location}
    (nonempty : mark ≠ []) (follows : rest ≠ [])
    (fits : (comment server skip mark first (front ++ rest)).2 ≤ front.length) (rest' : Text) :
    comment server skip mark first (front ++ rest') =
      comment server skip mark first (front ++ rest) := by
  unfold comment at fits ⊢
  dsimp only at fits ⊢
  rw [enclosed_local nonempty follows fits rest', regionOf_local first fits]

theorem doctype_local {front rest : Text} {first : Location} (follows : rest ≠ [])
    (fits : (doctype first (front ++ rest)).2 ≤ front.length) (rest' : Text) :
    doctype first (front ++ rest') = doctype first (front ++ rest) := by
  unfold doctype at fits ⊢
  dsimp only at fits ⊢
  rw [enclosed_local (by decide) follows fits rest', regionOf_local first fits]

theorem directive_local {front rest : Text} {first : Location} (follows : rest ≠ [])
    (fits : (directive first (front ++ rest)).2 ≤ front.length) (rest' : Text) :
    directive first (front ++ rest') = directive first (front ++ rest) := by
  unfold directive at fits ⊢
  dsimp only at fits ⊢
  rw [enclosed_local (by decide) follows fits rest', regionOf_local first fits]

theorem block_local {char : Char} {front rest : Text} {first : Location}
    (fits : (block first (char :: front ++ '<' :: rest)).2 ≤ (char :: front).length)
    (rest' : Text) :
    block first (char :: front ++ '<' :: rest') = block first (char :: front ++ '<' :: rest) := by
  unfold block at fits ⊢
  dsimp only at fits ⊢
  have kinds : ∀ rest : Text, blockKind ((char :: front ++ '<' :: rest).drop 1) =
      blockKind (front ++ '<' :: rest) := fun _ => rfl
  rw [kinds] at fits
  rw [kinds, kinds, blockKind_local front rest rest']
  rw [enclosed_local (by decide) (by simp) fits ('<' :: rest')]
  rw [regionOf_local first fits]

theorem closingTag_local {char : Char} {front rest : Text} {first : Location}
    (fits : (closingTag first (char :: front ++ '<' :: rest)).2 ≤ (char :: front).length)
    (rest' : Text) :
    closingTag first (char :: front ++ '<' :: rest') =
      closingTag first (char :: front ++ '<' :: rest) := by
  have stops : continuesName '<' = false := by decide
  unfold closingTag lengthThrough at fits ⊢
  dsimp only at fits ⊢
  have names : ∀ rest : Text, ((char :: front ++ '<' :: rest).drop 1).takeWhile continuesName =
      front.takeWhile continuesName := fun rest => Text.takeWhile_stop stops front rest
  rw [names] at fits
  rw [names, names, enclosed_local (by decide) (by simp) fits ('<' :: rest'), regionOf_local first fits]

/-- A construct that ends in front of a `<` does not see what follows that `<`. -/
theorem construct_local {front rest : Text} {first : Location}
    (fits : (construct first (front ++ '<' :: rest)).2 ≤ front.length) (rest' : Text) :
    construct first (front ++ '<' :: rest') = construct first (front ++ '<' :: rest) := by
  have marks : ∀ mark : Text, '<' ∉ mark →
      mark.isPrefixOf (front ++ '<' :: rest') = mark.isPrefixOf (front ++ '<' :: rest) :=
    fun mark absent => Text.isPrefixOf_stop absent front rest' rest
  unfold construct at fits ⊢
  rw [marks "%--" (by decide), marks "%@" (by decide), marks "%" (by decide),
    marks "!--" (by decide), marks "!" (by decide)]
  split
  · next here =>
      rw [if_pos here] at fits
      exact comment_local (by decide) (by simp) fits ('<' :: rest')
  next notServer =>
  rw [if_neg notServer] at fits
  split
  · next here =>
      rw [if_pos here] at fits
      exact directive_local (by simp) fits ('<' :: rest')
  next notDirective =>
  rw [if_neg notDirective] at fits
  split
  · next here =>
      rw [if_pos here] at fits
      cases front with
      | nil => cases here
      | cons char front => exact block_local fits rest'
  next notBlock =>
  rw [if_neg notBlock] at fits
  split
  · next here =>
      rw [if_pos here] at fits
      exact comment_local (by decide) (by simp) fits ('<' :: rest')
  next notComment =>
  rw [if_neg notComment] at fits
  split
  · next here =>
      rw [if_pos here] at fits
      exact doctype_local (by simp) fits ('<' :: rest')
  next notDoctype =>
  rw [if_neg notDoctype] at fits
  cases front with
  | nil => rfl
  | cons char front =>
      have headEq : (front ++ '<' :: rest').head? = (front ++ '<' :: rest).head? := by
        cases front <;> rfl
      simp only [List.cons_append, headEq] at fits ⊢
      split
      · next here =>
          rw [if_pos here] at fits
          exact closingTag_local fits rest'
      next notClosing =>
      rw [if_neg notClosing] at fits
      split
      · next here =>
          rw [if_pos here] at fits
          exact @openingTag_local (char :: front) rest _ fits rest'
      · rfl

/-! ## Settled beginnings -/

/-- Skipping characters is reading the text behind them. -/
theorem eventsFrom_skip (location : Location) (skip : Nat) (text : Text) :
    eventsFrom location skip text =
      eventsFrom (location.advance (text.take skip)) 0 (text.drop skip) := by
  induction text generalizing location skip with
  | nil => cases skip <;> rfl
  | cons char rest ih =>
      cases skip with
      | zero => rfl
      | succ skip => exact ih (location.next char) skip

theorem eventsFrom_plain {char : Char} (plain : char ≠ '<') (location : Location) (rest : Text) :
    eventsFrom location 0 (char :: rest) = eventsFrom (location.next char) 0 rest := by
  rw [eventsFrom, if_neg plain]

theorem eventsFrom_construct (location : Location) (rest : Text) :
    eventsFrom location 0 ('<' :: rest) =
      (construct location rest).1 ++
        eventsFrom (location.next '<') (construct location rest).2 rest := by
  rw [eventsFrom, if_pos rfl]

/--
The beginning of a text that is read from the location gives these events, whatever
stands behind the `<` that follows it.
-/
def Settled (location : Location) (front : Text) (events : List Event) : Prop :=
  ∀ rest, eventsFrom location 0 (front ++ '<' :: rest) =
    events ++ eventsFrom (location.advance front) 0 ('<' :: rest)

theorem Settled.nil (location : Location) : Settled location [] [] := fun _ => rfl

theorem Settled.plain {location : Location} {char : Char} {front : Text} {events : List Event}
    (plain : char ≠ '<') (settled : Settled (location.next char) front events) :
    Settled location (char :: front) events := by
  intro rest
  rw [List.cons_append, eventsFrom_plain plain]
  exact settled rest

/-- A construct in front of a settled text is settled with it. -/
theorem Settled.construct {location : Location} {front rest : Text} {length : Nat}
    {events found : List Event} (fits : length ≤ front.length)
    (here : construct location (front ++ '<' :: rest) = (found, length))
    (settled : Settled ((location.next '<').advance (front.take length)) (front.drop length) events) :
    Settled location ('<' :: front) (found ++ events) := by
  intro rest'
  have same := @construct_local front rest location (by rw [here]; exact fits) rest'
  have reached : ((location.next '<').advance (front.take length)).advance (front.drop length) =
      location.advance ('<' :: front) := by
    rw [← Location.advance_append, List.take_append_drop, Location.advance_cons]
  have later := settled rest'
  rw [reached] at later
  rw [List.cons_append, eventsFrom_construct, same, here, eventsFrom_skip,
    List.take_append_of_le_length fits, List.drop_append_of_le_length fits, later,
    List.append_assoc]

/-! ## Opening tags -/

/-- A construct of the server tells what it is by its first characters. -/
theorem construct_percent (first : Location) (rest : Text) :
    construct first ('%' :: rest) =
      if ("--" : Text).isPrefixOf rest then comment true 3 "--%>" first ('%' :: rest)
      else if ("@" : Text).isPrefixOf rest then directive first ('%' :: rest)
      else block first ('%' :: rest) := rfl

/-- A declaration tells what it is by its first characters. -/
theorem construct_exclamation (first : Location) (rest : Text) :
    construct first ('!' :: rest) =
      if ("--" : Text).isPrefixOf rest then comment false 3 "-->" first ('!' :: rest)
      else doctype first ('!' :: rest) := rfl

/-- A construct without a mark is a tag, or nothing. -/
theorem construct_unmarked {char : Char} (percent : '%' ≠ char) (exclamation : '!' ≠ char)
    (first : Location) (rest : Text) :
    construct first (char :: rest) =
      if char = '/' ∧ rest.head?.any startsTagName then closingTag first (char :: rest)
      else if startsTagName char then openingTag first (char :: rest)
      else ([], 0) := by
  have percent' : ('%' == char) = false := beq_eq_false_iff_ne.mpr percent
  have exclamation' : ('!' == char) = false := beq_eq_false_iff_ne.mpr exclamation
  simp [construct, List.isPrefixOf, percent', exclamation']

theorem construct_of_name {text : Text} (named : text.head?.any startsTagName = true)
    (first : Location) : construct first text = openingTag first text := by
  cases text with
  | nil => cases named
  | cons char rest =>
      have starts : startsTagName char = true := named
      have differs : ∀ other, startsTagName other = false → other ≠ char := by
        rintro other plain rfl
        rw [starts] at plain
        cases plain
      rw [construct_unmarked (differs '%' (by decide)) (differs '!' (by decide)),
        if_neg fun both => differs '/' (by decide) both.1.symm, if_pos starts]

theorem openings_unlessClosed (part : Enclosed) (problem : Problem) (region : Region) :
    (unlessClosed part problem region).flatMap openings = [] := by
  unfold unlessClosed
  split <;> rfl

/-- The tag that an opening tag at the location is. -/
def tagAt (first : Location) (text : Text) : Tag :=
  let written := text.takeWhile continuesName
  let body := TagBody.ofText ((first.next '<').advance written) (text.drop written.length)
  ⟨Name.ofText written, body.attributes, ⟨first, body.last⟩⟩

/-- Whether the opening tag is the whole element. -/
def isWholeAt (first : Location) (text : Text) : Bool :=
  let written := text.takeWhile continuesName
  let body := TagBody.ofText ((first.next '<').advance written) (text.drop written.length)
  let name := Name.ofText written
  decide (body.stop = .selfClose) || (!name.isQualified && voidNames.contains name.base.lower)

theorem openings_behind {events later : List Event} (quiet : events.flatMap openings = []) :
    (events ++ later).flatMap openings = later.flatMap openings := by
  rw [List.flatMap_append, quiet, List.nil_append]

/-- An opening tag brings itself and no other. -/
theorem openings_openingTag (first : Location) (text : Text) :
    (openingTag first text).1.flatMap openings = [(tagAt first text, isWholeAt first text)] := by
  unfold openingTag tagAt isWholeAt
  dsimp only
  generalize TagBody.ofText _ _ = body
  have leaf : ∀ tag ending, Node.openings [.element tag ending []] =
      [(tag, decide (ending = .void) || decide (ending = .selfClosing))] := by
    intro tag ending
    rfl
  by_cases single : body.stop = .selfClose
  · rw [if_pos single]
    refine (openings_behind ?_).trans (by simp [openings, leaf, single])
    split <;> rfl
  rw [if_neg single]
  by_cases isVoid : (!(Name.ofText (text.takeWhile continuesName)).isQualified &&
      voidNames.contains (Name.ofText (text.takeWhile continuesName)).base.lower) = true
  · rw [if_pos isVoid]
    refine (openings_behind ?_).trans ?_
    · split <;> rfl
    · rw [isVoid]
      simp [openings, leaf]
  rw [if_neg isVoid]
  have open' : (!(Name.ofText (text.takeWhile continuesName)).isQualified &&
      voidNames.contains (Name.ofText (text.takeWhile continuesName)).base.lower) = false := by
    simpa using isVoid
  rw [open']
  split
  · split
    · refine (openings_behind ?_).trans (by simp [openings, leaf, single])
      split <;> rfl
    · refine (openings_behind ?_).trans (by simp [openings, leaf, single])
      split <;> rfl
  · refine (openings_behind ?_).trans (by simp [openings, single])
    split <;> rfl

/-- A construct brings no opening tag unless it is one. -/
theorem openings_construct (first : Location) (text : Text) :
    (construct first text).1.flatMap openings = [] ∨ text.head?.any startsTagName = true := by
  by_cases named : text.head?.any startsTagName = true
  · exact .inr named
  left
  unfold construct comment directive block doctype
  dsimp only
  split
  · rw [List.flatMap_append, openings_unlessClosed]; rfl
  split
  · rw [List.flatMap_append, openings_unlessClosed]; rfl
  split
  · rw [List.flatMap_append, openings_unlessClosed]; rfl
  split
  · rw [List.flatMap_append, openings_unlessClosed]; rfl
  split
  · rfl
  split
  · rfl
  split
  · rfl
  · next plain => rw [if_neg (by simpa using named)]; rfl

end Event

end PageDesigner
