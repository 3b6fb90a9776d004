import PageDesigner.Proofs.Markup.Extent

/-!
# Where a text can be cut

The beginning of a text in front of a `<` is sealed when it is read alike whatever comes to
stand behind it (`Event.Sealed`).  Only what stands right at its end can keep it from that:
a tag that the `<` cuts short, which is an error, and a `<` or `</` that starts nothing
(`Event.Begins.sealed`).
-/

namespace PageDesigner

namespace Text

/-- What a text starts with is seen in the text, if it ends there. -/
theorem takeWhile_append_of_lt {continues : Char → Bool} {front rest : Text}
    (ends : ((front ++ rest).takeWhile continues).length < front.length) (rest' : Text) :
    (front ++ rest').takeWhile continues = (front ++ rest).takeWhile continues := by
  induction front with
  | nil => cases ends
  | cons char front ih =>
      rw [List.cons_append, List.takeWhile_cons] at ends ⊢
      rw [List.cons_append, List.takeWhile_cons]
      split at ends
      · next goesOn =>
          rw [if_pos goesOn, if_pos goesOn, ih (Nat.lt_of_succ_lt_succ ends)]
      · next stops => rw [if_neg stops, if_neg stops]

end Text

/-- A tag stands in front of another text in the same way, if the character right behind it stays.
-/
theorem TagText.exists_inFrontOf (tag : TagText) (nonempty : tag.behind ≠ []) {rest : Text}
    (head : (tag.stop.mark ++ rest).head? = (tag.stop.mark ++ tag.behind).head?) :
    ∃ tag' : TagText, tag'.written = tag.written ∧ tag'.pieces = tag.pieces ∧
      tag'.stop = tag.stop ∧ tag'.behind = rest := by
  have reads : Piece.Reads (Piece.lexemes tag.pieces ++ (tag.stop.mark ++ rest)) tag.pieces
      (tag.stop.mark ++ rest) := by
    refine tag.reads.swap fun piece last => ?_
    rw [Piece.closedBefore_congr head]
    exact tag.reads.closed_last (by simp [nonempty]) piece last
  have stops : (Piece.lexemes tag.pieces ++ (tag.stop.mark ++ rest)).head?.any continuesName =
      false := by
    have stops := tag.stops
    rw [List.head?_append] at stops ⊢
    rw [head]
    exact stops
  have starts : tag.stop.Starts (tag.stop.mark ++ rest) := by
    have starts := tag.starts
    cases stop : tag.stop with
    | close => exact .close _
    | selfClose => exact .selfClose _
    | interrupted =>
        rw [stop] at head starts
        generalize TagStop.interrupted.mark ++ tag.behind = old at head starts
        cases starts
        rw [Piece.head?_eq_some_cons head]
        exact .interrupted _
    | exhausted =>
        rw [stop] at starts
        generalize hold : TagStop.exhausted.mark ++ tag.behind = old at starts
        cases starts
        exact absurd (List.append_eq_nil_iff.mp hold).2 nonempty
  exact ⟨⟨tag.written, tag.pieces, tag.stop, rest, tag.named, tag.word, stops, reads, starts⟩,
    rfl, rfl, rfl, rfl⟩

namespace Event

/-- The beginning of a text that gives these events, whatever stands behind it. -/
def Sealed (location : Location) (front : Text) (events : List Event) : Prop :=
  ∀ rest, eventsFrom location 0 (front ++ rest) =
    events ++ eventsFrom (location.advance front) 0 rest

/-! ## Constructs that end -/

variable {first : Location} {part follow : Text}

/-- What is enclosed in a part of a text has both its marks there. -/
theorem marks_le_enclosed {skip : Nat} {mark : Text} (follows : follow ≠ [])
    (fits : (enclosed skip mark (part ++ follow)).length ≤ part.length) :
    skip + mark.length ≤ (enclosed skip mark (part ++ follow)).length := by
  unfold enclosed at fits ⊢
  split
  · dsimp only
    omega
  · next unclosed =>
      have more : 0 < follow.length := List.length_pos_iff.mpr follows
      rw [unclosed] at fits
      simp only [List.length_append] at fits
      omega

/-- The kind of a block is seen from the character behind its mark. -/
theorem blockKind_cons (char : Char) (rest rest' : Text) :
    blockKind (char :: rest') = blockKind (char :: rest) := by
  unfold blockKind
  split <;> simp_all

theorem one_le_blockKind (text : Text) : 1 ≤ (blockKind text).2 := by
  unfold blockKind
  split <;> decide

theorem block_sealed (follows : follow ≠ []) (marked : part ≠ [])
    (ends : (block first (part ++ follow)).2 = part.length) (follow' : Text) :
    3 ≤ part.length ∧ block first (part ++ follow') = block first (part ++ follow) := by
  cases part with
  | nil => exact absurd rfl marked
  | cons char inner =>
      have fits := Nat.le_of_eq ends
      unfold block at fits ⊢
      dsimp only at fits ⊢
      have long := marks_le_enclosed follows fits
      have kind := one_le_blockKind ((char :: inner ++ follow).drop 1)
      have length : 3 ≤ (char :: inner).length := by
        have two : ("%>" : Text).length = 2 := rfl
        omega
      refine ⟨length, ?_⟩
      cases inner with
      | nil => simp at length
      | cons second inner =>
          have same : blockKind ((char :: second :: inner ++ follow').drop 1) =
              blockKind ((char :: second :: inner ++ follow).drop 1) := blockKind_cons second _ _
          rw [same, enclosed_local (by decide) follows fits follow', regionOf_local first fits]

theorem closingTag_sealed (follows : follow ≠ []) (marked : part ≠ [])
    (ends : (closingTag first (part ++ follow)).2 = part.length) (follow' : Text) :
    2 ≤ part.length ∧ closingTag first (part ++ follow') = closingTag first (part ++ follow) := by
  cases part with
  | nil => exact absurd rfl marked
  | cons char inner =>
      have fits := Nat.le_of_eq ends
      unfold closingTag lengthThrough at fits ⊢
      dsimp only at fits ⊢
      have long := marks_le_enclosed follows fits
      have one : (">" : Text).length = 1 := rfl
      have drops : ∀ rest : Text, (char :: inner ++ rest).drop 1 = inner ++ rest := fun _ => rfl
      rw [drops] at fits long ⊢
      rw [drops]
      have short : ((inner ++ follow).takeWhile continuesName).length < inner.length := by
        rw [List.length_cons] at fits
        omega
      refine ⟨by omega, ?_⟩
      rw [Text.takeWhile_append_of_lt short follow',
        enclosed_local (by decide) follows fits follow', regionOf_local first fits]

/-- A tag that is cut short is an error that ends where the tag does. -/
theorem problem_of_cutShort {tag : TagText} (first : Location)
    (cutShort : tag.stop ≠ .close ∧ tag.stop ≠ .selfClose) :
    ∃ diagnostic, .problem diagnostic ∈ (openingTag first tag.text).1 ∧
      diagnostic.severity = .error ∧ diagnostic.region.last = first.advance tag.opening := by
  refine ⟨⟨.error, .malformedTag tag.written first "expected `>`", (tag.tagOf first).region⟩, ?_,
    rfl, rfl⟩
  have reported : .problem ⟨.error, .malformedTag tag.written first "expected `>`",
      (tag.tagOf first).region⟩ ∈ malformed first tag := by
    unfold malformed
    split
    · next closes => exact absurd closes cutShort.1
    · next closes => exact absurd closes cutShort.2
    · exact List.mem_singleton_self _
  rw [openingTag_text]
  split
  · exact List.mem_append_left _ reported
  split
  · exact List.mem_append_left _ reported
  split
  · split <;> exact List.mem_append_left _ reported
  · exact List.mem_append_left _ reported

/-- A tag is the same element in front of another text, if what it holds stands in front of it. -/
theorem openingTag_behind {tag tag' : TagText} {kept : Text} (first : Location)
    (written : tag'.written = tag.written) (pieces : tag'.pieces = tag.pieces)
    (stop : tag'.stop = tag.stop) (behind : tag.behind = kept ++ follow) {follow' : Text}
    (behind' : tag'.behind = kept ++ follow') (follows : follow ≠ [])
    (taken : takenBehind tag.name tag.stop tag.behind = kept.length) :
    openingTag first tag'.text = openingTag first tag.text := by
  have tagEq : tag'.tagOf first = tag.tagOf first := by
    unfold TagText.tagOf TagText.opening TagText.name
    rw [written, pieces, stop]
  have opening : tag'.opening = tag.opening := by
    unfold TagText.opening
    rw [written, pieces, stop]
  have malformedEq : malformed first tag' = malformed first tag := by
    unfold malformed
    rw [written, stop, tagEq]
  have name : tag'.name = tag.name := congrArg Name.ofText written
  unfold takenBehind at taken
  dsimp only at taken
  rw [openingTag_text, openingTag_text, tagEq, opening, malformedEq, name, written, pieces, stop,
    behind, behind']
  split
  · rfl
  next notSingle =>
  rw [if_neg notSingle] at taken
  split
  · rfl
  next notVoid =>
  rw [if_neg notVoid] at taken
  split
  · next isRaw =>
      rw [if_pos isRaw, behind] at taken
      have lengthEq := length_rawEnd? tag.name.base.lower (first.advance tag.opening)
        (kept ++ follow)
      cases found : rawEnd? tag.name.base.lower (first.advance tag.opening) (kept ++ follow) with
      | none =>
          have more := List.length_pos_iff.mpr follows
          rw [found] at lengthEq
          rw [← lengthEq] at taken
          simp only [Option.map_none, Option.getD_none, List.length_append] at taken
          omega
      | some ending =>
          obtain ⟨closing, length⟩ := ending
          rw [found] at lengthEq
          rw [← lengthEq] at taken
          rw [rawEnd?_local follows found (Nat.le_of_eq taken) follow']
  · rfl

/-- An opening tag that ends in a part of a text is the same in front of another text, unless it is
cut short there. -/
theorem openingTag_sealed (named : (part ++ follow).head?.any startsTagName = true)
    (follows : follow ≠ []) (ends : (openingTag first (part ++ follow)).2 = part.length)
    {follow' : Text} (apart : follow'.head? = follow.head? ∨
      ∀ diagnostic, .problem diagnostic ∈ (openingTag first (part ++ follow)).1 →
        diagnostic.severity = .error → diagnostic.region.last ≠ first.advance ('<' :: part)) :
    openingTag first (part ++ follow') = openingTag first (part ++ follow) := by
  obtain ⟨tag, text_eq⟩ := TagText.exists_tagText named
  have shape : tag.text = (tag.written ++ (Piece.lexemes tag.pieces ++ tag.stop.mark)) ++
      tag.behind := by
    simp [TagText.text]
  rw [← text_eq] at ends apart ⊢
  rw [length_openingTag] at ends
  obtain ⟨kept, partEq, behind⟩ : ∃ kept,
      part = tag.written ++ (Piece.lexemes tag.pieces ++ tag.stop.mark) ++ kept ∧
        tag.behind = kept ++ follow := by
    rcases List.append_eq_append_iff.mp (shape.symm.trans text_eq) with
      ⟨kept, partEq, behind⟩ | ⟨kept, ownEq, followEq⟩
    · exact ⟨kept, partEq, behind⟩
    · have longer := congrArg List.length ownEq
      simp only [List.length_append] at longer ends
      obtain rfl : kept = [] := List.eq_nil_of_length_eq_zero (by omega)
      rw [List.append_nil] at ownEq
      exact ⟨[], by rw [List.append_nil, ownEq], followEq.symm⟩
  have taken : takenBehind tag.name tag.stop tag.behind = kept.length := by
    rw [partEq] at ends
    simp only [List.length_append] at ends
    omega
  -- The character behind the tag itself stays, unless the tag is cut short where the part ends.
  have head : (tag.stop.mark ++ (kept ++ follow')).head? = (tag.stop.mark ++ tag.behind).head? := by
    rw [behind]
    by_cases cutShort : tag.stop ≠ .close ∧ tag.stop ≠ .selfClose
    · cases kept with
      | cons char kept => cases tag.stop <;> rfl
      | nil =>
          rcases apart with same | whole
          · cases tag.stop <;> simp [TagStop.mark, same]
          · obtain ⟨diagnostic, reported, isError, last⟩ := problem_of_cutShort first cutShort
            refine absurd ?_ (whole diagnostic reported isError)
            rw [last, partEq, List.append_nil]
            rfl
    · cases stop : tag.stop with
      | close => rfl
      | selfClose => rfl
      | interrupted => exact absurd ⟨by simp [stop], by simp [stop]⟩ cutShort
      | exhausted => exact absurd ⟨by simp [stop], by simp [stop]⟩ cutShort
  obtain ⟨tag', written, pieces, stop, behind'⟩ :=
    tag.exists_inFrontOf (by simp [behind, follows]) head
  have text' : part ++ follow' = tag'.text := by
    rw [partEq]
    simp [TagText.text, written, pieces, stop, behind']
  rw [text']
  exact openingTag_behind first written pieces stop behind behind' follows taken

/-- A document type that ends in a part of a text is told from a comment by that part. -/
theorem doctype_marked (follows : follow ≠ []) (marked : ("!" : Text).isPrefixOf part = true)
    (ends : (doctype first (part ++ follow)).2 = part.length) :
    3 ≤ part.length ∨ part = ['!', '>'] := by
  have fits := Nat.le_of_eq ends
  unfold doctype at fits ends
  dsimp only at fits ends
  have long := marks_le_enclosed follows fits
  have one : (">" : Text).length = 1 := rfl
  rcases part with _ | ⟨char, _ | ⟨second, _ | ⟨third, part⟩⟩⟩
  · cases marked
  · simp only [List.length_cons, List.length_nil] at ends
    omega
  · right
    obtain ⟨_, shape⟩ := List.isPrefixOf_iff_prefix.mp marked
    have isMark : '!' = char := (List.cons.inj shape).1
    unfold enclosed at ends
    cases cut : Text.cut? ">" (([char, second] ++ follow).drop 1) with
    | none =>
        rw [cut] at ends
        have more := List.length_pos_iff.mpr follows
        simp only [List.length_append, List.length_cons, List.length_nil] at ends
        omega
    | some parts =>
        obtain ⟨content, behind⟩ := parts
        rw [cut] at ends
        simp only [List.length_cons, List.length_nil, one] at ends
        obtain rfl : content = [] := List.eq_nil_of_length_eq_zero (by omega)
        have shape : second :: follow = '>' :: behind := Text.append_of_cut? cut
        rw [← isMark, (List.cons.inj shape).1]
  · left
    simp

section

variable {char : Char} {inner follow' : Text} {found : List Event}

/-- A mark that fits into a part of a text is seen there. -/
theorem mark_sealed {mark : Text} (fits : mark.length ≤ inner.length) :
    mark.isPrefixOf (inner ++ follow') = mark.isPrefixOf (inner ++ follow) :=
  (Text.isPrefixOf_append fits _).trans (Text.isPrefixOf_append fits _).symm

theorem construct_sealed_percent (follows : follow ≠ [])
    (here : construct first ('%' :: inner ++ follow) = (found, ('%' :: inner).length)) :
    construct first ('%' :: inner ++ follow') = (found, ('%' :: inner).length) := by
  have marks : ∀ mark : Text, mark.length < ('%' :: inner).length →
      mark.isPrefixOf (inner ++ follow') = mark.isPrefixOf (inner ++ follow) :=
    fun _ fits => mark_sealed (Nat.le_of_lt_succ fits)
  rw [List.cons_append, construct_percent] at here ⊢
  split at here
  · next isComment =>
      have fits : (comment true 3 "--%>" first ('%' :: inner ++ follow)).2 ≤
          ('%' :: inner).length := Nat.le_of_eq (congrArg Prod.snd here)
      have long : 3 + 4 ≤ ('%' :: inner).length :=
        Nat.le_trans (marks_le_enclosed follows fits) fits
      rw [marks "--" (show 2 < _ by omega), if_pos isComment, ← here]
      exact comment_local (by decide) follows fits follow'
  next notComment =>
  split at here
  · next isDirective =>
      have fits : (directive first ('%' :: inner ++ follow)).2 ≤ ('%' :: inner).length :=
        Nat.le_of_eq (congrArg Prod.snd here)
      have long : 2 + 2 ≤ ('%' :: inner).length :=
        Nat.le_trans (marks_le_enclosed follows fits) fits
      rw [marks "--" (show 2 < _ by omega), if_neg notComment, marks "@" (show 1 < _ by omega),
        if_pos isDirective, ← here]
      exact directive_local follows fits follow'
  · next notDirective =>
      obtain ⟨three, same⟩ :=
        block_sealed follows (List.cons_ne_nil '%' inner) (congrArg Prod.snd here) follow'
      rw [marks "--" (show 2 < _ by omega), if_neg notComment, marks "@" (show 1 < _ by omega),
        if_neg notDirective]
      exact same.trans here

theorem construct_sealed_exclamation (follows : follow ≠ [])
    (here : construct first ('!' :: inner ++ follow) = (found, ('!' :: inner).length)) :
    construct first ('!' :: inner ++ follow') = (found, ('!' :: inner).length) := by
  rw [List.cons_append, construct_exclamation] at here ⊢
  split at here
  · next isComment =>
      have fits : (comment false 3 "-->" first ('!' :: inner ++ follow)).2 ≤
          ('!' :: inner).length := Nat.le_of_eq (congrArg Prod.snd here)
      have long : 3 + 3 ≤ ('!' :: inner).length :=
        Nat.le_trans (marks_le_enclosed follows fits) fits
      have two : ("--" : Text).length ≤ inner.length := by
        rw [List.length_cons] at long
        exact show 2 ≤ inner.length by omega
      rw [mark_sealed two, if_pos isComment, ← here]
      exact comment_local (by decide) follows fits follow'
  · next notComment =>
      have ends : (doctype first ('!' :: inner ++ follow)).2 = ('!' :: inner).length :=
        congrArg Prod.snd here
      have notComment' : ¬ ("--" : Text).isPrefixOf (inner ++ follow') = true := by
        rcases doctype_marked follows rfl ends with three | same
        · have two : ("--" : Text).length ≤ inner.length := Nat.le_of_succ_le_succ three
          rw [mark_sealed two]
          exact notComment
        · obtain rfl := (List.cons.inj same).2
          exact fun starts => by cases starts
      rw [if_neg notComment', ← here]
      exact doctype_local follows (Nat.le_of_eq ends) follow'

theorem construct_sealed_unmarked (percent : '%' ≠ char) (exclamation : '!' ≠ char)
    (follows : follow ≠ [])
    (here : construct first (char :: inner ++ follow) = (found, (char :: inner).length))
    (apart : follow'.head? = follow.head? ∨
      ∀ diagnostic, .problem diagnostic ∈ found → diagnostic.severity = .error →
        diagnostic.region.last ≠ first.advance ('<' :: char :: inner)) :
    construct first (char :: inner ++ follow') = (found, (char :: inner).length) := by
  rw [List.cons_append, construct_unmarked percent exclamation] at here ⊢
  split at here
  · next closing =>
      obtain ⟨two, same⟩ := @closingTag_sealed first (char :: inner) follow follows
        (List.cons_ne_nil _ _) (congrArg Prod.snd here) follow'
      have named : (inner ++ follow').head?.any startsTagName = true := by
        cases inner with
        | nil => simp at two
        | cons second inner => exact closing.2
      rw [if_pos ⟨closing.1, named⟩]
      exact same.trans here
  next notClosing =>
  split at here
  · next named =>
      have notSlash : ¬ (char = '/' ∧ (inner ++ follow').head?.any startsTagName = true) := by
        rintro ⟨rfl, -⟩
        cases named
      rw [if_neg notSlash, if_pos named]
      refine (@openingTag_sealed first (char :: inner) follow named follows
        (congrArg Prod.snd here) follow' (apart.imp_right fun whole => ?_)).trans here
      rw [show openingTag first (char :: inner ++ follow) = (found, _) from here]
      exact whole
  · cases congrArg Prod.snd here

end

/-- A construct that ends in a part of a text is the same in front of another text, unless it is
a tag that is cut short there. -/
theorem construct_sealed {found : List Event} (nonempty : part ≠ []) (follows : follow ≠ [])
    (here : construct first (part ++ follow) = (found, part.length)) {follow' : Text}
    (apart : follow'.head? = follow.head? ∨
      ∀ diagnostic, .problem diagnostic ∈ found → diagnostic.severity = .error →
        diagnostic.region.last ≠ first.advance ('<' :: part)) :
    construct first (part ++ follow') = (found, part.length) := by
  cases part with
  | nil => exact absurd rfl nonempty
  | cons char inner =>
      by_cases percent : '%' = char
      · subst percent
        exact construct_sealed_percent follows here
      by_cases exclamation : '!' = char
      · subst exclamation
        exact construct_sealed_exclamation follows here
      exact construct_sealed_unmarked percent exclamation follows here apart

/-! ## Beginnings -/

theorem one_le_enclosed {skip : Nat} {mark text : Text} (positive : 0 < skip)
    (nonempty : text ≠ []) : 0 < (enclosed skip mark text).length := by
  unfold enclosed
  split
  · dsimp only
    omega
  · exact List.length_pos_iff.mpr nonempty

/-- A construct takes characters unless none starts behind the `<`. -/
theorem construct_stray {char : Char} {inner : Text} {found : List Event}
    (here : construct first (char :: inner) = (found, 0)) :
    found = [] ∧ '%' ≠ char ∧ '!' ≠ char ∧ startsTagName char = false ∧
      ¬ (char = '/' ∧ inner.head?.any startsTagName = true) := by
  have takes : ∀ skip mark, 0 < skip → (enclosed skip mark (char :: inner)).length ≠ 0 :=
    fun skip mark positive => Nat.ne_of_gt (one_le_enclosed positive (by simp))
  by_cases percent : '%' = char
  · subst percent
    rw [construct_percent] at here
    split at here
    · exact absurd (congrArg Prod.snd here) (takes 3 _ (by decide))
    split at here
    · exact absurd (congrArg Prod.snd here) (takes 2 _ (by decide))
    · exact absurd (congrArg Prod.snd here) (takes _ _ (one_le_blockKind _))
  by_cases exclamation : '!' = char
  · subst exclamation
    rw [construct_exclamation] at here
    split at here
    · exact absurd (congrArg Prod.snd here) (takes 3 _ (by decide))
    · exact absurd (congrArg Prod.snd here) (takes 1 _ (by decide))
  rw [construct_unmarked percent exclamation] at here
  split at here
  · exact absurd (congrArg Prod.snd here) (takes _ _ (by omega))
  next notClosing =>
  split at here
  · next named =>
      obtain ⟨tag, text_eq⟩ := @TagText.exists_tagText (char :: inner) named
      have ends := congrArg Prod.snd here
      rw [← text_eq, length_openingTag] at ends
      have nameless : tag.written = [] := List.eq_nil_of_length_eq_zero (by
        simp only [List.length_append] at ends
        omega)
      have starts := tag.named
      rw [nameless] at starts
      cases starts
  · next unnamed =>
      exact ⟨(congrArg Prod.fst here).symm, percent, exclamation, Bool.eq_false_iff.mpr unnamed,
        notClosing⟩

/-- A `<` that starts nothing in front of two characters starts nothing whatever follows these, and
neither does one in front of a single character that is no `/`. -/
theorem construct_unstarted {front : Text} {found : List Event} (some' : front ≠ [])
    (open' : front ≠ ['/']) (here : construct first (front ++ follow) = (found, 0))
    (follow' : Text) : construct first (front ++ follow') = (found, 0) := by
  cases front with
  | nil => exact absurd rfl some'
  | cons char inner =>
      obtain ⟨rfl, percent, exclamation, unnamed, notClosing⟩ := construct_stray here
      have notClosing' : ¬ (char = '/' ∧ (inner ++ follow').head?.any startsTagName = true) := by
        rintro ⟨rfl, named⟩
        cases inner with
        | nil => exact open' rfl
        | cons second inner => exact notClosing ⟨rfl, named⟩
      rw [List.cons_append, construct_unmarked percent exclamation, if_neg notClosing',
        if_neg (Bool.eq_false_iff.mp unnamed)]

/-- A beginning whose end nothing can lengthen: no tag is cut short there, and no `<` or `</` waits
for a name. -/
structure Ends (location : Location) (front : Text) (events : List Event) : Prop where
  started : ¬ (['<'] <:+ front)
  closing : ¬ (['<', '/'] <:+ front)
  whole : ∀ diagnostic, .problem diagnostic ∈ events → diagnostic.severity = .error →
    diagnostic.region.last ≠ location.advance front

/-- What begins a text is read alike in front of every text, if nothing can lengthen its end. -/
theorem Begins.sealed {location : Location} {front : Text} {events : List Event}
    (begins : Begins location front events) (ends : Ends location front events) :
    Sealed location front events := by
  induction begins with
  | nil location => exact fun rest => rfl
  | @plain location char front events plain _ ih =>
      intro rest
      have later := ih ⟨fun suffix => ends.started (suffix.trans (List.suffix_cons _ _)),
        fun suffix => ends.closing (suffix.trans (List.suffix_cons _ _)), ends.whole⟩ rest
      rw [List.cons_append, eventsFrom_plain plain, later]
      rfl
  | @construct location part front rest found events here _ ih =>
      intro rest'
      have behind : front <:+ '<' :: (part ++ front) :=
        (List.suffix_append part front).trans (List.suffix_cons _ _)
      have reached : ((location.next '<').advance part).advance front =
          location.advance ('<' :: (part ++ front)) := by
        rw [Location.advance_cons, Location.advance_append]
      have later := ih ⟨fun suffix => ends.started (suffix.trans behind),
        fun suffix => ends.closing (suffix.trans behind), fun diagnostic member isError => by
          rw [reached]
          exact ends.whole diagnostic (List.mem_append_right _ member) isError⟩ rest'
      have same : Event.construct location (part ++ (front ++ rest')) = (found, part.length) := by
        cases part with
        | nil =>
            refine @construct_unstarted _ _ front found ?_ ?_ here rest'
            · rintro rfl
              exact ends.started (List.suffix_refl _)
            · rintro rfl
              exact ends.closing (List.suffix_refl _)
        | cons char inner =>
            refine construct_sealed (List.cons_ne_nil _ _) (by simp) here ?_
            cases front with
            | cons head front => exact .inl rfl
            | nil =>
                right
                intro diagnostic member isError
                have apart := ends.whole diagnostic (List.mem_append_left _ member) isError
                rw [List.append_nil] at apart
                exact apart
      rw [List.cons_append, List.append_assoc, eventsFrom_construct, same, eventsFrom_skip,
        List.take_left, List.drop_left, later, reached, List.append_assoc]

end Event

/-! ## What is reported -/

namespace Growth

theorem diagnostics_add (growth : Growth) (node : Node) :
    (growth.add node).diagnostics = growth.diagnostics := by
  unfold add
  split <;> rfl

theorem diagnostics_endInnermost (growth : Growth) (ending : TagEnd) :
    (growth.endInnermost ending).diagnostics = growth.diagnostics := by
  unfold endInnermost
  split
  · rfl
  · exact diagnostics_add _ _

theorem subset_abandon (count : Nat) (growth : Growth) :
    growth.diagnostics ⊆ (abandon count growth).diagnostics := by
  induction count generalizing growth with
  | zero => exact List.Subset.refl _
  | succ count ih =>
      refine List.Subset.trans ?_ (ih growth.abandonInnermost)
      unfold abandonInnermost
      split
      · exact List.Subset.refl _
      · rw [diagnostics_endInnermost]
        exact List.subset_append_left _ _

theorem subset_take (growth : Growth) (event : Event) :
    growth.diagnostics ⊆ (growth.take event).diagnostics := by
  cases event with
  | problem diagnostic => exact List.subset_append_left _ _
  | leaf node => exact (diagnostics_add growth node).symm ▸ List.Subset.refl _
  | opened tag => exact List.Subset.refl _
  | closed name region =>
      unfold take
      dsimp only
      split
      · rw [diagnostics_endInnermost]
        exact subset_abandon _ growth
      · exact List.subset_append_left _ _

/-- A problem that is read stays among the diagnostics. -/
theorem mem_diagnostics_foldl {events : List Event} {diagnostic : Diagnostic} (growth : Growth)
    (reported : diagnostic ∈ growth.diagnostics ∨ .problem diagnostic ∈ events) :
    diagnostic ∈ (events.foldl take growth).diagnostics := by
  induction events generalizing growth with
  | nil => exact reported.elim id (absurd · List.not_mem_nil)
  | cons event events ih =>
      refine ih (growth.take event) ?_
      rcases reported with earlier | member
      · exact .inl (subset_take growth event earlier)
      · rcases List.mem_cons.mp member with rfl | later
        · exact .inl (List.mem_append_right _ (List.mem_singleton_self _))
        · exact .inr later

end Growth

/-- What is wrong with a text is a diagnostic of its tree. -/
theorem Tree.mem_diagnostics {text : Text} {diagnostic : Diagnostic}
    (member : .problem diagnostic ∈ Event.events text) :
    diagnostic ∈ (Tree.parse text).diagnostics :=
  Growth.subset_abandon _ _ (Growth.mem_diagnostics_foldl _ (.inr member))

end PageDesigner
