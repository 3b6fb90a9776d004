import PageDesigner.Proofs.Markup.Constructs

/-!
# The text of an opening tag

An opening tag in a text is a name, pieces, what ends the tag, and the text behind
it.  `TagText` holds these parts with the facts that make them readable, so a text
put together from such parts reads back as the same tag (`tagAt_text`), and every
opening tag has such parts (`exists_tagText`).
-/

namespace PageDesigner

/-- The parts of a text behind a `<` that starts an opening tag. -/
structure TagText where
  written : Text
  pieces : List Piece
  stop : TagStop
  behind : Text
  named : written.head?.any startsTagName = true
  word : written.all continuesName = true
  stops : (Piece.lexemes pieces ++ (stop.mark ++ behind)).head?.any continuesName = false
  reads : Piece.Reads (Piece.lexemes pieces ++ (stop.mark ++ behind)) pieces (stop.mark ++ behind)
  starts : stop.Starts (stop.mark ++ behind)

theorem TagStop.Starts.exists_behind {stop : TagStop} {rest : Text} (starts : stop.Starts rest) :
    ∃ behind, rest = stop.mark ++ behind := by
  cases starts <;> exact ⟨_, rfl⟩

theorem continuesName_of_startsTagName {char : Char} (starts : startsTagName char = true) :
    continuesName char = true := by
  simp only [startsTagName, Bool.or_eq_true] at starts
  rcases starts with alpha | underscore
  · simp [continuesName, Char.isAlphanum, alpha]
  · simp [continuesName, underscore]

namespace TagText

/-- The whole text behind the `<`. -/
def text (tag : TagText) : Text :=
  tag.written ++ (Piece.lexemes tag.pieces ++ (tag.stop.mark ++ tag.behind))

/-- The characters of the tag itself, from its `<` on. -/
def opening (tag : TagText) : Text :=
  '<' :: (tag.written ++ (Piece.lexemes tag.pieces ++ tag.stop.mark))

/-- The name of the tag. -/
def name (tag : TagText) : Name := Name.ofText tag.written

/-- The names and values that the tag states. -/
def entries (tag : TagText) : List Entry := TagBody.entries none tag.pieces

/-- Whether the tag is the whole element. -/
def isWhole (tag : TagText) : Bool :=
  decide (tag.stop = .selfClose) ||
    (!tag.name.isQualified && Event.voidNames.contains tag.name.base.lower)

/-- The tag when its `<` stands at the location. -/
def tagOf (tag : TagText) (first : Location) : Tag :=
  ⟨tag.name, TagBody.attributesOf ((first.next '<').advance tag.written) none tag.pieces,
    ⟨first, first.advance tag.opening⟩⟩

theorem text_eq_opening (tag : TagText) : '<' :: tag.text = tag.opening ++ tag.behind := by
  simp [text, opening]

@[simp]
theorem takeWhile_text (tag : TagText) : tag.text.takeWhile continuesName = tag.written :=
  Piece.takeWhile_word tag.word tag.stops

theorem head?_text (tag : TagText) : tag.text.head?.any startsTagName = true := by
  have named := tag.named
  unfold text
  cases written : tag.written with
  | nil => rw [written] at named; cases named
  | cons char rest => rw [written] at named; exact named

/-- A name that starts a text is not empty. -/
theorem head?_takeWhile {text : Text} (named : text.head?.any startsTagName = true) :
    (text.takeWhile continuesName).head?.any startsTagName = true := by
  cases text with
  | nil => cases named
  | cons char text =>
      rw [List.takeWhile_cons, continuesName_of_startsTagName named]
      exact named

/-- Every opening tag has these parts. -/
theorem exists_tagText {text : Text} (named : text.head?.any startsTagName = true) :
    ∃ tag : TagText, tag.text = text := by
  obtain ⟨pieces, rest, stop, reads, starts⟩ :=
    Piece.exists_reads (text.dropWhile continuesName)
  obtain ⟨behind, rfl⟩ := starts.exists_behind
  have inner := reads.text_eq
  refine ⟨⟨text.takeWhile continuesName, pieces, stop, behind, head?_takeWhile named, by simp, ?_,
    ?_, starts⟩, ?_⟩
  · rw [← inner]
    exact Piece.stops_dropWhile continuesName text
  · rw [← inner]
    exact reads
  · exact (congrArg (text.takeWhile continuesName ++ ·) inner.symm).trans
      List.takeWhile_append_dropWhile

theorem ofText_inner (tag : TagText) (location : Location) :
    TagBody.ofText location (tag.text.drop tag.written.length) =
      ⟨TagBody.attributesOf location none tag.pieces, tag.stop,
        location.advance (Piece.lexemes tag.pieces ++ tag.stop.mark),
        (Piece.lexemes tag.pieces ++ tag.stop.mark).length⟩ := by
  unfold text
  rw [List.drop_left]
  exact TagBody.ofText_eq tag.reads tag.starts location

/-- A text put together from the parts of a tag reads back as the tag. -/
theorem tagAt_text (tag : TagText) (first : Location) :
    Event.tagAt first tag.text = tag.tagOf first := by
  unfold Event.tagAt tagOf
  dsimp only
  rw [takeWhile_text, ofText_inner]
  simp [opening, name, Location.advance_append]

theorem isWholeAt_text (tag : TagText) (first : Location) :
    Event.isWholeAt first tag.text = tag.isWhole := by
  unfold Event.isWholeAt isWhole
  dsimp only
  rw [takeWhile_text, ofText_inner]
  rfl

theorem entries_tagOf (tag : TagText) (first : Location) :
    (tag.tagOf first).entries = tag.entries :=
  TagBody.attributesOf_entry _ none tag.pieces

end TagText

/-- Every opening tag of a text stands behind a beginning of whole constructs. -/
theorem Tree.exists_tagText {text : Text} {before after : List Opening} {opening : Opening}
    (found : (Tree.parse text).openings = before ++ opening :: after) :
    ∃ (front : Text) (tag : TagText) (events : List Event),
      text = front ++ '<' :: tag.text ∧ Event.Begins .start front events ∧
      events.flatMap Event.openings = before ∧
      opening = (tag.tagOf (Location.start.advance front), tag.isWhole) ∧
      (Event.eventsFrom (Location.start.advance (front ++ ['<']))
        (Event.openingTag (Location.start.advance front) tag.text).2
        tag.text).flatMap Event.openings = after := by
  rw [Tree.openings_parse] at found
  obtain ⟨front, rest, events, shape, begins, brings, named, same, remaining⟩ :=
    Event.exists_opening found
  obtain ⟨tag, rfl⟩ := TagText.exists_tagText named
  rw [TagText.tagAt_text, TagText.isWholeAt_text] at same
  exact ⟨front, tag, events, shape, begins, brings, same, remaining⟩

/-- A tag behind a settled beginning is the next opening tag of the text. -/
theorem Tree.openings_settled {front : Text} {events : List Event}
    (settled : Event.Settled .start front events) (tag : TagText) :
    (Tree.parse (front ++ '<' :: tag.text)).openings =
      events.flatMap Event.openings ++
        (tag.tagOf (Location.start.advance front), tag.isWhole) ::
          (Event.eventsFrom (Location.start.advance (front ++ ['<']))
            (Event.openingTag (Location.start.advance front) tag.text).2
            tag.text).flatMap Event.openings := by
  rw [Tree.openings_parse, Event.events, settled, List.flatMap_append,
    Event.eventsFrom_construct, List.flatMap_append,
    Event.construct_of_name tag.head?_text, Event.openings_openingTag, TagText.tagAt_text,
    TagText.isWholeAt_text, Location.advance_append]
  rfl

end PageDesigner
