import PageDesigner.Proofs.Markup.Sealing
import PageDesigner.Proofs.Markup.Written
import PageDesigner.Proofs.Text.Reference

/-!
# Tags that state attributes

The designer writes a tag as a name with attributes behind it, each behind a blank and
each with a quoted value.  Such a `StatedTag` is read back whatever stands behind it: its
attributes have the values that were given, and its characters are taken and no others
(`Event.sealed_single`, `Event.sealed_open`).
-/

namespace PageDesigner

open Piece (Writable Reads attributePieces blankPieces lexemes)

/-! ## Attributes one behind the other -/

namespace Piece

variable {attributes : List (Text × Text)}

/-- The pieces of attributes, each behind a blank. -/
def attributesPieces (attributes : List (Text × Text)) : List Piece :=
  attributes.flatMap fun stated =>
    blankPieces [' '] ++ attributePieces stated.1 (Reference.escapeAttribute stated.2)

theorem attributesPieces_cons (stated : Text × Text) (attributes : List (Text × Text)) :
    attributesPieces (stated :: attributes) =
      blankPieces [' '] ++ (attributePieces stated.1 (Reference.escapeAttribute stated.2) ++
        attributesPieces attributes) := by
  unfold attributesPieces
  rw [List.flatMap_cons, List.append_assoc]

/-- The characters of attributes, each behind a blank. -/
theorem lexemes_attributesPieces (attributes : List (Text × Text)) :
    lexemes (attributesPieces attributes) =
      attributes.flatMap fun stated => ' ' :: Component.attributeMarkup stated.1 stated.2 := by
  induction attributes with
  | nil => rfl
  | cons stated attributes ih =>
      rw [attributesPieces_cons, List.flatMap_cons, ← ih, Component.attributeMarkup_eq]
      simp

/-- A name can be written with any value. -/
theorem writable_of_word {key : Text} (starts : key.head?.any startsName = true)
    (word : key.all continuesName = true) (value : Text) :
    Writable key (Reference.escapeAttribute value) where
  starts := by
    cases key with
    | nil => cases starts
    | cons first more => exact ⟨first, more, rfl, starts⟩
  word := word
  inside := Text.all_bne_of_absent (Reference.quote_not_mem_escapeAttribute value)

theorem reads_attributesPieces
    (writable : ∀ stated ∈ attributes, Writable stated.1 (Reference.escapeAttribute stated.2))
    (rest : Text) :
    Reads (lexemes (attributesPieces attributes) ++ rest) (attributesPieces attributes) rest := by
  induction attributes with
  | nil => exact .done rest
  | cons stated attributes ih =>
      have later := ih fun other member => writable other (List.mem_cons_of_mem _ member)
      have here := (writable stated List.mem_cons_self).reads
        (lexemes (attributesPieces attributes) ++ rest)
      have whole := (@reads_blankPieces [' '] rfl _).append (here.append later)
      rw [attributesPieces_cons]
      simpa using whole

/-- Attributes that were written are read back. -/
theorem entryRun_attributesPieces (attributes : List (Text × Text)) :
    TagBody.entryRun none (attributesPieces attributes) =
      (attributes.map fun stated => (Name.ofText stated.1, stated.2), none) := by
  induction attributes with
  | nil => rfl
  | cons stated attributes ih =>
      rw [attributesPieces_cons, TagBody.entryRun_append, entryRun_blankPieces,
        TagBody.entryRun_append, entryRun_attributePieces rfl, ih,
        Reference.decode_escapeAttribute]
      rfl

end Piece

namespace TagBody

/-- The attributes that are written from a location on, each behind a blank. -/
def stated (location : Location) : List (Text × Text) → List Attribute
  | [] => []
  | (name, value) :: rest =>
      let first := location.next ' '
      let last := first.advance (Component.attributeMarkup name value)
      ⟨Name.ofText name, value, ⟨first, last⟩⟩ :: stated last rest

/-- What is stated has the names and values that were given. -/
theorem entries_stated (location : Location) (attributes : List (Text × Text)) :
    (stated location attributes).map Attribute.entry =
      attributes.map fun entry => (Name.ofText entry.1, entry.2) := by
  induction attributes generalizing location with
  | nil => rfl
  | cons entry attributes ih =>
      obtain ⟨name, value⟩ := entry
      rw [stated, List.map_cons, List.map_cons, ih]
      rfl

theorem run_append (location : Location) (pending : Option OpenAttribute)
    (first second : List Piece) :
    run location pending (first ++ second) =
      let before := run location pending first
      let after := run (location.advance (lexemes first)) before.2 second
      (before.1 ++ after.1, after.2) := by
  induction first generalizing location pending with
  | nil => rfl
  | cons piece first ih =>
      rw [List.cons_append, run, ih]
      simp [run, Location.advance_append]

/-- An attribute behind a blank is completed by its value. -/
theorem run_attributePieces (location : Location) (name content : Text) (rest : List Piece) :
    run location none (blankPieces [' '] ++ (attributePieces name content ++ rest)) =
      let first := location.next ' '
      let last := first.advance (lexemes (attributePieces name content))
      (⟨Name.ofText name, Reference.decode content, ⟨first, last⟩⟩ :: (run last none rest).1,
        (run last none rest).2) := by
  have place : (((location.next ' ').advance name).advance ['=']).advance
      ('"' :: content ++ ['"']) =
        (location.next ' ').advance (lexemes (attributePieces name content)) := by
    rw [Piece.lexemes_attributePieces, ← Location.advance_append, ← Location.advance_append]
    rfl
  dsimp only
  rw [← place]
  rfl

/-- Attributes that were written are read back where they stand. -/
theorem run_attributesPieces (location : Location) (attributes : List (Text × Text)) :
    run location none (Piece.attributesPieces attributes) = (stated location attributes, none) := by
  induction attributes generalizing location with
  | nil => rfl
  | cons entry attributes ih =>
      obtain ⟨name, value⟩ := entry
      rw [Piece.attributesPieces_cons, run_attributePieces]
      dsimp only
      rw [← Component.attributeMarkup_eq, ih, Reference.decode_escapeAttribute]
      rfl

end TagBody

/-- Whether an element of this name has markup between its tags. -/
def Event.holdsMarkup (name : Name) : Bool :=
  name.isQualified || !(voidNames ++ rawNames).contains name.base.lower

/-- A name without a namespace is its own local part. -/
theorem Name.base_ofText {written : Text} (unqualified : (ofText written).isQualified = false) :
    (ofText written).base = written := by
  have whole := text_ofText written
  cases shape : ofText written with
  | mk space base =>
      rw [shape] at unqualified whole
      cases space with
      | some space => cases unqualified
      | none => exact whole

/-! ## The tag -/

/-- A tag that states attributes, each of which can be written. -/
structure StatedTag where
  written : Text
  attributes : List (Text × Text)
  named : written.head?.any startsTagName = true
  word : written.all continuesName = true
  writable : ∀ stated ∈ attributes, Writable stated.1 (Reference.escapeAttribute stated.2)

namespace StatedTag

/-- The tag without what ends it. -/
def markup (tag : StatedTag) : Text :=
  '<' :: (tag.written ++
    tag.attributes.flatMap fun stated => ' ' :: Component.attributeMarkup stated.1 stated.2)

/-- What ends a tag that is a whole element, or one that is not. -/
def mark (single : Bool) : Text := if single then [' ', '/', '>'] else ['>']

/-- The pieces inside the tag. -/
def pieces (tag : StatedTag) (single : Bool) : List Piece :=
  Piece.attributesPieces tag.attributes ++ blankPieces (Text.onlyIf single [' '])

/-- How the tag is closed. -/
def stop (single : Bool) : TagStop := if single then .selfClose else .close

theorem lexemes_pieces (tag : StatedTag) (single : Bool) (rest : Text) :
    lexemes (tag.pieces single) ++ ((stop single).mark ++ rest) =
      lexemes (Piece.attributesPieces tag.attributes) ++ (mark single ++ rest) := by
  unfold pieces
  rw [Piece.lexemes_append, Piece.lexemes_blankPieces, List.append_assoc]
  cases single with
  | true => rfl
  | false => rfl

theorem reads_pieces (tag : StatedTag) (single : Bool) (rest : Text) :
    Reads (lexemes (tag.pieces single) ++ ((stop single).mark ++ rest)) (tag.pieces single)
      ((stop single).mark ++ rest) := by
  have blank : (Text.onlyIf single [' ']).all Text.isBlank = true := by
    cases single with
    | true => rfl
    | false => rfl
  have stated := Piece.reads_attributesPieces tag.writable
    (Text.onlyIf single [' '] ++ ((stop single).mark ++ rest))
  have whole := stated.append (Piece.reads_blankPieces blank _)
  unfold pieces
  rw [Piece.lexemes_append, Piece.lexemes_blankPieces, List.append_assoc]
  exact whole

/-- The name of the tag ends in front of its attributes. -/
theorem stops_pieces (tag : StatedTag) (single : Bool) (rest : Text) :
    (lexemes (tag.pieces single) ++ ((stop single).mark ++ rest)).head?.any continuesName =
      false := by
  rw [lexemes_pieces, Piece.lexemes_attributesPieces]
  cases tag.attributes with
  | nil =>
      cases single with
      | true => rfl
      | false => rfl
  | cons entry attributes => rfl

/-- The parts of the tag in front of a text. -/
def inFrontOf (tag : StatedTag) (single : Bool) (rest : Text) : TagText where
  written := tag.written
  pieces := tag.pieces single
  stop := stop single
  behind := rest
  named := tag.named
  word := tag.word
  stops := tag.stops_pieces single rest
  reads := tag.reads_pieces single rest
  starts := by
    cases single with
    | true => exact .selfClose rest
    | false => exact .close rest

/-- Whether a tag of this name that is not a whole element has markup in it. -/
def opens (tag : StatedTag) : Bool := Event.holdsMarkup (Name.ofText tag.written)

/-- Such a tag has none of the names that would keep markup out. -/
theorem apart_of_opens {tag : StatedTag} (opens : tag.opens = true) {names : List Text}
    (listed : names ⊆ Event.voidNames ++ Event.rawNames) :
    (!(Name.ofText tag.written).isQualified &&
      names.contains (Name.ofText tag.written).base.lower) = false := by
  unfold StatedTag.opens Event.holdsMarkup at opens
  rw [Bool.or_eq_true] at opens
  rcases opens with qualified | apart
  · rw [qualified]
    rfl
  · rw [Bool.not_eq_true', Bool.eq_false_iff] at apart
    rw [Bool.and_eq_false_iff]
    right
    rw [Bool.eq_false_iff]
    intro member
    exact apart (List.contains_iff_mem.mpr (listed (List.contains_iff_mem.mp member)))

variable (tag : StatedTag) (single : Bool) (rest : Text) (first : Location)

theorem opening_inFrontOf : (tag.inFrontOf single rest).opening = tag.markup ++ mark single := by
  have inside := tag.lexemes_pieces single []
  rw [Piece.lexemes_attributesPieces, List.append_nil, List.append_nil] at inside
  show '<' :: (tag.written ++ (lexemes (tag.pieces single) ++ (stop single).mark)) = _
  rw [inside]
  simp [markup]

theorem text_inFrontOf :
    '<' :: (tag.inFrontOf single rest).text = tag.markup ++ mark single ++ rest := by
  rw [TagText.text_eq_opening, opening_inFrontOf]
  rfl

theorem entries_inFrontOf :
    (tag.inFrontOf single rest).entries =
      tag.attributes.map fun stated => (Name.ofText stated.1, stated.2) := by
  unfold TagText.entries
  show TagBody.entries none (tag.pieces single) = _
  unfold pieces TagBody.entries
  rw [TagBody.entryRun_append, Piece.entryRun_attributesPieces, Piece.entryRun_blankPieces]
  simp [TagBody.bareEntry]

/-- The tag as it is read when it begins at a location. -/
def tagAt : Tag :=
  ⟨Name.ofText tag.written,
    TagBody.stated (first.advance ('<' :: tag.written)) tag.attributes,
    ⟨first, first.advance (tag.markup ++ mark single)⟩⟩

/-- The tag is read as it was written. -/
theorem tagOf_inFrontOf : (tag.inFrontOf single rest).tagOf first = tag.tagAt single first := by
  have attributes : TagBody.attributesOf (first.advance ('<' :: tag.written)) none
      (tag.pieces single) = TagBody.stated (first.advance ('<' :: tag.written)) tag.attributes := by
    unfold TagBody.attributesOf pieces
    rw [TagBody.run_append, TagBody.run_attributesPieces]
    cases single with
    | true => exact (List.append_nil _).trans (List.append_nil _)
    | false => exact (List.append_nil _).trans (List.append_nil _)
  unfold TagText.tagOf tagAt
  rw [opening_inFrontOf, ← attributes]
  rfl

end StatedTag

namespace Event

theorem malformed_inFrontOf (tag : StatedTag) (single : Bool) (rest : Text) (first : Location) :
    malformed first (tag.inFrontOf single rest) = [] := by
  cases single with
  | true => rfl
  | false => rfl

/-- What is read behind a tag and the text that it takes with it. -/
theorem eventsFrom_opening {first : Location} {tag : TagText} {kept back : Text}
    {events : List Event} (behind : tag.behind = kept ++ back)
    (here : openingTag first tag.text =
      (events, (tag.written ++ (lexemes tag.pieces ++ tag.stop.mark)).length + kept.length)) :
    eventsFrom first 0 ('<' :: tag.text) =
      events ++ eventsFrom (first.advance (tag.opening ++ kept)) 0 back := by
  have shape : tag.text =
      (tag.written ++ (lexemes tag.pieces ++ tag.stop.mark) ++ kept) ++ back := by
    simp [TagText.text, behind]
  have opening : tag.opening ++ kept =
      '<' :: (tag.written ++ (lexemes tag.pieces ++ tag.stop.mark) ++ kept) := rfl
  rw [eventsFrom_construct, construct_of_name tag.head?_text, here, eventsFrom_skip, opening]
  dsimp only
  rw [shape, ← List.length_append, List.take_left, List.drop_left]
  rfl

/-- What is read behind a tag that takes its own characters only. -/
theorem eventsFrom_tag {first : Location} {tag : TagText} {events : List Event}
    (here : openingTag first tag.text =
      (events, (tag.written ++ (lexemes tag.pieces ++ tag.stop.mark)).length)) :
    eventsFrom first 0 ('<' :: tag.text) =
      events ++ eventsFrom (first.advance tag.opening) 0 tag.behind := by
  have read := @eventsFrom_opening first tag [] tag.behind events rfl here
  rw [List.append_nil] at read
  exact read

variable (tag : StatedTag) (first : Location)

/-- A tag that is a whole element is read alike whatever stands behind it. -/
theorem sealed_single :
    Sealed first (tag.markup ++ StatedTag.mark true)
      [.leaf (.element (tag.tagAt true first) .selfClosing [])] := by
  intro rest
  have ends : (tag.inFrontOf true rest).stop = .selfClose := rfl
  rw [← tag.text_inFrontOf true rest, ← tag.opening_inFrontOf true rest]
  refine eventsFrom_tag ?_
  rw [openingTag_text, if_pos ends, malformed_inFrontOf, tag.tagOf_inFrontOf]
  rfl

/-- A tag that opens an element is read alike whatever stands behind it. -/
theorem sealed_open {tag : StatedTag} (opens : tag.opens = true) (first : Location) :
    Sealed first (tag.markup ++ StatedTag.mark false) [.opened (tag.tagAt false first)] := by
  intro rest
  have ends : (tag.inFrontOf false rest).stop ≠ .selfClose := fun same => nomatch same
  have named : (tag.inFrontOf false rest).name = Name.ofText tag.written := rfl
  have notVoid := StatedTag.apart_of_opens opens (List.subset_append_left voidNames rawNames)
  have notRaw := StatedTag.apart_of_opens opens (List.subset_append_right voidNames rawNames)
  rw [← tag.text_inFrontOf false rest, ← tag.opening_inFrontOf false rest]
  refine eventsFrom_tag ?_
  rw [openingTag_text, if_neg ends, named, notVoid, if_neg Bool.false_ne_true, notRaw,
    if_neg Bool.false_ne_true, malformed_inFrontOf, tag.tagOf_inFrontOf]
  rfl

/-- A closing tag takes the characters up to its end. -/
theorem construct_closing {inner : Text} (named : inner.head?.any startsTagName = true)
    (inside : '>' ∉ inner) (first : Location) (rest : Text) :
    construct first ('/' :: (inner ++ '>' :: rest)) =
      ([.closed (inner.takeWhile continuesName)
          ⟨first, first.advance ('<' :: '/' :: (inner ++ ['>']))⟩],
        ('/' :: (inner ++ ['>'])).length) := by
  have shape : '/' :: (inner ++ '>' :: rest) = '/' :: (inner ++ ['>']) ++ rest := by simp
  have written : (inner ++ '>' :: rest).takeWhile continuesName = inner.takeWhile continuesName :=
    Text.takeWhile_stop rfl inner rest
  have length : lengthThrough (1 + (inner.takeWhile continuesName).length) ">"
      ('/' :: (inner ++ '>' :: rest)) = ('/' :: (inner ++ ['>'])).length := by
    obtain ⟨more, split⟩ := List.takeWhile_prefix continuesName (l := inner)
    generalize inner.takeWhile continuesName = name at split
    subst split
    have absent : '>' ∉ more := fun member => inside (List.mem_append_right _ member)
    have cut : Text.cut? ">" (more ++ '>' :: rest) = some (more, rest) := by
      have found := @Text.cut?_plain '>' [] more absent ('>' :: rest)
      simpa [Text.cut?] using found
    unfold lengthThrough enclosed
    rw [Nat.add_comm 1, List.drop_succ_cons, List.append_assoc, List.drop_left, cut]
    simp
    omega
  have closes : construct first ('/' :: (inner ++ '>' :: rest)) =
      closingTag first ('/' :: (inner ++ '>' :: rest)) := by
    cases inner with
    | nil => cases named
    | cons char more =>
        have starts : startsTagName char = true := named
        simp [construct, List.isPrefixOf, starts]
  rw [closes]
  unfold closingTag
  dsimp only
  rw [List.drop_one, List.tail_cons, written, length]
  unfold regionOf
  rw [shape, List.take_left]

/-- A closing tag is read alike whatever stands behind it. -/
theorem sealed_closingTag {inner : Text} (named : inner.head?.any startsTagName = true)
    (inside : '>' ∉ inner) (first : Location) :
    Sealed first ('<' :: '/' :: (inner ++ ['>']))
      [.closed (inner.takeWhile continuesName)
        ⟨first, first.advance ('<' :: '/' :: (inner ++ ['>']))⟩] := by
  intro rest
  have shape : '/' :: (inner ++ '>' :: rest) = '/' :: (inner ++ ['>']) ++ rest := by simp
  have whole : '<' :: '/' :: (inner ++ ['>']) ++ rest = '<' :: '/' :: (inner ++ '>' :: rest) := by
    simp
  rw [whole, eventsFrom_construct, construct_closing named inside, eventsFrom_skip]
  dsimp only
  rw [shape, List.take_left, List.drop_left]
  rfl

/-- The closing tag of a tag. -/
theorem sealed_closing (tag : StatedTag) (first : Location) :
    Sealed first ('<' :: '/' :: (tag.written ++ ['>']))
      [.closed tag.written ⟨first, first.advance ('<' :: '/' :: (tag.written ++ ['>']))⟩] := by
  have closes := sealed_closingTag tag.named (absent_of_word tag.word rfl) first
  have own := @Piece.takeWhile_word continuesName tag.written [] tag.word rfl
  rw [List.append_nil] at own
  rw [own] at closes
  exact closes

/-- Text without a `<` brings nothing. -/
theorem sealed_plain {plain : Text} (absent : '<' ∉ plain) (first : Location) :
    Sealed first plain [] := by
  induction plain generalizing first with
  | nil => exact fun _ => rfl
  | cons char plain ih =>
      intro rest
      have differs : char ≠ '<' := fun same => absent (by simp [same])
      have later := ih (fun member => absent (List.mem_cons_of_mem _ member)) (first.next char) rest
      rw [List.cons_append, eventsFrom_plain differs, later]
      rfl

/-- Beginnings that are read alike whatever stands behind them can be joined. -/
theorem Sealed.append {first : Location} {front back : Text} {events later : List Event}
    (former : Sealed first front events) (latter : Sealed (first.advance front) back later) :
    Sealed first (front ++ back) (events ++ later) := by
  intro rest
  rw [List.append_assoc, former, latter, Location.advance_append, List.append_assoc]

end Event

end PageDesigner
