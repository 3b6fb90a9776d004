import PageDesigner.Document.TagEdit
import PageDesigner.Proofs.Buffer.Position
import PageDesigner.Proofs.Markup.TagText

/-!
# What an edited tag becomes

Giving a tag an attribute changes the text only behind the `<` of the tag.  A new
attribute goes behind the rest of the tag, in front of what closes it
(`text_insertAttribute`); an attribute that is there already is replaced from its
name to its value (`text_updateAttribute`).
-/

namespace PageDesigner

namespace Text

/-- A text is its trimmed form with blanks behind it. -/
theorem exists_blanks (text : Text) :
    ∃ blanks, text = text.trimEnd ++ blanks ∧ blanks.all isBlank = true ∧
      text.trimEnd.getLast?.any isBlank = false := by
  refine ⟨(text.reverse.takeWhile isBlank).reverse, ?_, by simp, ?_⟩
  · unfold trimEnd
    rw [← List.reverse_append, List.takeWhile_append_dropWhile, List.reverse_reverse]
  · unfold trimEnd
    rw [List.getLast?_reverse]
    exact Piece.stops_dropWhile isBlank text.reverse

theorem dropEnd?_eq_some {suffix text inside : Text} :
    dropEnd? suffix text = some inside ↔ text = inside ++ suffix := by
  unfold dropEnd?
  constructor
  · intro found
    split at found
    · next ends =>
        obtain ⟨front, rfl⟩ := List.isSuffixOf_iff_suffix.mp ends
        rw [← Option.some.inj found]
        simp
    · cases found
  · rintro rfl
    rw [if_pos (List.isSuffixOf_iff_suffix.mpr (List.suffix_append _ _))]
    simp

end Text

namespace Buffer

@[simp]
theorem text_notify (buffer : Buffer) : buffer.notify.text = buffer.text := by
  unfold Buffer.notify
  split <;> rfl

@[simp]
theorem text_commit (buffer : Buffer) (history : History) (tracker : Tracker) :
    (buffer.commit history tracker).text = history.text :=
  text_notify _

end Buffer

namespace Document

/-- What `splitTag` takes off the end of a tag: a mark with blanks behind it. -/
theorem splitTag_cases (opening : Text) :
    ∃ inside mark blanks : Text,
      opening = inside ++ (mark ++ blanks) ∧ blanks.all Text.isBlank = true ∧
      ((mark = ['/', '>'] ∧ splitTag opening = (inside, true)) ∨
        (mark = ['>'] ∧ inside.getLast? ≠ some '/' ∧ splitTag opening = (inside, false)) ∨
        (mark = [] ∧ inside.getLast? ≠ some '>' ∧ inside.getLast?.any Text.isBlank = false ∧
          splitTag opening = (inside, false))) := by
  obtain ⟨blanks, shape, areBlank, trimmed⟩ := Text.exists_blanks opening
  unfold splitTag
  dsimp only
  cases single : Text.dropEnd? "/>" opening.trimEnd with
  | some inside =>
      have ends := Text.dropEnd?_eq_some.mp single
      refine ⟨inside, "/>", blanks, ?_, areBlank, .inl ⟨rfl, rfl⟩⟩
      rw [← List.append_assoc, ← ends]
      exact shape
  | none =>
      cases closed : Text.dropEnd? ">" opening.trimEnd with
      | some inside =>
          have ends := Text.dropEnd?_eq_some.mp closed
          refine ⟨inside, ">", blanks, ?_, areBlank, .inr (.inl ⟨rfl, ?_, rfl⟩)⟩
          · rw [← List.append_assoc, ← ends]
            exact shape
          · intro slash
            obtain ⟨front, rfl⟩ := List.getLast?_eq_some_iff.mp slash
            have both : Text.dropEnd? "/>" opening.trimEnd = some front :=
              Text.dropEnd?_eq_some.mpr (by rw [ends]; simp)
            rw [single] at both
            cases both
      | none =>
          refine ⟨opening.trimEnd, [], blanks, shape, areBlank, .inr (.inr ⟨rfl, ?_, trimmed, rfl⟩)⟩
          intro close
          obtain ⟨front, ends⟩ := List.getLast?_eq_some_iff.mp close
          have one : Text.dropEnd? ">" opening.trimEnd = some front :=
            Text.dropEnd?_eq_some.mpr ends
          rw [closed] at one
          cases one

/-- What is left of a tag starts with the `<` of the tag. -/
theorem inside_of_splitTag {rest inside mark blanks : Text}
    (shape : '<' :: rest = inside ++ (mark ++ blanks)) (areBlank : blanks.all Text.isBlank = true)
    (marked : mark = ['/', '>'] ∨ mark = ['>'] ∨ mark = []) : ∃ tail, inside = '<' :: tail := by
  cases inside with
  | cons head tail =>
      obtain ⟨rfl, -⟩ := List.cons.inj shape
      exact ⟨tail, rfl⟩
  | nil =>
      exfalso
      rcases marked with rfl | rfl | rfl
      · cases shape
      · cases shape
      · cases blanks with
        | nil => cases shape
        | cons head blanks =>
            obtain ⟨rfl, -⟩ := List.cons.inj shape
            cases areBlank

/-! ## Texts after an edit -/

theorem text_inserted (document : Document) (location : Location) (inserted : Text) :
    (document.edited (.insert location inserted)).text =
      (document.buffer.history.insert location inserted).text :=
  Buffer.text_commit _ _ _

theorem text_replaced (document : Document) (region : Region) (inserted : Text) :
    (document.edited (.replace region inserted)).text =
      (document.buffer.history.replace region inserted).text :=
  Buffer.text_commit _ _ _

theorem text_removed (document : Document) (region : Region) :
    (document.edited (.remove region)).text =
      (document.buffer.history.replace region []).text :=
  Buffer.text_commit _ _ _

/-- The region of a tag holds the characters of the tag. -/
theorem regionText_tagOf {document : Document} {front : Text} {tag : TagText}
    (shape : document.text = front ++ '<' :: tag.text) :
    document.regionText (tag.tagOf (Location.start.advance front)).region = tag.opening := by
  have split : document.buffer.history.text = front ++ tag.opening ++ tag.behind := by
    rw [List.append_assoc, ← tag.text_eq_opening]
    exact shape
  unfold regionText TagText.tagOf
  dsimp only
  rw [← Location.advance_append]
  exact History.between_advance split

/-- The blank in front of a new attribute, the attribute, and the blank behind it. -/
def insertion (inside : Text) (selfClosing : Bool) (key value : Text) : Text :=
  Text.onlyIf (!endsInBlank inside) " " ++ Component.attributeMarkup key value ++
    Text.onlyIf selfClosing " "

/-- A new attribute goes behind the rest of its tag. -/
theorem text_insertAttribute {document : Document} {front inside closing : Text} {tag : TagText}
    {selfClosing : Bool} (shape : document.text = front ++ '<' :: tag.text)
    (split : splitTag tag.opening = (inside, selfClosing))
    (whole : tag.opening = inside ++ closing) (key value : Text) :
    (document.insertAttribute (tag.tagOf (Location.start.advance front)) key value).text =
      front ++ (inside ++ (insertion inside selfClosing key value ++ (closing ++ tag.behind))) := by
  have parts : document.buffer.history.text = (front ++ inside) ++ (closing ++ tag.behind) := by
    have same : document.buffer.history.text = front ++ '<' :: tag.text := shape
    rw [same, tag.text_eq_opening, whole]
    simp
  unfold insertAttribute
  rw [regionText_tagOf shape, split]
  dsimp only
  rw [text_inserted]
  have place : (tag.tagOf (Location.start.advance front)).region.first.advance inside =
      Location.start.advance (front ++ inside) := by
    rw [Location.advance_append]
    rfl
  rw [place, History.text_insert_advance _ parts]
  simp [insertion]

/-- An attribute is replaced from its name to the end of its value. -/
theorem text_updateAttribute {document : Document} {front : Text} {tag : TagText}
    (shape : document.text = front ++ '<' :: tag.text) {target : Attribute}
    {before after : List Attribute} {former own latter : List Piece} {written lexeme : Text}
    (spans : TagBody.Spans (((Location.start.advance front).next '<').advance tag.written) none
      tag.pieces before target after former own latter written lexeme)
    {value : Text} (differs : target.value ≠ value) :
    (document.updateAttribute target value).2.text =
      front ++ '<' :: (tag.written ++ (Piece.lexemes former ++
        (Component.attributeMarkup written value ++
          (Piece.lexemes latter ++ (tag.stop.mark ++ tag.behind))))) := by
  have parts : document.buffer.history.text =
      (front ++ '<' :: (tag.written ++ Piece.lexemes former)) ++
        Piece.lexemes (.token (.name written) lexeme :: own) ++
        (Piece.lexemes latter ++ (tag.stop.mark ++ tag.behind)) := by
    have same : document.buffer.history.text = front ++ '<' :: tag.text := shape
    rw [same, TagText.text, spans.pieces_eq]
    simp
  unfold updateAttribute
  rw [if_neg differs]
  dsimp only
  rw [text_replaced]
  have region : target.region =
      ⟨Location.start.advance (front ++ '<' :: (tag.written ++ Piece.lexemes former)),
        Location.start.advance ((front ++ '<' :: (tag.written ++ Piece.lexemes former)) ++
          Piece.lexemes (.token (.name written) lexeme :: own))⟩ := by
    rw [spans.region_eq]
    simp [Location.advance_append]
  rw [region, History.text_replace_advance _ parts, spans.name_eq, Name.text_ofText]
  simp

/-- Giving a tag an attribute changes nothing up to the `<` of the tag. -/
theorem text_setAttribute {document : Document} {front : Text} {tag : TagText}
    (shape : document.text = front ++ '<' :: tag.text) (key value : Text) :
    ∃ rest, (document.setAttribute (tag.tagOf (Location.start.advance front)) key value).2.text =
      front ++ '<' :: rest := by
  unfold setAttribute
  cases found : (tag.tagOf (Location.start.advance front)).attribute? key with
  | some existing =>
      dsimp only
      by_cases same : existing.value = value
      · unfold updateAttribute
        rw [if_pos same]
        exact ⟨tag.text, shape⟩
      · obtain ⟨_, before, after, attributes, _⟩ := List.find?_eq_some_iff_append.mp found
        obtain ⟨former, own, latter, written, lexeme, spans⟩ := TagBody.exists_span attributes
        exact ⟨_, text_updateAttribute shape spans same⟩
  | none =>
      dsimp only
      obtain ⟨inside, mark, blanks, whole, areBlank, kinds⟩ := splitTag_cases tag.opening
      have marked : mark = ['/', '>'] ∨ mark = ['>'] ∨ mark = [] := by
        rcases kinds with ⟨marked, _⟩ | ⟨marked, _⟩ | ⟨marked, _⟩
        · exact .inl marked
        · exact .inr (.inl marked)
        · exact .inr (.inr marked)
      obtain ⟨selfClosing, split⟩ : ∃ selfClosing,
          splitTag tag.opening = (inside, selfClosing) := by
        rcases kinds with ⟨_, split⟩ | ⟨_, _, split⟩ | ⟨_, _, _, split⟩
        · exact ⟨true, split⟩
        · exact ⟨false, split⟩
        · exact ⟨false, split⟩
      obtain ⟨tail, rfl⟩ := inside_of_splitTag whole areBlank marked
      exact ⟨_, text_insertAttribute shape split whole key value⟩

end Document

end PageDesigner
