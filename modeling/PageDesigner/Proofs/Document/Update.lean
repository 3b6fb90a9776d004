import PageDesigner.Proofs.Document.Profile
import PageDesigner.Proofs.Markup.Written
import PageDesigner.Proofs.Text.Reference

/-!
# A value in place of another

A tag that has an attribute already gets the new value in its place, and everything
else that the tag says stays (`exists_updated`).  An `id` is replaced without a change
of what makes the tag a server control (`exists_renamed`).
-/

namespace PageDesigner

open Piece (lexemes attributePieces)

namespace Naming.Numbered

variable {id : Text}

theorem writable (numbered : Numbered id) : Piece.Writable "id" id where
  starts := ⟨'i', ['d'], rfl, rfl⟩
  word := rfl
  inside := Text.all_bne_of_absent (numbered.absent (by decide))

theorem decode_eq (numbered : Numbered id) : Reference.decode id = id :=
  Reference.decode_plain (numbered.absent (by decide))

end Naming.Numbered

namespace TagText

/-- The attribute that a tag states under a key stands among its pieces, and nothing in front of it
is stated under the key. -/
theorem exists_spans {tag : TagText} {first : Location} {key : Text} {target : Attribute}
    (found : (tag.tagOf first).attribute? key = some target) :
    ∃ (before after : List Attribute) (former own latter : List Piece) (written lexeme : Text),
      TagBody.Spans ((first.next '<').advance tag.written) none tag.pieces before target after
        former own latter written lexeme ∧
      tag.entries = before.map Attribute.entry ++ target.entry :: after.map Attribute.entry ∧
      (∀ entry ∈ before.map Attribute.entry, entry.1.isWritten key = false) ∧
      target.entry.1.isWritten key = true := by
  obtain ⟨named, before, after, attributes, unnamed⟩ := List.find?_eq_some_iff_append.mp found
  obtain ⟨former, own, latter, written, lexeme, spans⟩ := TagBody.exists_span attributes
  refine ⟨before, after, former, own, latter, written, lexeme, spans, ?_, ?_, named⟩
  · rw [← tag.entries_tagOf first, Tag.entries, attributes, List.map_append, List.map_cons]
  · intro entry member
    obtain ⟨other, member', rfl⟩ := List.mem_map.mp member
    exact Bool.not_eq_true' _ |>.mp (unnamed other member')

/-- The pieces at the end of a tag can be exchanged for others whose text begins alike. -/
theorem exists_exchanged (tag : TagText) {former latter pieces : List Piece} {text behind : Text}
    {stop : TagStop} (shape : tag.pieces = former ++ latter)
    (reads : Piece.Reads text pieces (stop.mark ++ behind))
    (starts : stop.Starts (stop.mark ++ behind))
    (follows : lexemes latter ++ (tag.stop.mark ++ tag.behind) ≠ [])
    (head : text.head? = (lexemes latter ++ (tag.stop.mark ++ tag.behind)).head?) :
    ∃ tag' : TagText, tag'.text = tag.written ++ (lexemes former ++ text) ∧
      tag'.written = tag.written ∧ tag'.pieces = former ++ pieces ∧ tag'.stop = stop ∧
      tag'.behind = behind := by
  have given := tag.reads
  have stops := tag.stops
  rw [shape] at given
  rw [shape, Piece.lexemes_append, List.append_assoc] at stops
  have whole := given.exchange reads follows head
  have same := whole.text_eq
  refine ⟨⟨tag.written, former ++ pieces, stop, behind, tag.named, tag.word, ?_, ?_, starts⟩, ?_, rfl,
    rfl, rfl, rfl⟩
  · rw [← same]
    cases front : lexemes former with
    | nil =>
        rw [front, List.nil_append] at stops
        rw [List.nil_append, head]
        exact stops
    | cons _ _ =>
        rw [front] at stops
        exact stops
  · rw [← same]
    exact whole
  · exact congrArg (tag.written ++ ·) same.symm

/-- An attribute of a tag can be replaced by one of the same name with another content. -/
theorem exists_replaced (tag : TagText) {location : Location} {target : Attribute}
    {before after : List Attribute} {former own latter : List Piece} {written lexeme content : Text}
    (spans : TagBody.Spans location none tag.pieces before target after former own latter written
      lexeme) (inside : content.all (· != '"') = true) :
    ∃ tag' : TagText, tag'.written = tag.written ∧ tag'.stop = tag.stop ∧
      tag'.behind = tag.behind ∧
      tag'.pieces = former ++ (attributePieces written content ++ latter) ∧
      tag'.entries = before.map Attribute.entry ++
        (target.name, Reference.decode content) :: after.map Attribute.entry := by
  have reads := tag.reads
  have shape : tag.pieces = former ++ .token (.name written) lexeme :: (own ++ latter) :=
    spans.pieces_eq
  rw [shape] at reads
  obtain ⟨char, more, takes, _, _⟩ := reads.takes
  obtain ⟨rfl, rfl, starts, word⟩ := takes.of_name
  have writable : Piece.Writable (char :: more) content := ⟨⟨char, more, rfl, starts⟩, word, inside⟩
  have tail : Piece.Reads (lexemes latter ++ (tag.stop.mark ++ tag.behind)) latter
      (tag.stop.mark ++ tag.behind) := by
    have split : .token (.name (char :: more)) (char :: more) :: (own ++ latter) =
        (.token (.name (char :: more)) (char :: more) :: own) ++ latter := rfl
    have further := reads.pause.2
    rw [split] at further
    exact further.pause.2
  -- The text in front does not see that the attribute is replaced.
  obtain ⟨tag', _, name, pieces, stop, behind⟩ := tag.exists_exchanged shape
    ((writable.reads _).append tail) tag.starts (by simp [Piece.lexeme]) rfl
  refine ⟨tag', name, stop, behind, pieces, ?_⟩
  unfold entries
  rw [pieces, TagBody.entries_append, TagBody.entries, TagBody.entryRun_append,
    Piece.entryRun_attributePieces (TagBody.entryRun_settled spans.settled)]
  rw [spans.before_eq, spans.after_eq, TagBody.attributesOf_entry, TagBody.attributesOf_entry,
    spans.name_eq]
  simp [TagBody.entries, TagBody.state]

end TagText

namespace Document

/-- A tag that states an attribute keeps everything else it says when it gets another value. -/
theorem exists_updated {document : Document} {front : Text} {tag : TagText}
    (shape : document.text = front ++ '<' :: tag.text) {key : Text} {existing : Attribute}
    (found : (tag.tagOf (Location.start.advance front)).attribute? key = some existing)
    (value : Text) :
    ∃ tag' : TagText,
      (document.setAttribute (tag.tagOf (Location.start.advance front)) key value).2.text =
        front ++ '<' :: tag'.text ∧
      tag'.written = tag.written ∧ tag'.later = tag.later ∧
      tag'.entries = Entry.withValue key value tag.entries := by
  obtain ⟨before, after, former, own, latter, written, lexeme, spans, entries, unstated, named⟩ :=
    TagText.exists_spans found
  have stated : Entry.withValue key value tag.entries = before.map Attribute.entry ++
      (existing.name, value) :: after.map Attribute.entry := by
    rw [entries]
    exact Entry.withValue_of_stated unstated named
  rw [stated]
  unfold setAttribute
  rw [found]
  dsimp only
  by_cases same : existing.value = value
  · unfold updateAttribute
    rw [if_pos same, ← same]
    exact ⟨tag, shape, rfl, rfl, entries⟩
  · obtain ⟨tag', sameName, sameStop, sameBehind, pieces, entries'⟩ := tag.exists_replaced spans
      (Text.all_bne_of_absent (Reference.quote_not_mem_escapeAttribute value))
    rw [Reference.decode_escapeAttribute] at entries'
    refine ⟨tag', ?_, sameName, ?_, entries'⟩
    · rw [text_updateAttribute shape spans same, Component.attributeMarkup_eq]
      unfold TagText.text
      rw [sameName, sameStop, sameBehind, pieces]
      simp
    · unfold TagText.later TagText.name
      rw [sameName, sameStop, sameBehind]

/-- A tag that has an `id` is a server control as before, with the names that it had, when it gets
another one. -/
theorem exists_renamed {document : Document} {front : Text} {tag : TagText}
    (shape : document.text = front ++ '<' :: tag.text) (stated : Entry.statesId tag.entries = true)
    {id : Text} (nonempty : id ≠ []) :
    ∃ tag' : TagText,
      (document.setAttribute (tag.tagOf (Location.start.advance front)) "id" id).2.text =
        front ++ '<' :: tag'.text ∧
      tag.Revision tag' ∧ Entry.id? tag'.entries = some id ∧
      tag'.entries.map Prod.fst = tag.entries.map Prod.fst := by
  have some' : ((tag.tagOf (Location.start.advance front)).attribute? "id").isSome = true := by
    rw [← Tag.statesId_entries, tag.entries_tagOf]
    exact stated
  obtain ⟨existing, found⟩ := Option.isSome_iff_exists.mp some'
  obtain ⟨tag', text, name, later, entries⟩ := exists_updated shape found id
  refine ⟨tag', text, ⟨name, later, ?_⟩, ?_, ?_⟩
  · rw [entries, Entry.runsAtServer_withValue]
  · rw [entries, Entry.id?_withValue nonempty]
  · rw [entries, Entry.names_withValue "id" id stated]

end Document

end PageDesigner
