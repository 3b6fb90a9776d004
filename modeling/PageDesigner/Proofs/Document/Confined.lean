import PageDesigner.Proofs.Document.Dropping
import PageDesigner.Proofs.Text.Source

/-!
# Edits that stay inside a tag

An attribute that is set, inserted, updated or removed changes a text only between the `<` of
its tag and the location where the tag ends (`Document.confined_edits`).  Each of these edits
leaves one shape: what stood in front of the tag, something in place of the tag, and what stood
behind it (`Confined.of_tag`).
-/

namespace PageDesigner

open Piece (lexemes)

/-- An edited text is the source with only the characters of a region replaced. -/
structure Confined (region : Region) (source edited : Text) : Prop where
  source_eq : source = Source.before source region.first ++
    (Source.slice source region.first region.last ++ Source.behind source region.last)
  edited_eq : ∃ inside, edited = Source.before source region.first ++
    (inside ++ Source.behind source region.last)

/-- What stands on both sides of a tag is left alone. -/
theorem Confined.of_tag {source edited front : Text} {tag : TagText} (inside : Text)
    (shape : source = front ++ '<' :: tag.text)
    (shape' : edited = front ++ (inside ++ tag.behind)) :
    Confined (tag.tagOf (Location.start.advance front)).region source edited := by
  have parts : source = front ++ (tag.opening ++ tag.behind) := by
    rw [shape, tag.text_eq_opening]
  have ahead : Source.before source (Location.start.advance front) = front := by
    rw [parts]
    exact Source.before_advance front _
  have between : Source.slice source (Location.start.advance front)
      ((Location.start.advance front).advance tag.opening) = tag.opening := by
    rw [parts]
    exact Source.slice_advance front tag.opening tag.behind
  have behind : Source.behind source
      ((Location.start.advance front).advance tag.opening) = tag.behind := by
    rw [parts, ← Location.advance_append, ← List.append_assoc]
    exact Source.behind_advance _ _
  unfold TagText.tagOf
  refine ⟨?_, inside, ?_⟩
  · rw [ahead, between, behind]
    exact parts
  · rw [ahead, behind]
    exact shape'

namespace Document

variable {document : Document} {front : Text} {tag : TagText}

/-- A text that stays as it was is changed nowhere. -/
theorem confined_refl (shape : document.text = front ++ '<' :: tag.text) :
    Confined (tag.tagOf (Location.start.advance front)).region document.text document.text :=
  Confined.of_tag tag.opening shape (by rw [shape, tag.text_eq_opening])

theorem confined_insertAttribute (shape : document.text = front ++ '<' :: tag.text)
    (key value : Text) :
    Confined (tag.tagOf (Location.start.advance front)).region document.text
      (document.insertAttribute (tag.tagOf (Location.start.advance front)) key value).text := by
  obtain ⟨inside, mark, blanks, whole, -, kinds⟩ := splitTag_cases tag.opening
  obtain ⟨selfClosing, split⟩ : ∃ selfClosing, splitTag tag.opening = (inside, selfClosing) := by
    rcases kinds with ⟨-, split⟩ | ⟨-, -, split⟩ | ⟨-, -, -, split⟩
    · exact ⟨true, split⟩
    · exact ⟨false, split⟩
    · exact ⟨false, split⟩
  refine Confined.of_tag
    (inside ++ (insertion inside selfClosing key value ++ (mark ++ blanks))) shape ?_
  rw [text_insertAttribute shape split whole]
  simp only [List.append_assoc]

theorem confined_updateAttribute (shape : document.text = front ++ '<' :: tag.text)
    {target : Attribute}
    (stated : target ∈ (tag.tagOf (Location.start.advance front)).attributes) (value : Text) :
    Confined (tag.tagOf (Location.start.advance front)).region document.text
      (document.updateAttribute target value).2.text := by
  by_cases same : target.value = value
  · have untouched : (document.updateAttribute target value).2 = document := by
      unfold updateAttribute
      rw [if_pos same]
    rw [untouched]
    exact confined_refl shape
  · obtain ⟨before, after, attributes⟩ := List.append_of_mem stated
    obtain ⟨former, own, latter, written, lexeme, spans⟩ := TagBody.exists_span attributes
    refine Confined.of_tag ('<' :: (tag.written ++ (lexemes former ++
      (Component.attributeMarkup written value ++ (lexemes latter ++ tag.stop.mark))))) shape ?_
    rw [text_updateAttribute shape spans same]
    simp only [List.cons_append, List.append_assoc]

/-- An attribute is set by updating the one that is there, or else by inserting it. -/
theorem confined_setAttribute (shape : document.text = front ++ '<' :: tag.text)
    (key value : Text) :
    Confined (tag.tagOf (Location.start.advance front)).region document.text
      (document.setAttribute (tag.tagOf (Location.start.advance front)) key value).2.text := by
  unfold setAttribute
  cases found : (tag.tagOf (Location.start.advance front)).attribute? key with
  | some existing =>
      exact confined_updateAttribute shape (List.mem_of_find?_eq_some found) value
  | none => exact confined_insertAttribute shape key value

theorem confined_removeAttribute (shape : document.text = front ++ '<' :: tag.text)
    (key : Text) :
    Confined (tag.tagOf (Location.start.advance front)).region document.text
      (document.removeAttribute (tag.tagOf (Location.start.advance front)) key).2.text := by
  cases found : (tag.tagOf (Location.start.advance front)).attribute? key with
  | none =>
      have untouched : (document.removeAttribute
          (tag.tagOf (Location.start.advance front)) key).2 = document := by
        unfold removeAttribute
        rw [found]
      rw [untouched]
      exact confined_refl shape
  | some target =>
      obtain ⟨kept, latter, drops⟩ := exists_drops shape found
      refine Confined.of_tag
        ('<' :: (tag.written ++ (lexemes kept ++ (lexemes latter ++ tag.stop.mark)))) shape ?_
      rw [drops.text_eq]
      simp only [List.cons_append, List.append_assoc]

/-- Edits of the attributes of an element change only the characters of its opening tag, and
locations follow the characters that stand between two offsets. -/
theorem confined_edits (document : Document) :
    (∀ element ∈ (Tree.parse document.text).elements,
      (∀ key value, Confined element.region document.text
        (document.setAttribute element.toTag key value).2.text) ∧
      (∀ key value, Confined element.region document.text
        (document.insertAttribute element.toTag key value).text) ∧
      (∀ target ∈ element.attributes, ∀ value, Confined element.region document.text
        (document.updateAttribute target value).2.text) ∧
      ∀ key, Confined element.region document.text
        (document.removeAttribute element.toTag key).2.text) ∧
    ∀ front part rest, document.text = front ++ (part ++ rest) →
      (Source.location document.text front.byteCount).advance part =
        Source.location document.text (front ++ part).byteCount := by
  refine ⟨fun element member => ?_, fun front part rest shape => ?_⟩
  · obtain ⟨former, latter, split⟩ := List.append_of_mem member
    obtain ⟨front, tag, -, shape, -, -, tagEq, -⟩ := exists_element split
    have region : element.region = (tag.tagOf (Location.start.advance front)).region :=
      congrArg Tag.region tagEq
    have attributes : element.attributes =
        (tag.tagOf (Location.start.advance front)).attributes := congrArg Tag.attributes tagEq
    rw [region, attributes, tagEq]
    exact ⟨confined_setAttribute shape, confined_insertAttribute shape,
      fun target stated => confined_updateAttribute shape stated, confined_removeAttribute shape⟩
  · have offset := Source.location_byteCount front (part ++ rest)
    have offset' := Source.location_byteCount (front ++ part) rest
    rw [List.append_assoc] at offset'
    rw [shape, offset, offset', Location.advance_append]

/-- A page with characters of several bytes around a tag on two lines. -/
def wideDocument : Document := .ofText .standard .standard .standard "é<a\n b='ü' c>…"

theorem confined_edits_of_wide :
    ∃ element target,
      element ∈ (Tree.parse wideDocument.text).elements ∧ target ∈ element.attributes ∧
      Confined element.region wideDocument.text
        (wideDocument.setAttribute element.toTag "d" "é").2.text ∧
      Confined element.region wideDocument.text
        (wideDocument.insertAttribute element.toTag "d" "é").text ∧
      Confined element.region wideDocument.text
        (wideDocument.updateAttribute target "é").2.text ∧
      Confined element.region wideDocument.text
        (wideDocument.removeAttribute element.toTag "b").2.text ∧
      wideDocument.text = "é" ++ ("<a\n b='ü'" ++ " c>…") ∧
      (Source.location wideDocument.text (Text.byteCount "é")).advance "<a\n b='ü'" =
        Source.location wideDocument.text (Text.byteCount ("é" ++ "<a\n b='ü'")) := by
  have stated : (Tree.parse wideDocument.text).elements.any
      (fun element => !element.attributes.isEmpty) = true := by
    decide +kernel
  obtain ⟨element, member, nonempty⟩ := List.any_eq_true.mp stated
  have shape : wideDocument.text = "é" ++ ("<a\n b='ü'" ++ " c>…") := by decide +kernel
  cases attributes : element.attributes with
  | nil =>
      rw [attributes] at nonempty
      cases nonempty
  | cons target others =>
      have here : target ∈ element.attributes := attributes ▸ List.mem_cons_self
      obtain ⟨edits, locations⟩ := confined_edits wideDocument
      obtain ⟨sets, inserts, updates, removes⟩ := edits element member
      exact ⟨element, target, member, attributes ▸ here, sets _ _, inserts _ _,
        updates target here _, removes _, shape, locations _ _ _ shape⟩

end Document

end PageDesigner
