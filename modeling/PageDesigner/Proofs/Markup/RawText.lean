import PageDesigner.Proofs.Markup.Stated

/-!
# Elements that hold raw text

What a script or a style holds is no markup: it ends at the first closing tag of the
element.  Text that holds no mark that would end it can be written between the two tags
and is read alike whatever stands behind them (`Event.sealed_raw`).
-/

namespace PageDesigner

open Piece (lexemes)

/-- A mark is found at its own beginning. -/
theorem Text.cut?_self (mark : Text) : Text.cut? mark mark = some ([], []) := by
  cases mark with
  | nil => rfl
  | cons char mark => simp [Text.cut?]

/-- A mark at the end of what was found in front of it is found there. -/
theorem Text.cut?_shorten {mark text content behind : Text}
    (found : Text.cut? mark text = some (content, behind)) :
    Text.cut? mark (content ++ mark) = some (content, []) := by
  induction text generalizing content with
  | nil =>
      unfold Text.cut? at found
      split at found
      · obtain ⟨rfl, -⟩ := Prod.mk.inj (Option.some.inj found)
        exact cut?_self mark
      · cases found
  | cons char rest ih =>
      unfold Text.cut? at found
      split at found
      · obtain ⟨rfl, -⟩ := Prod.mk.inj (Option.some.inj found)
        exact cut?_self mark
      · next absent =>
          obtain ⟨⟨later, behind'⟩, cut, pair⟩ := Option.map_eq_some_iff.mp found
          obtain ⟨rfl, rfl⟩ := Prod.mk.inj pair
          have absent' : ¬ mark.isPrefixOf (char :: (later ++ mark)) = true := by
            intro starts
            refine absent (List.isPrefixOf_iff_prefix.mpr ?_)
            rw [Text.append_of_cut? cut]
            exact (List.isPrefixOf_iff_prefix.mp starts).trans (List.prefix_append _ _)
          rw [List.cons_append, Text.cut?, if_neg absent', ih cut]
          rfl

namespace Event

/-- Whether an element of this name has raw text between its tags. -/
def holdsText (name : Name) : Bool := !name.isQualified && rawNames.contains name.base.lower

/-- The mark that ends the raw text of an element of this name. -/
def endMark (name : Name) : Text := "</" ++ name.base.lower

theorem lower_of_holdsText {name : Name} (raw : holdsText name = true) :
    name.base.lower.lower = name.base.lower := by
  have small : ∀ raw ∈ rawNames, raw.lower = raw := by decide
  exact small _ (List.contains_iff_mem.mp (Bool.and_eq_true_iff.mp raw).2)

theorem endMark_ofText {name : Text} (raw : holdsText (Name.ofText name) = true) :
    endMark (Name.ofText name) = Text.lower ('<' :: '/' :: name) := by
  have unqualified : (Name.ofText name).isQualified = false := by
    simpa using (Bool.and_eq_true_iff.mp raw).1
  unfold endMark
  rw [Name.base_ofText unqualified]
  rfl

/-- A closing tag whose name has been read goes on to the next `>`. -/
theorem lengthThrough_closed (front rest : Text) :
    lengthThrough front.length ">" (front ++ '>' :: rest) = front.length + 1 := by
  unfold lengthThrough enclosed
  rw [List.drop_left]
  simp [Text.cut?]

/-- Raw text ends at the closing tag behind it, if it holds no mark that would end it. -/
theorem rawEnd?_closing {name : Text} (raw : holdsText (Name.ofText name) = true) {content : Text}
    (inside : Text.cut? (endMark (Name.ofText name)) (content.lower ++ endMark (Name.ofText name)) =
      some (content.lower, [])) (location : Location) (rest : Text) :
    rawEnd? (Name.ofText name).base.lower location
        (content ++ ('<' :: '/' :: (name ++ ['>']) ++ rest)) =
      some (⟨location.advance content, location.advance (content ++ '<' :: '/' :: (name ++ ['>']))⟩,
        (content ++ '<' :: '/' :: (name ++ ['>'])).length) := by
  have marked := endMark_ofText raw
  have shape : content ++ ('<' :: '/' :: (name ++ ['>']) ++ rest) =
      (content ++ '<' :: '/' :: name) ++ '>' :: rest := by simp
  have whole : content ++ '<' :: '/' :: (name ++ ['>']) =
      (content ++ '<' :: '/' :: name) ++ ['>'] := by simp
  have small : Text.lower ((content ++ '<' :: '/' :: name) ++ '>' :: rest) =
      content.lower ++ endMark (Name.ofText name) ++ Text.lower ('>' :: rest) := by
    rw [Text.lower_append, Text.lower_append, marked]
  have nonempty : endMark (Name.ofText name) ≠ [] := by
    rw [marked]
    exact List.cons_ne_nil _ _
  obtain ⟨behind, found⟩ := Text.cut?_append nonempty
    (show Text.cut? _ (content.lower ++ endMark (Name.ofText name) ++ []) = _ by
      rw [List.append_nil]
      exact inside) (by rw [List.length_append]) (Text.lower ('>' :: rest))
  have ends : lengthThrough (content.lower.length + (endMark (Name.ofText name)).length) ">"
      ((content ++ '<' :: '/' :: name) ++ '>' :: rest) =
        (content ++ '<' :: '/' :: (name ++ ['>'])).length := by
    have length : content.lower.length + (endMark (Name.ofText name)).length =
        (content ++ '<' :: '/' :: name).length := by
      rw [marked, Text.length_lower, Text.length_lower, List.length_append]
    rw [length, lengthThrough_closed, whole, @List.length_append _ _ ['>']]
    rfl
  have front : ((content ++ '<' :: '/' :: name) ++ '>' :: rest).take content.length = content := by
    rw [List.append_assoc, List.take_left]
  have taken : ((content ++ '<' :: '/' :: name) ++ '>' :: rest).take
      (content ++ '<' :: '/' :: (name ++ ['>'])).length =
        content ++ '<' :: '/' :: (name ++ ['>']) := by
    have split := List.append_cons (content ++ '<' :: '/' :: name) '>' rest
    rw [whole, split, List.take_left]
  unfold rawEnd?
  rw [lower_of_holdsText raw, shape, small]
  dsimp only
  have marks : ("</" : Text) ++ (Name.ofText name).base.lower = endMark (Name.ofText name) := rfl
  rw [marks, found]
  dsimp only
  rw [ends, Text.length_lower, front, taken]

/-- Raw text between two tags is read as one element, whatever stands behind. -/
theorem sealed_raw {tag : StatedTag} (raw : holdsText (Name.ofText tag.written) = true)
    {content : Text} (inside : Text.cut? (endMark (Name.ofText tag.written))
      (content.lower ++ endMark (Name.ofText tag.written)) = some (content.lower, []))
    (first : Location) :
    let last := first.advance (tag.markup ++ StatedTag.mark false)
    let closing := '<' :: '/' :: (tag.written ++ ['>'])
    Sealed first (tag.markup ++ StatedTag.mark false ++ (content ++ closing))
      [.leaf (.element (tag.tagAt false first)
        (.closed ⟨last.advance content, last.advance (content ++ closing)⟩) [])] := by
  intro last closing rest
  generalize whole : tag.inFrontOf false (content ++ (closing ++ rest)) = written
  have ends : written.stop ≠ .selfClose := by
    rw [← whole]
    exact fun same => nomatch same
  have named : written.name = Name.ofText tag.written := by rw [← whole]; rfl
  have opening : written.opening = tag.markup ++ StatedTag.mark false := by
    rw [← whole, tag.opening_inFrontOf]
  have behind : written.behind = content ++ (closing ++ rest) := by rw [← whole]; rfl
  have quiet : malformed first written = [] := by rw [← whole, malformed_inFrontOf]
  have read : written.tagOf first = tag.tagAt false first := by
    rw [← whole, tag.tagOf_inFrontOf]
  have notVoid : (!(Name.ofText tag.written).isQualified &&
      voidNames.contains (Name.ofText tag.written).base.lower) = false := by
    have apart : ∀ name ∈ rawNames, voidNames.contains name = false := by decide
    rw [apart _ (List.contains_iff_mem.mp (Bool.and_eq_true_iff.mp raw).2), Bool.and_false]
  have isRaw : (!(Name.ofText tag.written).isQualified &&
      rawNames.contains (Name.ofText tag.written).base.lower) = true := raw
  have here := openingTag_text first written
  rw [if_neg ends, named, notVoid, if_neg Bool.false_ne_true, if_pos isRaw, opening, behind,
    rawEnd?_closing raw inside, quiet, read] at here
  have taken := eventsFrom_opening (behind.trans (List.append_assoc _ _ _).symm) here
  rw [TagText.text_eq_opening, opening, behind] at taken
  simpa using taken

end Event

end PageDesigner
