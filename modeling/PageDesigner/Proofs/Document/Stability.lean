import PageDesigner.Proofs.Document.Passes

/-!
# Tags in front of an edited tag

Writing an attribute into a tag leaves the opening tags in front of it as they are,
with their places (`controls_setAttribute`).  Elements are compared by their opening
tags here: an edit may move or swallow the closing tag of an element around it.
-/

namespace PageDesigner

namespace Tree

/-- The opening tags of the server controls, in document order. -/
def controlOpenings (tree : Tree) : List Opening :=
  tree.openings.filter fun opening => opening.1.isServerControl

theorem openings_controls (tree : Tree) :
    tree.controls.map Element.opening = tree.controlOpenings := by
  unfold controlOpenings openings controls
  rw [List.filter_map]
  rfl

/-- The controls are server controls. -/
theorem isServerControl_of_controls {tree : Tree} {former latter : List Element}
    {element : Element} (split : tree.controls = former ++ element :: latter) :
    element.toTag.isServerControl = true := by
  have member : element ∈ tree.controls := by
    rw [split]
    simp
  exact (List.mem_filter.mp member).2

/-- The opening tags in front of a server control. -/
theorem openings_of_controls {tree : Tree} {former latter : List Element} {element : Element}
    (split : tree.controls = former ++ element :: latter) :
    ∃ before after, tree.openings = before ++ element.opening :: after ∧
      before.filter (fun opening => opening.1.isServerControl) = former.map Element.opening ∧
      after.filter (fun opening => opening.1.isServerControl) = latter.map Element.opening := by
  unfold controls at split
  obtain ⟨first, rest, elements, firstEq, restEq⟩ := List.filter_eq_append_iff.mp split
  obtain ⟨skipped, others, rfl, nothing, _, othersEq⟩ := List.filter_eq_cons_iff.mp restEq
  refine ⟨(first ++ skipped).map Element.opening, others.map Element.opening, ?_, ?_, ?_⟩
  · unfold openings
    rw [elements]
    simp
  · rw [List.filter_map, List.filter_append, List.map_append]
    have plain : skipped.filter ((fun opening : Opening => opening.1.isServerControl) ∘
        Element.opening) = [] :=
      List.filter_eq_nil_iff.mpr nothing
    rw [plain, List.map_nil, List.append_nil, ← firstEq]
    rfl
  · rw [List.filter_map, ← othersEq]
    rfl

/-- Controls with given opening tags in front come from elements in front. -/
theorem controls_append {tree : Tree} {first second : List Opening}
    (split : tree.controlOpenings = first ++ second) :
    ∃ former latter, tree.controls = former ++ latter ∧ former.map Element.opening = first ∧
      latter.map Element.opening = second := by
  rw [← openings_controls] at split
  obtain ⟨former, latter, same, sameFormer, sameLatter⟩ := List.map_eq_append_iff.mp split
  exact ⟨former, latter, same, sameFormer, sameLatter⟩

end Tree

namespace Document

/-- A server control stands behind a beginning of whole constructs. -/
theorem exists_control {text : Text} {former latter : List Element} {element : Element}
    (split : (Tree.parse text).controls = former ++ element :: latter) :
    ∃ (front : Text) (tag : TagText) (events : List Event),
      text = front ++ '<' :: tag.text ∧ Event.Begins .start front events ∧
      (events.flatMap Event.openings).filter (fun opening => opening.1.isServerControl) =
        former.map Element.opening ∧
      element.opening = (tag.tagOf (Location.start.advance front), tag.isWhole) ∧
      ((Event.eventsFrom (Location.start.advance (front ++ ['<']))
        (Event.openingTag (Location.start.advance front) tag.text).2
        tag.text).flatMap Event.openings).filter (fun opening => opening.1.isServerControl) =
        latter.map Element.opening := by
  obtain ⟨before, after, openings, formerEq, latterEq⟩ := Tree.openings_of_controls split
  obtain ⟨front, tag, events, shape, begins, brings, same, remaining⟩ :=
    Tree.exists_tagText openings
  refine ⟨front, tag, events, shape, begins, ?_, same, ?_⟩
  · rw [brings, formerEq]
  · rw [remaining, latterEq]

/-- The controls in front of an edited tag stay as they are. -/
theorem controls_setAttribute {document : Document} {former latter : List Element}
    {element : Element}
    (split : (Tree.parse document.text).controls = former ++ element :: latter)
    (key value : Text) :
    ∃ former' latter',
      (Tree.parse (document.setAttribute element.toTag key value).2.text).controls =
        former' ++ latter' ∧ former'.map Element.opening = former.map Element.opening := by
  obtain ⟨front, tag, events, shape, begins, brings, same, _⟩ := exists_control split
  have toTag : element.toTag = tag.tagOf (Location.start.advance front) := congrArg Prod.fst same
  obtain ⟨rest, text⟩ := text_setAttribute shape key value
  rw [toTag, text]
  have openings : (Tree.parse (front ++ '<' :: rest)).controlOpenings =
      former.map Element.opening ++
        ((Event.eventsFrom (Location.start.advance front) 0
          ('<' :: rest)).flatMap Event.openings).filter fun opening => opening.1.isServerControl := by
    unfold Tree.controlOpenings
    rw [Tree.openings_parse, Event.events, begins.settled, List.flatMap_append, List.filter_append, brings]
  obtain ⟨former', latter', controls, sameFormer, _⟩ := Tree.controls_append openings
  exact ⟨former', latter', controls, sameFormer⟩

end Document

end PageDesigner
