import Mathlib.Data.List.TakeWhile
import PageDesigner.Proofs.Document.Addressing
import PageDesigner.Proofs.Document.Splicing
import PageDesigner.Proofs.Keeping
import PageDesigner.Proofs.Markup.Sealing
import PageDesigner.Proofs.Surface.Removing

/-!
# Tags cut out of a text

Removing the tag of a component cuts an element out of the text, with everything that it
holds.  The tags in front of it and behind it stay (`Tree.said_cut`), unless what stands in
front of the cut goes on behind it.  So a name that is not cut out itself still has a tag
just when one of its tags stands outside (`Tree.hasControl_cutOut`), and this can be said of
several cuts, one after the other (`Tree.hasControl_cutOutAll`).
-/

namespace PageDesigner

/-- Whether a tag that says this is a server control with the id. -/
def isNamedSaid (id : Text) (said : Name × List Entry) : Bool :=
  isControlSaid said && (Entry.id? said.2).any (·.sameName id)

theorem Tag.isNamedSaid_said (tag : Tag) (id : Text) :
    isNamedSaid id tag.said = tag.isControlNamed id := by
  unfold isNamedSaid isControlNamed
  rw [isControlSaid_said]
  unfold said
  rw [id?_entries]

/-- What is left of a text when an element is cut out of it. -/
structure Cut where
  front : Text
  back : Text
  /-- The elements outside the one that is cut out. -/
  outside : List Element

namespace Tree

/-- Whether one of the server controls has the id. -/
def hasControl (tree : Tree) (id : Text) : Bool := tree.elements.any (·.isControlNamed id)

/-- What is left without the first server control of the given id, if this can be cut out. -/
def cut? (tree : Tree) (id : Text) : Option Cut :=
  match tree.elements.dropWhile (!·.isControlNamed id) with
  | [] => none
  | element :: rest =>
      element.outer?.map fun region =>
        let index := (History.ofText tree.source).index
        ⟨tree.source.take (index region.first), tree.source.drop (index region.last),
          tree.elements.takeWhile (!·.isControlNamed id) ++
            rest.drop element.descendants.length⟩

/-- Whether nothing in front of a cut goes on behind it: the text behind it starts with a `<`, or
no `<` or `</` stands in front of it and no tag is cut short there. -/
def isSealed (tree : Tree) (cut : Cut) : Bool :=
  cut.back.head? = some '<' ||
    (!(['<'].isSuffixOf cut.front) && !(['<', '/'].isSuffixOf cut.front) &&
      tree.diagnostics.all fun diagnostic =>
        diagnostic.severity ≠ .error ||
          diagnostic.region.last ≠ Location.start.advance cut.front)

variable {text id : Text} {cut : Cut}

/-- Only an element that ends can be cut out. -/
theorem cut?_of_control? {element : Element} (found : (parse text).control? id = some element) :
    (element.outer? = none ∧ (parse text).cut? id = none) ∨
      ∃ former latter front inner back,
        (parse text).elements = former ++ element :: (element.descendants ++ latter) ∧
        Extent text former latter element front inner back ∧
        (parse text).cut? id = some ⟨front, back, former ++ latter⟩ := by
  obtain ⟨named, former, rest, split, unnamed⟩ := List.find?_eq_some_iff_append.mp found
  have drops : (parse text).elements.dropWhile (!·.isControlNamed id) = element :: rest := by
    rw [split, List.dropWhile_append_of_pos unnamed, List.dropWhile_cons, named]
    rfl
  have takes : (parse text).elements.takeWhile (!·.isControlNamed id) = former := by
    rw [split, List.takeWhile_append_of_pos unnamed, List.takeWhile_cons, named]
    exact List.append_nil former
  unfold cut?
  rw [drops, takes]
  dsimp only
  cases outer : element.outer? with
  | none => exact .inl ⟨rfl, rfl⟩
  | some region =>
      obtain ⟨front, inner, back, latter, rfl, extent⟩ := exists_extent split outer
      right
      refine ⟨former, latter, front, inner, back, split, extent, ?_⟩
      have source : (History.ofText (parse text).source).text = (front ++ inner) ++ back := by
        rw [List.append_assoc]
        exact extent.text_eq
      have front' : (History.ofText (parse text).source).text = front ++ (inner ++ back) :=
        extent.text_eq
      have places : region = ⟨Location.start.advance front,
          Location.start.advance (front ++ inner)⟩ :=
        Option.some.inj (outer.symm.trans extent.outer_eq)
      have first := History.index_advance front'
      have last := History.index_advance source
      have whole : (parse text).source = front ++ (inner ++ back) := extent.text_eq
      rw [Option.map_some, places]
      dsimp only
      rw [first, last, whole, List.take_left, ← List.append_assoc front, List.drop_left,
        List.drop_left]

theorem cut?_of_no_control (missing : (parse text).control? id = none) :
    (parse text).cut? id = none := by
  have none' := List.find?_eq_none.mp missing
  have drops : (parse text).elements.dropWhile (!·.isControlNamed id) = [] := by
    rw [List.dropWhile_eq_nil_iff]
    intro element member
    simpa using none' element member
  unfold cut?
  rw [drops]

theorem exists_of_cut? (found : (parse text).cut? id = some cut) :
    ∃ former element latter inner,
      (parse text).elements = former ++ element :: (element.descendants ++ latter) ∧
      Extent text former latter element cut.front inner cut.back ∧
      cut.outside = former ++ latter := by
  cases named : (parse text).control? id with
  | none => rw [cut?_of_no_control named] at found; cases found
  | some element =>
      rcases cut?_of_control? named with ⟨-, none'⟩ |
        ⟨former, latter, front, inner, back, split, extent, found'⟩
      · rw [none'] at found
        cases found
      · obtain rfl := Option.some.inj (found'.symm.trans found)
        exact ⟨former, element, latter, inner, split, extent, rfl⟩

/-! ## The tags that are left -/

/-- The beginning of a text in front of a cut is read alike in front of what stands behind it. -/
theorem eventsFrom_cut {former latter : List Element} {element : Element} {inner : Text}
    (extent : Extent text former latter element cut.front inner cut.back)
    (sealed : (parse text).isSealed cut = true) :
    ∃ early, early.flatMap Event.openings = former.map Element.opening ∧
      Event.events (cut.front ++ cut.back) =
        early ++ Event.eventsFrom (Location.start.advance cut.front) 0 cut.back := by
  obtain ⟨early, begins, brings⟩ := extent.begins
  refine ⟨early, brings, ?_⟩
  rcases Bool.or_eq_true_iff.mp sealed with opens | ends
  · obtain ⟨rest, shape⟩ : ∃ rest, cut.back = '<' :: rest :=
      ⟨_, Piece.head?_eq_some_cons (of_decide_eq_true opens)⟩
    rw [shape]
    exact begins.settled rest
  · simp only [Bool.and_eq_true, Bool.not_eq_true', List.all_eq_true] at ends
    obtain ⟨⟨started, closing⟩, whole⟩ := ends
    refine begins.sealed ⟨fun suffix => ?_, fun suffix => ?_, ?_⟩ cut.back
    · rw [List.isSuffixOf_iff_suffix.mpr suffix] at started
      cases started
    · rw [List.isSuffixOf_iff_suffix.mpr suffix] at closing
      cases closing
    · intro diagnostic member isError last
      have shape : text = cut.front ++ '<' :: (inner ++ cut.back).tail := by
        rw [← Piece.head?_eq_some_cons extent.starts]
        exact extent.text_eq
      have reported : .problem diagnostic ∈ Event.events text := by
        rw [shape, Event.events, begins.settled]
        exact List.mem_append_left _ member
      have apart := whole diagnostic (mem_diagnostics reported)
      rw [isError, last] at apart
      simp at apart

/-- The tags that are left say what they said. -/
theorem said_cut (found : (parse text).cut? id = some cut)
    (sealed : (parse text).isSealed cut = true) :
    (parse (cut.front ++ cut.back)).elements.map (·.toTag.said) =
      cut.outside.map (·.toTag.said) := by
  obtain ⟨former, element, latter, inner, -, extent, outside⟩ := exists_of_cut? found
  obtain ⟨early, brings, events⟩ := eventsFrom_cut extent sealed
  have latterEq := congrArg (List.map (·.1.said)) extent.behind
  rw [Event.said_eventsFrom, List.map_map] at latterEq
  rw [said_parse, events, List.flatMap_append, List.map_append, brings, Event.said_eventsFrom,
    latterEq, List.map_map, outside, List.map_append]
  rfl

/-- Names that are the same name the same tags. -/
theorem isControlNamed_congr {id' : Text} (same : id.sameName id' = true) (tag : Tag) :
    tag.isControlNamed id = tag.isControlNamed id' := by
  unfold Tag.isControlNamed
  simp only [Text.sameName_congr same]

theorem hasControl_said (tree : Tree) (id : Text) :
    tree.hasControl id = (tree.elements.map (·.toTag.said)).any (isNamedSaid id) := by
  unfold hasControl
  rw [List.any_map]
  exact congrArg (List.any tree.elements)
    (funext fun element => (element.toTag.isNamedSaid_said id).symm)

/-! ## Cutting out tags -/

/-- The text without the tag of the first server control of the id, if this can be cut out. -/
def cutOut (id text : Text) : Text :=
  match (parse text).cut? id with
  | none => text
  | some cut => cut.front ++ cut.back

theorem cutOut_congr {id' : Text} (same : id.sameName id' = true) (text : Text) :
    cutOut id text = cutOut id' text := by
  unfold cutOut cut?
  simp only [isControlNamed_congr same]

/-- Whether cutting out the tag of an id joins nothing that stands around it. -/
def cutsCleanly (tree : Tree) (id : Text) : Bool := (tree.cut? id).all tree.isSealed

/-- Whether cutting out the tag of an id leaves a tag of another one outside. -/
def spares (tree : Tree) (id other : Text) : Bool :=
  (tree.cut? id).all (·.outside.any (·.isControlNamed other))

/-- A tag is left just when there was one outside the element that was cut out. -/
theorem hasControl_cutOut (cleanly : (parse text).cutsCleanly id = true) (other : Text) :
    (parse (cutOut id text)).hasControl other =
      ((parse text).hasControl other && (parse text).spares id other) := by
  unfold cutOut spares
  unfold cutsCleanly at cleanly
  cases found : (parse text).cut? id with
  | none => simp
  | some cut =>
      rw [found] at cleanly
      dsimp only [Option.all_some]
      have spared : (parse (cut.front ++ cut.back)).hasControl other =
          cut.outside.any (·.isControlNamed other) := by
        rw [hasControl_said, said_cut found cleanly, List.any_map]
        exact congrArg (List.any cut.outside)
          (funext fun element => element.toTag.isNamedSaid_said other)
      rw [spared]
      cases outside : cut.outside.any (·.isControlNamed other) with
      | false => rw [Bool.and_false]
      | true =>
          obtain ⟨former, element, latter, inner, split, -, shape⟩ := exists_of_cut? found
          obtain ⟨kept, member, named⟩ := List.any_eq_true.mp outside
          have there : kept ∈ (parse text).elements := by
            rw [shape] at member
            rw [split]
            simp only [List.mem_append, List.mem_cons] at member ⊢
            exact member.imp_right fun later => .inr (.inr later)
          rw [Bool.and_true]
          exact (List.any_eq_true.mpr ⟨kept, there, named⟩).symm

/-- The text without the tags of the ids, each cut out of what the ones before it have left. -/
def cutOutAll (ids : List Text) (text : Text) : Text :=
  ids.foldl (fun text id => cutOut id text) text

/-- The ids, each with the tree out of which its tag is cut. -/
def cutStages : List Text → Text → List (Text × Tree)
  | [], _ => []
  | id :: rest, text => (id, parse text) :: cutStages rest (cutOut id text)

/-- A tag is left just when at each stage there was one outside the element that was cut out. -/
theorem hasControl_cutOutAll {ids : List Text}
    (cleanly : ∀ stage ∈ cutStages ids text, stage.2.cutsCleanly stage.1 = true) (other : Text) :
    (parse (cutOutAll ids text)).hasControl other = true ↔
      (parse text).hasControl other = true ∧
        ∀ stage ∈ cutStages ids text, stage.2.spares stage.1 other = true := by
  induction ids generalizing text with
  | nil => simp [cutOutAll, cutStages]
  | cons id rest ih =>
      have later := ih fun stage member => cleanly stage (List.mem_cons_of_mem _ member)
      have first : (parse text).cutsCleanly id = true := cleanly _ List.mem_cons_self
      rw [hasControl_cutOut first other, Bool.and_eq_true, and_assoc] at later
      refine later.trans (and_congr_right fun _ => ?_)
      rw [cutStages, List.forall_mem_cons]

end Tree

namespace Document

variable {document middle after : Document}

/-! ## Removing a tag -/

/-- Removing the tag of an id cuts it out, and fails if there is no such tag or if it does not
end. -/
theorem removeTag_cases (sound : document.Sound) (id : Text) :
    ∃ after, after.surface = document.surface ∧
      (((Tree.parse document.text).control? id = none ∧ after.text = document.text ∧
          removeTag id document = .error (.tagNotFound id) after) ∨
        ∃ element, (Tree.parse document.text).control? id = some element ∧
          ((element.outer? = none ∧ after.text = document.text ∧ removeTag id document =
              .error (.unterminatedTag element.name.text element.region.first) after) ∨
            (after.text = Tree.cutOut id document.text ∧
              removeTag id document = .ok () after))) := by
  obtain ⟨parsed, parses, -, agrees, surface, -⟩ := parse_eq sound
  have finds := tagOf_eq sound id
  rw [parses] at finds
  cases found : (Tree.parse document.text).control? id with
  | none =>
      rw [found] at finds
      exact ⟨parsed, surface, .inl ⟨rfl, agrees.text_eq, bind_of_error finds _⟩⟩
  | some element =>
      rw [found] at finds
      rcases Tree.cut?_of_control? found with ⟨endless, -⟩ |
        ⟨former, latter, front, inner, back, split, extent, cuts⟩
      · refine ⟨parsed, surface, .inr ⟨element, rfl, .inl ⟨endless, agrees.text_eq, ?_⟩⟩⟩
        unfold removeTag
        rw [bind_of_ok finds, endless]
        rfl
      · refine ⟨parsed.edited (.remove ⟨Location.start.advance front,
          Location.start.advance (front ++ inner)⟩), surface, .inr ⟨element, rfl, .inr ⟨?_, ?_⟩⟩⟩
        · have shape : parsed.buffer.history.text = front ++ inner ++ back := by
            rw [List.append_assoc, ← extent.text_eq]
            exact agrees.text_eq
          unfold Tree.cutOut
          rw [text_removed, History.text_replace_advance [] shape, cuts, List.append_nil]
        · unfold removeTag
          rw [bind_of_ok finds, extent.outer_eq]
          rfl

/-- The document after the controls of some names were removed, each with its tag. -/
structure Without (names : List Text) (document after : Document) : Prop where
  text_eq : after.text = Tree.cutOutAll names document.text
  typedNames_eq : after.surface.typedNames =
    document.surface.typedNames.filter fun typed => !Naming.isTaken names typed.1
  root?_eq : after.surface.root? = document.surface.root?

theorem Without.nil (text : after.text = document.text)
    (surface : after.surface = document.surface) :
    Without [] document after := by
  refine ⟨text, ?_, by rw [surface]⟩
  rw [surface]
  exact (List.filter_eq_self.mpr fun _ _ => rfl).symm

/-- A document that has lost the name of a component is not what it was. -/
theorem Without.eq_nil_of_same {names : List Text} (without : Without names document after)
    (sited : ∀ name ∈ names, document.surface.container.contains name = true)
    (same : after.surface.typedNames = document.surface.typedNames) : names = [] := by
  cases names with
  | nil => rfl
  | cons name rest =>
      have there := sited name List.mem_cons_self
      rw [Surface.contains_eq_any] at there
      obtain ⟨typed, member, named⟩ := List.any_eq_true.mp there
      have stays := List.filter_eq_self.mp (without.typedNames_eq.symm.trans same) typed member
      have taken : Naming.isTaken (name :: rest) typed.1 = true :=
        List.any_eq_true.mpr ⟨name, List.mem_cons_self, by rw [Text.sameName_comm]; exact named⟩
      rw [taken] at stays
      cases stays

/-- One control is removed, and then the others. -/
theorem Without.cons {name : Text} {names : List Text}
    (text : middle.text = Tree.cutOut name document.text)
    (typedNames : middle.surface.typedNames =
      document.surface.typedNames.filter (!·.1.sameName name))
    (root : middle.surface.root? = document.surface.root?) (others : Without names middle after) :
    Without (name :: names) document after := by
  refine ⟨?_, ?_, others.root?_eq.trans root⟩
  · rw [others.text_eq, text]
    rfl
  · rw [others.typedNames_eq, typedNames, List.filter_filter]
    refine List.filter_congr fun typed _ => ?_
    unfold Naming.isTaken
    rw [List.any_cons, Bool.not_or, Bool.and_comm, Text.sameName_comm]

/-- Whether a server control of the text has the name. -/
def isTagged (document : Document) (name : Text) : Bool :=
  (Tree.parse document.text).hasControl name

/-- The selected controls, the last selected first. -/
def doomed (document : Document) : List Text :=
  document.surface.removable document.surface.selection.names.reverse

/-- Without the selected controls, a component is left if it is the root or not selected. -/
theorem Without.typedNames_doomed (without : Without document.doomed document after) :
    after.surface.typedNames = document.surface.typedNames.filter fun typed =>
      document.surface.isRoot typed.1 || !document.surface.selection.contains typed.1 := by
  rw [without.typedNames_eq]
  refine List.filter_congr fun typed member => ?_
  have sited : document.surface.container.contains typed.1 = true := by
    rw [Surface.contains_eq_any]
    exact List.any_eq_true.mpr ⟨typed, member, Text.sameName_refl _⟩
  unfold doomed
  rw [Surface.isTaken_removable, sited, Bool.true_and]
  unfold Selection.contains Naming.isTaken
  rw [List.any_reverse, Bool.not_and, Bool.not_not, Bool.or_comm]

end Document

end PageDesigner
