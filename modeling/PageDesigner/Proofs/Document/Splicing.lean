import PageDesigner.Proofs.Document.NewTag
import PageDesigner.Proofs.Document.Stating
import PageDesigner.Proofs.Markup.Extent

/-!
# Tags put into a text

The tag of a new control goes in front of a closing tag, where no tag of the text goes on.
So the text with it has the tags it had before, and the new one between them
(`said_spliced`).
-/

namespace PageDesigner

/-! ## What the tags of a text say -/

/-- Whether a tag that says this is a server control. -/
def isControlSaid (said : Name × List Entry) : Bool :=
  !said.1.is "script" && (said.1.isQualified || Entry.runsAtServer said.2)

theorem Tag.isControlSaid_said (tag : Tag) : isControlSaid tag.said = tag.isServerControl := by
  unfold isControlSaid said
  rw [runsAtServer_entries]
  rfl

/-- The server controls say what the tags say that are server controls. -/
theorem Tree.said_controls (tree : Tree) :
    tree.controls.map (·.toTag.said) =
      (tree.elements.map (·.toTag.said)).filter isControlSaid := by
  unfold controls
  rw [List.filter_map]
  exact congrArg (List.map _)
    (List.filter_congr fun element _ => element.toTag.isControlSaid_said.symm)

/-- The elements of a text say what the opening tags of its events say. -/
theorem Tree.said_parse (text : Text) :
    (Tree.parse text).elements.map (·.toTag.said) =
      ((Event.events text).flatMap Event.openings).map (·.1.said) := by
  rw [← Tree.openings_parse]
  unfold Tree.openings
  rw [List.map_map]
  rfl

/-- What the tags of a part of a text say does not depend on where it stands. -/
theorem Event.said_eventsFrom (walked text : Text) :
    ((Event.eventsFrom (Location.start.advance walked) 0 text).flatMap Event.openings).map
        (·.1.said) = (Event.profilesFrom 0 text).map Profile.said := by
  have shape : (Document.ofText .standard .standard .standard (walked ++ text)).text =
      walked ++ text := rfl
  rw [← Event.openings_profile shape 0, List.map_map]
  rfl

namespace Document

variable {document after : Document} {front rest : Text} {early : List Event}

/-- The tags of a text in front of a `<` and from there on. -/
theorem said_settled (shape : document.text = front ++ '<' :: rest)
    (settled : Event.Settled .start front early) :
    (Tree.parse document.text).elements.map (·.toTag.said) =
      (early.flatMap Event.openings).map (·.1.said) ++
        (Event.profilesFrom 0 ('<' :: rest)).map Profile.said := by
  rw [Tree.said_parse, Event.events, shape, settled, List.flatMap_append, List.map_append,
    Event.said_eventsFrom]

/-- A tag in front of a `<` behind a settled beginning stands between the tags of the text. -/
theorem said_spliced {component : Component} (writable : component.controlType.isWritable = true)
    (site : Text) (shape : document.text = front ++ '<' :: rest)
    (settled : Event.Settled .start front early)
    (spliced : after.text = front ++ (component.markup site ++ '\n' :: '<' :: rest)) :
    ∃ former latter, (Tree.parse document.text).elements.map (·.toTag.said) = former ++ latter ∧
      (Tree.parse after.text).elements.map (·.toTag.said) =
        former ++ component.said site :: latter := by
  obtain ⟨tag, text, said, later⟩ :=
    Component.exists_newTag writable site ('\n' :: '<' :: rest)
  rw [← text] at spliced
  obtain ⟨former, element, latter, elements, formerEq, tagEq, latterEq⟩ :=
    exists_elements spliced settled
  refine ⟨_, _, said_settled shape settled, ?_⟩
  have plain : Event.profilesFrom 0 ('\n' :: '<' :: rest) =
      Event.profilesFrom 0 ('<' :: rest) :=
    @Event.profilesFrom_plain ['\n'] (by decide) _
  rw [elements, List.map_append, List.map_cons, latterEq, later, plain, ← formerEq, List.map_map,
    tagEq]
  rw [← said, ← TagText.entries_tagOf tag (Location.start.advance front)]
  rfl

/-! ## Where a new tag goes -/

/-- New tags go in front of the closing tag of an element that holds markup. -/
theorem exists_of_insertionPoint? {tree : Tree} {closing : Region}
    (found : insertionPoint? tree = some closing) :
    ∃ element ∈ tree.elements, element.closing? = some closing ∧
      Event.rawNames.contains element.name.base.lower = false := by
  have parsed : ∀ {name : Name} {base : Text}, name.is base = true →
      Event.rawNames.contains base.lower = false →
      Event.rawNames.contains name.base.lower = false := by
    intro name base same foreign
    rw [Text.sameName_iff.mp same]
    exact foreign
  unfold insertionPoint? at found
  rcases Option.or_eq_some_iff.mp found with form | ⟨-, body⟩
  · obtain ⟨element, member, closes⟩ := List.exists_of_findSome?_eq_some form
    split at closes
    · next here =>
        exact ⟨element, member, closes, parsed (Bool.and_eq_true_iff.mp here).1 (by decide)⟩
    · cases closes
  · obtain ⟨element, member, closes⟩ := List.exists_of_findSome?_eq_some body
    split at closes
    · next here => exact ⟨element, member, closes, parsed here (by decide)⟩
    · cases closes

/-- Inserting a tag leaves the surface, and puts the tag behind a beginning of the text. -/
theorem insertTag_inv {markup : Text} {location : Location} (sound : document.Sound)
    (done : insertTag markup document = .ok location after) :
    ∃ front rest early, document.text = front ++ '<' :: rest ∧
      Event.Begins .start front early ∧
      after.text = front ++ (markup ++ '\n' :: '<' :: rest) ∧
      after.surface = document.surface := by
  obtain ⟨middle, parses, sound', agrees, surface, -⟩ := parse_eq sound
  unfold insertTag at done
  simp only [parsed, bind, EStateM.bind, modifyGet_eq,
    parses] at done
  cases found : insertionPoint? (Tree.parse document.text) with
  | none => rw [found] at done; cases done
  | some closing =>
      rw [found] at done
      obtain ⟨-, rfl⟩ := EStateM.Result.ok.inj done
      obtain ⟨element, member, closes, holds⟩ := exists_of_insertionPoint? found
      obtain ⟨front, rest, early, shape, begins, place⟩ :=
        Tree.exists_closing member closes holds
      refine ⟨front, rest, early, shape, begins, ?_, surface⟩
      have shape' : middle.buffer.history.text = front ++ '<' :: rest :=
        agrees.text_eq.trans shape
      rw [text_inserted, place, History.text_insert_advance _ shape']
      simp

/-! ## Scanning the text with a new tag -/

/-- The tag of a new control that has a free name stands between the tags of a scanned text, all
tags of which have ids, and is the only one that states something new. -/
theorem Scanned.spliced {base : Surface} {registry : Registry} (scanned : Scanned base document)
    (registry_eq : document.registry = registry) {component : Component} {site : Text}
    (writable : component.controlType.isWritable = true)
    (control : isControlSaid (component.said site) = true)
    (states : registry.states? (component.said site) =
      some (site, component.controlType, component.values, component.handlers))
    (valid : Naming.isValid site = true) (free : document.surface.container.site? site = none)
    (notRoot : base.isRoot site = false) (shape : document.text = front ++ '<' :: rest)
    (settled : Event.Settled .start front early)
    (spliced : after.text = front ++ (component.markup site ++ '\n' :: '<' :: rest)) :
    ScanPass.Claimable registry base [] (Tree.parse after.text).controls ∧
      ∃ former latter, document.surface.stated = former ++ latter ∧
        (base.populate registry (Tree.parse after.text).controls).stated =
          former ++ (site, component.controlType, component.values, component.handlers) ::
            latter := by
  obtain ⟨former, latter, before, spliced'⟩ := said_spliced writable site shape settled spliced
  have controls := Tree.said_controls (Tree.parse document.text)
  have controls' := Tree.said_controls (Tree.parse after.text)
  rw [before, List.filter_append] at controls
  rw [spliced', List.filter_append, List.filter_cons_of_pos control] at controls'
  obtain ⟨front', others, split, frontEq, othersEq⟩ := List.map_eq_append_iff.mp controls'
  obtain ⟨element, back, rfl, elementEq, backEq⟩ := List.map_eq_cons_iff.mp othersEq
  have same : (front' ++ back).map (·.toTag.said) =
      (Tree.parse document.text).controls.map (·.toTag.said) := by
    rw [List.map_append, frontEq, backEq, controls]
  have surface := scanned.surface_eq
  have claimable := scanned.claimable.of_said same
  rw [registry_eq] at surface claimable
  have stated := Surface.stated_populate registry base (Tree.parse document.text).controls
  rw [← surface, ← same] at stated
  refine ⟨?_, base.stated ++ (front'.map (·.toTag.said)).filterMap registry.states?,
    (back.map (·.toTag.said)).filterMap registry.states?, ?_, ?_⟩
  · rw [split]
    have stands := states
    unfold Registry.states? at stands
    split at stands
    · next controlType id resolved named =>
        obtain ⟨rfl, -⟩ := Prod.mk.inj (Option.some.inj stands)
        rw [← elementEq] at resolved named
        have id' : element.id? = some id := by rw [← Tag.id?_entries]; exact named
        refine claimable.insert resolved id' valid notRoot List.not_mem_nil ?_
        intro claimed
        refine Container.site?_eq_none.mp free ?_
        rw [ScanPass.claims_eq_stated] at claimed
        rw [Surface.names_eq_stated, stated, List.map_append, List.map_append]
        exact List.mem_append_right _ claimed
    · cases stands
  · rw [stated, List.map_append, List.filterMap_append, List.append_assoc]
  · rw [split, Surface.stated_populate, List.map_append, List.map_cons, elementEq,
      List.filterMap_append, List.filterMap_cons, states, List.append_assoc]

end Document

end PageDesigner
