import PageDesigner.Proofs.Document.Drawing
import PageDesigner.Proofs.Markup.Stretches
import PageDesigner.Proofs.Surface.Naming

/-!
# Inert HTML

HTML is inert when it brings no scripts, no `runat` and no event attributes, wherever it
stands and whatever stands around it (`Inert`).  The tags that the designer draws are inert,
and so is quiet text in front of a tag; what is made of inert parts is inert, and is read
as a harmless tree (`Inert.harmless_parse`).
-/

namespace PageDesigner

open DesignHtml (isWiring)
open Piece (lexemes)

/-! ## Harmless markup -/

/-- The attribute is neither `runat` nor that of an event. -/
structure Attribute.Harmless (stated : Attribute) : Prop where
  notRunat : stated.name.isWritten "runat" = false
  notEvent : ¬ ("on" : Text) <+: stated.name.text.lower

/-- The tag is not that of a script and has no wiring. -/
structure Tag.Harmless (tag : Tag) : Prop where
  notScript : tag.name.is "script" = false
  attributes : ∀ stated ∈ tag.attributes, stated.Harmless

/-- No element of the tree is a script, and nothing in it has wiring. -/
structure Tree.Harmless (tree : Tree) : Prop where
  elements : ∀ element ∈ tree.elements, element.toTag.Harmless
  directives : ∀ directive ∈ tree.directives, ∀ stated ∈ directive.attributes, stated.Harmless

instance (stated : Attribute) : Decidable stated.Harmless :=
  decidable_of_iff
    (stated.name.isWritten "runat" = false ∧ ¬ ("on" : Text) <+: stated.name.text.lower)
    ⟨fun held => ⟨held.1, held.2⟩, fun harmless => ⟨harmless.notRunat, harmless.notEvent⟩⟩

instance (tag : Tag) : Decidable tag.Harmless :=
  decidable_of_iff (tag.name.is "script" = false ∧ ∀ stated ∈ tag.attributes, stated.Harmless)
    ⟨fun held => ⟨held.1, held.2⟩, fun harmless => ⟨harmless.notScript, harmless.attributes⟩⟩

instance (tree : Tree) : Decidable tree.Harmless :=
  decidable_of_iff ((∀ element ∈ tree.elements, element.toTag.Harmless) ∧
      ∀ directive ∈ tree.directives, ∀ stated ∈ directive.attributes, stated.Harmless)
    ⟨fun held => ⟨held.1, held.2⟩, fun harmless => ⟨harmless.elements, harmless.directives⟩⟩

namespace Node

theorem directivesOf_append (first second : List Node) :
    directivesOf (first ++ second) = directivesOf first ++ directivesOf second := by
  induction first with
  | nil => rfl
  | cons node first ih => simp [directivesOf, ih]

/-- The forest has harmless tags only, and no directives. -/
structure Harmless (nodes : List Node) : Prop where
  elements : ∀ element ∈ elementsOf nodes, element.toTag.Harmless
  directives : directivesOf nodes = []

namespace Harmless

variable {nodes others children : List Node} {tag : Tag}

theorem nil : Harmless [] := ⟨fun _ member => (nomatch member), rfl⟩

theorem append (harmless : Harmless nodes) (harmless' : Harmless others) :
    Harmless (nodes ++ others) where
  elements := by
    intro element member
    rw [elementsOf_append] at member
    exact (List.mem_append.mp member).elim (harmless.elements element) (harmless'.elements element)
  directives := by rw [directivesOf_append, harmless.directives, harmless'.directives]; rfl

theorem element (harmless : tag.Harmless) (inside : Harmless children) (ending : TagEnd) :
    Harmless [.element tag ending children] where
  elements := by
    intro element member
    rw [elementsOf, Node.elements, elementsOf, List.append_nil] at member
    rcases List.mem_cons.mp member with rfl | below
    · exact harmless
    · exact inside.elements element below
  directives := by
    rw [directivesOf, Node.directives, directivesOf, List.append_nil, inside.directives]

end Harmless

end Node

namespace Event

/-- The event brings no script, no wiring and no directive. -/
inductive Harmless : Event → Prop
  | closed (name : Text) (region : Region) : Harmless (.closed name region)
  | opened {tag : Tag} (harmless : tag.Harmless) : Harmless (.opened tag)
  | whole {tag : Tag} (harmless : tag.Harmless) (ending : TagEnd) :
      Harmless (.leaf (.element tag ending []))

/-- Harmless events make up a harmless forest. -/
theorem Spells.harmless {events : List Event} {nodes : List Node} (spells : Spells events nodes)
    (harmless : ∀ event ∈ events, event.Harmless) : Node.Harmless nodes := by
  induction spells with
  | nil => exact .nil
  | problem => exact .nil
  | stray => exact .nil
  | append _ _ ih ih' =>
      exact (ih fun event member => harmless event (List.mem_append_left _ member)).append
        (ih' fun event member => harmless event (List.mem_append_right _ member))
  | leaf node =>
      cases harmless _ List.mem_cons_self with
      | whole tag ending => exact .element tag .nil ending
  | closed inner tag name region ih =>
      have below := ih fun event member => harmless event (by simp [member])
      cases harmless _ List.mem_cons_self with
      | opened tag => exact .element tag below _
  | unterminated inner tag ih =>
      have below := ih fun event member => harmless event (List.mem_cons_of_mem _ member)
      cases harmless _ List.mem_cons_self with
      | opened tag => exact .element tag below _

end Event

/-! ## Inert text -/

open Event (Sealed)

/-- The text brings nothing but harmless events, wherever it stands. -/
def Inert (html : Text) : Prop :=
  ∀ location, ∃ events, Sealed location html events ∧ ∀ event ∈ events, event.Harmless

namespace Inert

variable {html other : Text}

theorem append (inert : Inert html) (inert' : Inert other) : Inert (html ++ other) := by
  intro location
  obtain ⟨events, sealed, harmless⟩ := inert location
  obtain ⟨later, sealed', harmless'⟩ := inert' (location.advance html)
  refine ⟨events ++ later, sealed.append sealed', fun event member => ?_⟩
  exact (List.mem_append.mp member).elim (harmless event) (harmless' event)

theorem plain (absent : '<' ∉ html) : Inert html := fun location =>
  ⟨[], Event.sealed_plain absent location, fun _ member => (nomatch member)⟩

theorem nil : Inert [] := plain List.not_mem_nil

/-- One harmless event is inert. -/
theorem single {event : Location → Event}
    (sealed : ∀ location, Sealed location html [event location])
    (harmless : ∀ location, (event location).Harmless) : Inert html := fun location =>
  ⟨_, sealed location, fun _ member => List.mem_singleton.mp member ▸ harmless location⟩

/-- Quiet text is inert in front of inert text, unless something comes of its end there. -/
theorem behind {gap : Text} (quiet : Quiet gap) (inert : Inert html) (apart : Apart gap html) :
    Inert (gap ++ html) := by
  intro location
  obtain ⟨closings, areClosings, read⟩ := quiet.reads location
  obtain ⟨events, sealed, harmless⟩ := inert (location.advance gap)
  refine ⟨closings ++ events, fun rest => ?_, fun event member => ?_⟩
  · have apart' : Apart gap (html ++ rest) := apart.imp_left fun begins => by
      rw [Piece.head?_eq_some_cons begins]
      rfl
    rw [List.append_assoc, read _ apart', sealed, Location.advance_append, List.append_assoc]
  · rcases List.mem_append.mp member with closing | later
    · obtain ⟨name, region, rfl⟩ := areClosings event closing
      exact .closed name region
    · exact harmless event later

/-- Inert text is read as a harmless tree. -/
theorem harmless_parse (inert : Inert html) : (Tree.parse html).Harmless := by
  obtain ⟨events, sealed, harmless⟩ := inert .start
  have all : Event.events html = events := by
    have whole := sealed []
    rw [List.append_nil] at whole
    exact whole.trans (List.append_nil _)
  have forest := (Tree.spells_parse html).harmless (by rw [all]; exact harmless)
  refine ⟨forest.elements, fun directive member => ?_⟩
  have none' : (Tree.parse html).directives = [] := forest.directives
  rw [none'] at member
  cases member

end Inert

/-! ## Tags -/

namespace StatedTag

/-- The tag is not that of a script and states no wiring. -/
structure Harmless (tag : StatedTag) : Prop where
  notScript : (Name.ofText tag.written).is "script" = false
  attributes : ∀ stated ∈ tag.attributes, isWiring stated.1 = false

theorem harmless_stated {attributes : List (Text × Text)}
    (harmless : ∀ stated ∈ attributes, isWiring stated.1 = false) (location : Location) :
    ∀ stated ∈ TagBody.stated location attributes, stated.Harmless := by
  induction attributes generalizing location with
  | nil => exact fun _ member => nomatch member
  | cons entry attributes ih =>
      obtain ⟨name, value⟩ := entry
      intro stated member
      rw [TagBody.stated] at member
      rcases List.mem_cons.mp member with rfl | later
      · have shown := DesignHtml.isWiring_eq_false_iff.mp (harmless _ List.mem_cons_self)
        constructor
        · simpa [Name.isWritten] using shown.1
        · simpa using shown.2
      · exact ih (fun other listed => harmless other (List.mem_cons_of_mem _ listed)) _ stated later

variable {tag : StatedTag}

theorem Harmless.tagAt (harmless : tag.Harmless) (single : Bool) (first : Location) :
    (tag.tagAt single first).Harmless where
  notScript := harmless.notScript
  attributes := harmless_stated harmless.attributes _

/-- A tag that is a whole element is inert. -/
theorem Harmless.inert_single (harmless : tag.Harmless) : Inert (tag.markup ++ mark true) :=
  .single (Event.sealed_single tag) fun first => .whole (harmless.tagAt true first) _

/-- A tag that opens an element is inert. -/
theorem Harmless.inert_open (harmless : tag.Harmless) (opens : tag.opens = true) :
    Inert (tag.markup ++ mark false) :=
  .single (Event.sealed_open opens) fun first => .opened (harmless.tagAt false first)

theorem inert_closing (tag : StatedTag) : Inert ('<' :: '/' :: (tag.written ++ ['>'])) :=
  .single (Event.sealed_closing tag) fun _ => .closed _ _

end StatedTag

namespace StatedTag.Harmless

variable {tag : StatedTag} (harmless : tag.Harmless) {inside : Text}

include harmless

/-- Two tags around inert markup are inert. -/
theorem inert_paired (opens : tag.opens = true) (inert : Inert inside) :
    Inert (tag.markup ++ mark false ++ (inside ++ '<' :: '/' :: (tag.written ++ ['>']))) :=
  (harmless.inert_open opens).append (inert.append tag.inert_closing)

/-- Two tags around raw text are inert. -/
theorem inert_raw (raw : Event.holdsText (Name.ofText tag.written) = true)
    (ends : Text.cut? (Event.endMark (Name.ofText tag.written))
      (inside.lower ++ Event.endMark (Name.ofText tag.written)) = some (inside.lower, [])) :
    Inert (tag.markup ++ mark false ++ (inside ++ '<' :: '/' :: (tag.written ++ ['>']))) :=
  .single (Event.sealed_raw raw ends) fun first => .whole (harmless.tagAt false first) _

end StatedTag.Harmless

/-! ## Tags that are drawn -/

namespace TagText

/-- The names of attributes are words. -/
theorem word_of_mem {tag : TagText} {entry : Entry} (member : entry ∈ tag.entries) :
    entry.1.text.head?.any startsName = true ∧ entry.1.text.all continuesName = true := by
  rw [← tag.entries_tagOf .start] at member
  obtain ⟨stated, listed, rfl⟩ := List.mem_map.mp member
  obtain ⟨before, after, split⟩ := List.append_of_mem listed
  obtain ⟨former, own, latter, written, lexeme, spans⟩ := TagBody.exists_span split
  have among : .token (.name written) lexeme ∈ tag.pieces := by
    rw [spans.pieces_eq]
    exact List.mem_append_right _ List.mem_cons_self
  obtain ⟨char, more, next, takes⟩ := tag.reads.takes_of_mem among
  obtain ⟨rfl, -, starts, word⟩ := takes.of_name
  show stated.name.text.head?.any startsName = true ∧ stated.name.text.all continuesName = true
  rw [spans.name_eq, Name.text_ofText]
  exact ⟨starts, word⟩

/-- The tag without its wiring, as it is drawn. -/
def shown (tag : TagText) : StatedTag where
  written := tag.written
  attributes := (tag.entries.filter fun entry => !isWiring entry.1.text).map fun entry =>
    (entry.1.text, entry.2)
  named := tag.named
  word := tag.word
  writable := by
    intro stated member
    obtain ⟨entry, listed, rfl⟩ := List.mem_map.mp member
    obtain ⟨starts, word⟩ := word_of_mem (List.mem_filter.mp listed).1
    exact Piece.writable_of_word starts word _

variable (tag : TagText)

theorem harmless_shown (notScript : tag.name.is "script" = false) : tag.shown.Harmless where
  notScript := notScript
  attributes := by
    intro stated member
    obtain ⟨entry, listed, rfl⟩ := List.mem_map.mp member
    simpa using (List.mem_filter.mp listed).2

/-- A tag is drawn without its wiring. -/
theorem openTag_tagOf (first : Location) :
    DesignHtml.openTag (tag.tagOf first) = tag.shown.markup := by
  have attributes : ∀ attributes : List Attribute,
      attributes.flatMap DesignHtml.literalAttribute =
        (((attributes.map Attribute.entry).filter fun entry => !isWiring entry.1.text).map
          fun entry => (entry.1.text, entry.2)).flatMap
            fun stated => ' ' :: Component.attributeMarkup stated.1 stated.2 := by
    intro attributes
    induction attributes with
    | nil => rfl
    | cons stated attributes ih =>
        rw [List.flatMap_cons, ih, List.map_cons, List.filter_cons]
        unfold DesignHtml.literalAttribute
        cases wiring : isWiring stated.name.text with
        | true => simp [Attribute.entry, wiring]
        | false => simp [Attribute.entry, wiring]
  have named : (tag.tagOf first).name.text = tag.written := Name.text_ofText tag.written
  have entries : (tag.tagOf first).attributes.map Attribute.entry = tag.entries :=
    tag.entries_tagOf first
  unfold DesignHtml.openTag
  rw [attributes, named, entries]
  rfl

end TagText

/-! ## Initial values -/

/-- A valid name is none that holds a `<`. -/
theorem Naming.mark_not_mem_of_isValid {name : Text} (valid : isValid name = true) :
    '<' ∉ name := by
  cases name with
  | nil => exact List.not_mem_nil
  | cons first rest =>
      obtain ⟨starts, word⟩ := Bool.and_eq_true_iff.mp valid
      intro member
      rcases List.mem_cons.mp member with rfl | later
      · cases starts
      · cases List.all_eq_true.mp word _ later

namespace Quoted

/-- Only a `<` is written as one. -/
theorem mark_not_mem_escapeChar {char : Char} (plain : char ≠ '<') : '<' ∉ escapeChar char := by
  have digits : ∀ value < 16, hexDigit value ≠ '<' := by decide
  unfold escapeChar
  repeat' split
  all_goals try decide
  · next small =>
      have high := digits (char.toNat / 16) (by omega)
      have low := digits (char.toNat % 16) (Nat.mod_lt _ (by decide))
      simpa using ⟨Ne.symm high, Ne.symm low⟩
  · exact fun member => plain (List.mem_singleton.mp member).symm

theorem mark_not_mem_write {text : Text} (absent : '<' ∉ text) : '<' ∉ write text := by
  have escaped : '<' ∉ text.flatMap escapeChar := by
    intro member
    obtain ⟨char, listed, inside⟩ := List.mem_flatMap.mp member
    exact mark_not_mem_escapeChar (fun same => absent (same ▸ listed)) inside
  simpa [write] using escaped

theorem mark_not_mem_writeAll {texts : List Text} (absent : ∀ text ∈ texts, '<' ∉ text) :
    '<' ∉ writeAll texts := by
  have joined : ∀ parts : List Text, (∀ part ∈ parts, '<' ∉ part) → '<' ∉ Text.join "," parts := by
    intro parts
    induction parts with
    | nil => exact fun _ => List.not_mem_nil
    | cons part parts ih =>
        intro absent
        cases parts with
        | nil => exact absent part List.mem_cons_self
        | cons next parts =>
            have here := absent part List.mem_cons_self
            have later := ih fun other member => absent other (List.mem_cons_of_mem _ member)
            simpa [Text.join] using ⟨here, later⟩
  have written : '<' ∉ Text.join "," (texts.map write) := joined _ fun part member => by
    obtain ⟨text, listed, rfl⟩ := List.mem_map.mp member
    exact mark_not_mem_write (absent text listed)
  simpa [writeAll] using written

end Quoted

namespace DesignHtml

/-- The tag of the block with the names. -/
def blockTag : StatedTag where
  written := "div"
  attributes := [("id", "designer_init_values"), ("style", "display:none;")]
  named := by decide
  word := by decide
  writable := by
    intro stated member
    have words : ∀ stated ∈ ([("id", "designer_init_values"), ("style", "display:none;")] :
        List (Text × Text)), stated.1.head?.any startsName = true ∧
          stated.1.all continuesName = true := by decide
    exact Piece.writable_of_word (words stated member).1 (words stated member).2 _

/-- The tag of a list of names. -/
def namesTag (id : Text) : StatedTag where
  written := "span"
  attributes := [("id", id)]
  named := by decide
  word := by decide
  writable := by
    intro stated member
    obtain rfl := List.mem_singleton.mp member
    have word : ("id" : Text).head?.any startsName = true ∧
        ("id" : Text).all continuesName = true := by decide
    exact Piece.writable_of_word word.1 word.2 _

theorem harmless_namesTag (id : Text) : (namesTag id).Harmless where
  notScript := by
    have named : (Name.ofText "span").is "script" = false := by decide
    exact named
  attributes := by
    have shown : isWiring "id" = false := by decide
    intro stated member
    rw [List.mem_singleton.mp member]
    exact shown

theorem opens_namesTag (id : Text) : (namesTag id).opens = true := by
  show Event.holdsMarkup (Name.ofText "span") = true
  decide

/-- A list of valid names is inert. -/
theorem inert_names (id : Text) {names : List Text}
    (valid : ∀ name ∈ names, Naming.isValid name = true) :
    Inert ((namesTag id).markup ++ StatedTag.mark false ++
      (Quoted.writeAll names ++ '<' :: '/' :: ((namesTag id).written ++ ['>']))) :=
  (harmless_namesTag id).inert_paired (opens_namesTag id)
    (.plain (Quoted.mark_not_mem_writeAll fun name member =>
      Naming.mark_not_mem_of_isValid (valid name member)))

/-- The block with the names of the components is inert where these are valid. -/
theorem inert_initialValues {surface : Surface}
    (valid : ∀ name ∈ surface.container.names, Naming.isValid name = true) :
    Inert (initialValues surface) := by
  have selected : ∀ name ∈ surface.selection.names.filter surface.container.contains,
      Naming.isValid name = true := by
    intro name member
    obtain ⟨site, found⟩ := Option.isSome_iff_exists.mp (List.mem_filter.mp member).2
    unfold Container.site? at found
    have same : site.name.sameName name = true := by simpa using List.find?_some found
    rw [← Naming.isValid_congr (Text.sameName_iff.mp same)]
    exact valid _ (List.mem_map_of_mem (List.mem_of_find?_eq_some found))
  have block : blockTag.Harmless := ⟨by decide, by decide⟩
  have blank : Inert " " := .plain (by decide)
  have whole := block.inert_paired (by decide)
    (blank.append ((inert_names "designer_selectable_items" valid).append
      (inert_names "designer_selected_items" selected)))
  -- The fixed text between the lists of names is made of the tags around them.
  have opening : blockTag.markup ++ StatedTag.mark false ++ " " =
      "<div id=\"designer_init_values\" style=\"display:none;\"> " := by decide
  have first : (namesTag "designer_selectable_items").markup ++ StatedTag.mark false =
      "<span id=\"designer_selectable_items\">" := by decide
  have second : '<' :: '/' :: ((namesTag "designer_selectable_items").written ++ ['>']) ++
      ((namesTag "designer_selected_items").markup ++ StatedTag.mark false) =
        "</span><span id=\"designer_selected_items\">" := by decide
  have closing : '<' :: '/' :: ((namesTag "designer_selected_items").written ++ ['>']) ++
      '<' :: '/' :: (blockTag.written ++ ['>']) = "</span></div>" := by decide
  unfold initialValues
  rw [← opening, ← first, ← second, ← closing]
  simpa only [List.append_assoc, List.cons_append] using whole

end DesignHtml

end PageDesigner
