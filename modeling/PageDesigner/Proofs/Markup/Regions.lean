import PageDesigner.Proofs.Markup.Cut
import PageDesigner.Proofs.Markup.Extent
import PageDesigner.Proofs.Text.Layout

/-!
# The regions of a tree

The nodes of a parsed tree say where they stand in the text: each has a region, a closed
element has the region of its closing tag as well, and each attribute of an element or a
directive has one.  These regions are those of what was read, in the order in which it was
read (`Tree.regions_parse`), however elements end up nested and whatever was skipped in
between.

A construct is laid out in what it takes of the text (`Event.laidOut_construct`), and so
are the constructs of a text one behind the other (`Event.laidOut_eventsFrom`).  A tree
consists of some of what they bring, in the same order (`Event.Spells.marks_sublist`).
-/

namespace PageDesigner

/-! ## Attributes -/

/-- The attribute takes a part of the text that begins with its name. -/
structure Attribute.StandsAt (location : Location) (part : Text) (stated : Attribute) :
    Prop where
  region_eq : stated.region = ⟨location, location.advance part⟩
  named : stated.name.text <+: part
  nonempty : stated.name.text ≠ []

namespace TagBody

/-- The open attribute, if there is one, began where the text that was read since begins. -/
def Began (location : Location) (read : Text) (pending : Option OpenAttribute) : Prop :=
  ∀ waiting ∈ pending, waiting.first = location ∧ waiting.last = location.advance waiting.name ∧
    waiting.name <+: read ∧ waiting.name ≠ []

section

variable {location : Location} {read : Text} {pending : Option OpenAttribute}

theorem began_none (location : Location) (read : Text) : Began location read none :=
  fun _ member => nomatch member

theorem Began.more (began : Began location read pending) (more : Text) :
    Began location (read ++ more) pending := by
  intro waiting member
  obtain ⟨first, last, named, nonempty⟩ := began waiting member
  exact ⟨first, last, named.trans (List.prefix_append _ _), nonempty⟩

theorem Began.awaiting (began : Began location read pending) :
    Began location read (pending.map fun waiting => { waiting with awaitsValue := true }) := by
  intro waiting member
  obtain ⟨before, open', rfl⟩ := Option.map_eq_some_iff.mp member
  exact began before open'

theorem began_name (location : Location) {written : Text} (nonempty : written ≠ []) :
    Began location written
      (some ⟨written, location, location.advance written, false⟩) := by
  intro waiting member
  obtain rfl := Option.some.inj member
  exact ⟨rfl, rfl, List.prefix_refl _, nonempty⟩

/-- An attribute that ends without a value takes its name. -/
theorem Began.bare (began : Began location read pending) :
    LaidOut Attribute.StandsAt location read (pending.map (·.bare)).toList := by
  cases pending with
  | none => exact .nil _ _
  | some waiting =>
      obtain ⟨first, last, ⟨more, rfl⟩, nonempty⟩ := began waiting rfl
      refine (LaidOut.single ⟨?_, ?_, ?_⟩).inFrontOf more
      · change (⟨waiting.first, waiting.last⟩ : Region) = _
        rw [first, last]
      · exact (Name.text_ofText waiting.name) ▸ List.prefix_refl _
      · exact (Name.text_ofText waiting.name).symm ▸ nonempty

/-- An attribute with a value takes what was read from its name on. -/
theorem Began.withValue {waiting : OpenAttribute} (began : Began location read (some waiting))
    (written lexeme : Text) :
    LaidOut Attribute.StandsAt location (read ++ lexeme)
      [waiting.withValue written ((location.advance read).advance lexeme)] := by
  obtain ⟨first, -, named, nonempty⟩ := began waiting rfl
  refine LaidOut.single ⟨?_, ?_, ?_⟩
  · rw [OpenAttribute.withValue, first, Location.advance_append]
  · have name : (waiting.withValue written ((location.advance read).advance lexeme)).name.text =
        waiting.name := Name.text_ofText waiting.name
    rw [name]
    exact named.trans (List.prefix_append _ _)
  · exact (Name.text_ofText waiting.name).symm ▸ nonempty

/-- The attributes that are complete behind a lexeme stand in front of what the attribute that is
open behind it has begun with. -/
def Turns (location : Location) (read lexeme : Text)
    (turned : List Attribute × Option OpenAttribute) : Prop :=
  ∃ front back, read ++ lexeme = front ++ back ∧
    LaidOut Attribute.StandsAt location front turned.1 ∧ Began (location.advance front) back turned.2

/-- A lexeme that completes nothing. -/
theorem Began.passes (began : Began location read pending) (lexeme : Text) :
    Turns location read lexeme ([], pending) :=
  ⟨[], read ++ lexeme, rfl, .nil _ _, began.more lexeme⟩

/-- A name begins the next attribute. -/
theorem Began.starts (began : Began location read pending) {written : Text}
    (nonempty : written ≠ []) :
    Turns location read written ((pending.map (·.bare)).toList,
      some ⟨written, location.advance read, (location.advance read).advance written, false⟩) :=
  ⟨read, written, rfl, began.bare, began_name _ nonempty⟩

/-- A value completes the attribute that is open. -/
theorem Began.completes {waiting : OpenAttribute} (began : Began location read (some waiting))
    (written lexeme : Text) :
    Turns location read lexeme
      ([waiting.withValue written ((location.advance read).advance lexeme)], none) :=
  ⟨read ++ lexeme, [], (List.append_nil _).symm, began.withValue written lexeme, began_none _ _⟩

theorem turns_pieceStep (began : Began location read pending) {piece : Piece}
    (spelled : ∀ written lexeme, piece = .token (.name written) lexeme →
      lexeme = written ∧ written ≠ []) :
    Turns location read piece.lexeme (pieceStep pending piece (location.advance read)) := by
  cases piece with
  | layout char => exact began.passes _
  | junk lexeme => exact began.passes _
  | token token lexeme =>
      have named : ∀ written, token = .name written →
          Turns location read lexeme ((pending.map (·.bare)).toList,
            some ⟨written, location.advance read, (location.advance read).advance lexeme,
              false⟩) := by
        rintro written rfl
        obtain ⟨rfl, nonempty⟩ := spelled written lexeme rfl
        exact began.starts nonempty
      rcases pending with _ | ⟨name, first, last, awaited⟩
      · cases token with
        | name written => exact named written rfl
        | _ => exact began.passes _
      · cases awaited with
        | true =>
            cases token with
            | name written => exact began.completes written lexeme
            | doubleQuoted content => exact began.completes content lexeme
            | singleQuoted content => exact began.completes content lexeme
            | bare content => exact began.completes content lexeme
            | equals => exact began.awaiting.passes _
            | _ => exact began.passes _
        | false =>
            cases token with
            | name written => exact named written rfl
            | equals => exact began.awaiting.passes _
            | _ => exact began.passes _

/-- The attributes of some pieces are laid out in them. -/
theorem laidOut_attributesOf {pieces : List Piece}
    (spelled : ∀ written lexeme, .token (.name written) lexeme ∈ pieces →
      lexeme = written ∧ written ≠ [])
    (began : Began location read pending) :
    LaidOut Attribute.StandsAt location (read ++ Piece.lexemes pieces)
      (attributesOf (location.advance read) pending pieces) := by
  induction pieces generalizing location read pending with
  | nil =>
      rw [Piece.lexemes_nil, List.append_nil]
      exact began.bare
  | cons piece pieces ih =>
      have here : ∀ written lexeme, piece = .token (.name written) lexeme →
          lexeme = written ∧ written ≠ [] := by
        rintro written lexeme rfl
        exact spelled written lexeme List.mem_cons_self
      obtain ⟨front, back, split, laid, began'⟩ := turns_pieceStep began here
      have later := ih (fun written lexeme member =>
        spelled written lexeme (List.mem_cons_of_mem _ member)) began'
      rw [attributesOf_cons, Piece.lexemes_cons, ← List.append_assoc, split, List.append_assoc,
        ← Location.advance_append location read, split, Location.advance_append]
      exact laid.append later

end

/-- The attributes that are read from a text are laid out in it. -/
theorem laidOut_reads {text rest : Text} {pieces : List Piece}
    (reads : Piece.Reads text pieces rest) (location : Location) :
    LaidOut Attribute.StandsAt location (Piece.lexemes pieces)
      (attributesOf location none pieces) := by
  refine laidOut_attributesOf (fun written lexeme member => ?_) (began_none location [])
  obtain ⟨char, more, next, takes⟩ := reads.takes_of_mem member
  obtain ⟨rfl, rfl, -, -⟩ := takes.of_name
  exact ⟨rfl, List.cons_ne_nil _ _⟩

theorem laidOut_ofText (location : Location) (text : Text) :
    LaidOut Attribute.StandsAt location text (ofText location text).attributes := by
  obtain ⟨pieces, rest, stop, reads, starts⟩ := Piece.exists_reads text
  rw [ofText_eq reads starts, reads.text_eq]
  exact (laidOut_reads reads location).inFrontOf rest

end TagBody

/-! ## Marks -/

/-- A stretch of markup, with the attributes that are read from it. -/
structure Mark where
  region : Region
  attributes : List Attribute

/-- The mark takes a part of the text that begins with `<`, and its attributes are laid out
there. -/
structure Mark.StandsAt (location : Location) (part : Text) (mark : Mark) : Prop where
  region_eq : mark.region = ⟨location, location.advance part⟩
  starts : part.head? = some '<'
  holds : LaidOut Attribute.StandsAt location part mark.attributes

namespace Node

mutual

/-- The opening and closing tags and other markup of a node, in document order. -/
def marks : Node → List Mark
  | element tag ending children =>
      ⟨tag.region, tag.attributes⟩ :: (marksOf children ++ endMarks ending)
  | directive content => [⟨content.region, content.attributes⟩]
  | block _ _ region => [⟨region, []⟩]
  | comment _ _ region => [⟨region, []⟩]
  | doctype _ region => [⟨region, []⟩]

/-- The marks of a forest, in document order. -/
def marksOf : List Node → List Mark
  | [] => []
  | node :: rest => marks node ++ marksOf rest

/-- The mark of a closing tag. -/
def endMarks : TagEnd → List Mark
  | .closed region => [⟨region, []⟩]
  | _ => []

end

/-- The opening regions of a node and of all nodes below it, and the closing regions of the closed
elements, in document order. -/
def regions (node : Node) : List Region := node.marks.map Mark.region

theorem marksOf_append (first second : List Node) :
    marksOf (first ++ second) = marksOf first ++ marksOf second := by
  induction first with
  | nil => rfl
  | cons node first ih => simp [marksOf, ih]

theorem marksOf_singleton (node : Node) : marksOf [node] = node.marks := by
  simp [marksOf]

end Node

namespace Event

/-- The marks that an event brings. -/
def marks : Event → List Mark
  | .problem _ => []
  | .leaf node => node.marks
  | .opened tag => [⟨tag.region, tag.attributes⟩]
  | .closed _ region => [⟨region, []⟩]

/-- A forest has some of the marks of the events that it is made of, in the same order. -/
theorem Spells.marks_sublist {events : List Event} {nodes : List Node}
    (spells : Spells events nodes) : (Node.marksOf nodes).Sublist (events.flatMap marks) := by
  induction spells with
  | nil => exact .slnil
  | append _ _ ih ih' =>
      rw [Node.marksOf_append, List.flatMap_append]
      exact ih.append ih'
  | problem => exact .slnil
  | stray => exact List.nil_sublist _
  | leaf node =>
      rw [Node.marksOf_singleton, List.flatMap_singleton]
      exact List.Sublist.refl _
  | closed inner tag name region ih =>
      rw [Node.marksOf_singleton, List.flatMap_cons, List.flatMap_append]
      exact (ih.append (List.Sublist.refl [⟨region, []⟩])).cons_cons _
  | unterminated inner tag ih =>
      rw [Node.marksOf_singleton, List.flatMap_cons]
      refine List.Sublist.cons_cons _ ?_
      simpa [Node.endMarks] using ih

/-! ## What a construct takes -/

theorem marks_unlessClosed (part : Enclosed) (problem : Problem) (region : Region) :
    (unlessClosed part problem region).flatMap marks = [] := by
  unfold unlessClosed
  split
  · rfl
  · rfl

theorem Reports.marks_eq {events : List Event} (reports : Reports events) :
    events.flatMap marks = [] := by
  rw [List.flatMap_eq_nil_iff]
  intro event member
  obtain ⟨diagnostic, rfl⟩ := reports event member
  rfl

/-- Markup without attributes takes what the construct takes. -/
theorem laidOut_regionOf (first : Location) (text : Text) (length : Nat) :
    LaidOut Mark.StandsAt first ('<' :: text.take length) [⟨regionOf first text length, []⟩] :=
  .single ⟨rfl, rfl, .nil _ _⟩

/-- The content of something enclosed stands behind the characters skipped. -/
theorem exists_take_enclosed (skip : Nat) (mark text : Text) :
    ∃ more, text.take (enclosed skip mark text).length =
      text.take skip ++ ((enclosed skip mark text).content ++ more) := by
  unfold enclosed
  split
  · next content behind found =>
      refine ⟨mark, ?_⟩
      dsimp only
      rw [Nat.add_assoc, List.take_add, Text.append_of_cut? found, ← List.length_append,
        List.take_left]
  · exact ⟨[], by simp⟩

theorem laidOut_directive {text : Text} (marked : ("%@" : Text).isPrefixOf text = true)
    (first : Location) :
    LaidOut Mark.StandsAt first ('<' :: text.take (directive first text).2)
      ((directive first text).1.flatMap marks) := by
  obtain ⟨rest, rfl⟩ := List.isPrefixOf_iff_prefix.mp marked
  obtain ⟨more, taken⟩ := exists_take_enclosed 2 "%>" (("%@" : Text) ++ rest)
  unfold directive
  dsimp only
  rw [List.flatMap_append, marks_unlessClosed, List.nil_append, List.flatMap_singleton]
  refine .single ⟨?_, rfl, ?_⟩
  · unfold directiveOf
    dsimp only
    split
    · rfl
    · rfl
  · rw [taken]
    generalize (enclosed 2 "%>" (("%@" : Text) ++ rest)).content = content
    generalize regionOf first (("%@" : Text) ++ rest) _ = region
    have opens : '<' :: (("%@" : Text) ++ rest).take 2 = ("<%@" : Text) := rfl
    rw [← List.cons_append, opens]
    refine LaidOut.behind _ (LaidOut.inFrontOf ?_ more)
    -- Blanks and perhaps a name stand in front of the attributes.
    have blanks : content.takeWhile Text.isBlank ++ content.dropWhile Text.isBlank = content :=
      List.takeWhile_append_dropWhile
    generalize first.advance ("<%@" : Text) = place
    unfold directiveOf
    dsimp only
    split
    · conv => arg 3; rw [← blanks]
      exact LaidOut.behind _ (TagBody.laidOut_ofText _ _)
    · have named : (content.dropWhile Text.isBlank).takeWhile continuesName ++
          (content.dropWhile Text.isBlank).dropWhile continuesName =
            content.dropWhile Text.isBlank := List.takeWhile_append_dropWhile
      conv => arg 3; rw [← blanks, ← named]
      exact LaidOut.behind _ (LaidOut.behind _ (TagBody.laidOut_ofText _ _))

theorem standsAt_tagOf (tag : TagText) (first : Location) :
    Mark.StandsAt first tag.opening
      ⟨(tag.tagOf first).region, (tag.tagOf first).attributes⟩ := by
  refine ⟨rfl, rfl, ?_⟩
  have shape : tag.opening = ('<' :: tag.written) ++ (Piece.lexemes tag.pieces ++ tag.stop.mark) :=
    rfl
  rw [shape]
  exact LaidOut.behind _ ((TagBody.laidOut_reads tag.reads _).inFrontOf _)

/-- Where the text in small letters has a mark that is no letter, the text has it. -/
theorem eq_of_toLower {char mark : Char} (unlettered : mark.isAlpha = false)
    (same : char.toLower = mark) : char = mark := by
  cases capital : char.isUpper with
  | false =>
      rw [Text.toLower_of_not_isUpper capital] at same
      exact same
  | true =>
      have letter := Text.isAlpha_toLower capital
      rw [same, unlettered] at letter
      cases letter

theorem head?_of_cut?_lower {mark text content behind : Text}
    (cut : Text.cut? ('<' :: mark) text.lower = some (content, behind)) :
    (text.drop content.length).head? = some '<' := by
  have shape := Text.append_of_cut? cut
  have small : Text.lower (text.drop content.length) = '<' :: mark ++ behind := by
    unfold Text.lower at shape ⊢
    rw [List.map_drop, shape, List.append_assoc, List.drop_left]
  generalize text.drop content.length = part at small
  cases part with
  | nil => cases small
  | cons char rest => exact congrArg some (eq_of_toLower (by decide) (List.cons.inj small).1)

/-- The closing tag of raw content stands behind the opening tag. -/
theorem laidOut_rawEnd {base : Text} {location : Location} {text : Text} {closing : Region}
    {taken : Nat} (found : rawEnd? base location text = some (closing, taken)) :
    LaidOut Mark.StandsAt location (text.take taken) [⟨closing, []⟩] := by
  unfold rawEnd? at found
  dsimp only at found
  split at found
  · cases found
  · next content behind cut =>
      obtain ⟨rfl, rfl⟩ := Prod.mk.inj (Option.some.inj found)
      have starts := head?_of_cut?_lower cut
      obtain ⟨more, taken⟩ := exists_take_enclosed (content.length + ("</" ++ base.lower).length)
        ">" text
      have shape : text.take (lengthThrough (content.length + ("</" ++ base.lower).length) ">"
          text) = text.take content.length ++
            ((text.drop content.length).take ("</" ++ base.lower).length ++
              ((enclosed (content.length + ("</" ++ base.lower).length) ">" text).content ++
                more)) := by
        unfold lengthThrough
        rw [taken, List.take_add, List.append_assoc]
      rw [shape]
      refine LaidOut.behind _ (.single ⟨?_, ?_, .nil _ _⟩)
      · rw [Location.advance_append]
      · cases split : text.drop content.length with
        | nil => rw [split] at starts; cases starts
        | cons char rest =>
            rw [split] at starts
            exact starts

theorem laidOut_openingTag (tag : TagText) (first : Location) :
    LaidOut Mark.StandsAt first ('<' :: tag.text.take (openingTag first tag.text).2)
      ((openingTag first tag.text).1.flatMap marks) := by
  have quiet := (reports_malformed first tag).marks_eq
  have opens : ∀ more, '<' :: tag.text.take
      ((tag.written ++ (Piece.lexemes tag.pieces ++ tag.stop.mark)).length + more) =
        tag.opening ++ tag.behind.take more := by
    intro more
    rw [take_text]
    simp [TagText.opening]
  have alone : LaidOut Mark.StandsAt first tag.opening
      [⟨(tag.tagOf first).region, (tag.tagOf first).attributes⟩] := .single (standsAt_tagOf tag first)
  have own : '<' :: tag.text.take
      (tag.written ++ (Piece.lexemes tag.pieces ++ tag.stop.mark)).length = tag.opening := by
    have all := opens 0
    rw [Nat.add_zero, List.take_zero, List.append_nil] at all
    exact all
  rw [openingTag_text]
  split
  · rw [List.flatMap_append, quiet, own]
    exact alone
  split
  · rw [List.flatMap_append, quiet, own]
    exact alone
  split
  · split
    · next closing taken found =>
        rw [List.flatMap_append, quiet, opens]
        exact alone.append (laidOut_rawEnd found)
    · rw [List.flatMap_append, quiet, List.take_length, TagText.text_eq_opening]
      exact alone.inFrontOf _
  · rw [List.flatMap_append, quiet, own]
    exact alone

/-- The marks of a construct are laid out in what it takes. -/
theorem laidOut_construct (first : Location) (text : Text) :
    LaidOut Mark.StandsAt first ('<' :: text.take (construct first text).2)
      ((construct first text).1.flatMap marks) := by
  by_cases named : text.head?.any startsTagName = true
  · obtain ⟨tag, rfl⟩ := TagText.exists_tagText named
    rw [construct_of_name named]
    exact laidOut_openingTag tag first
  unfold construct
  split
  · unfold comment
    dsimp only
    rw [List.flatMap_append, marks_unlessClosed]
    exact laidOut_regionOf _ _ _
  split
  · next marked => exact laidOut_directive marked first
  split
  · unfold block
    dsimp only
    rw [List.flatMap_append, marks_unlessClosed]
    exact laidOut_regionOf _ _ _
  split
  · unfold comment
    dsimp only
    rw [List.flatMap_append, marks_unlessClosed]
    exact laidOut_regionOf _ _ _
  split
  · exact laidOut_regionOf _ _ _
  split
  · exact .nil _ _
  split
  · exact laidOut_regionOf _ _ _
  · next plain =>
      rw [if_neg (by simpa using named)]
      exact .nil _ _

/-- The marks of a text are laid out in it. -/
theorem laidOut_eventsFrom (location : Location) (text : Text) :
    LaidOut Mark.StandsAt location text ((eventsFrom location 0 text).flatMap marks) := by
  induction hlength : text.length using Nat.strongRecOn generalizing location text with
  | _ length ih =>
      cases text with
      | nil => exact .nil _ _
      | cons char rest =>
          by_cases plain : char = '<'
          · subst plain
            rw [eventsFrom_construct, eventsFrom_skip, List.flatMap_append]
            have shorter : (rest.drop (construct location rest).2).length < length := by
              rw [← hlength, List.length_drop, List.length_cons]
              omega
            have later := ih _ shorter
              ((location.next '<').advance (rest.take (construct location rest).2)) _ rfl
            have whole := (laidOut_construct location rest).append later
            rw [List.cons_append, List.take_append_drop] at whole
            exact whole
          · rw [eventsFrom_plain plain]
            exact LaidOut.behind [char] (ih rest.length (by rw [← hlength]; simp) _ rest rfl)

end Event

/-! ## Trees -/

namespace Node

mutual

/-- The marks of an element are those of the forest around it, with some in front and some
behind. -/
theorem marks_within {element : Element} (node : Node) (member : element ∈ node.elements) :
    (⟨element.region, element.attributes⟩ :: (marksOf element.children ++
      endMarks element.ending)) <:+: node.marks := by
  cases node with
  | element tag ending children =>
      rcases List.mem_cons.mp member with rfl | below
      · exact List.infix_refl _
      · refine (marksOf_within children below).trans ⟨[⟨tag.region, tag.attributes⟩],
          endMarks ending, rfl⟩
  | _ => cases member

theorem marksOf_within {element : Element} (nodes : List Node)
    (member : element ∈ elementsOf nodes) :
    (⟨element.region, element.attributes⟩ :: (marksOf element.children ++
      endMarks element.ending)) <:+: marksOf nodes := by
  cases nodes with
  | nil => cases member
  | cons node rest =>
      rcases List.mem_append.mp member with here | later
      · exact (marks_within node here).trans (List.prefix_append _ _).isInfix
      · exact (marksOf_within rest later).trans (List.suffix_append _ _).isInfix

end

mutual

theorem mem_marks_of_directive {content : Directive} (node : Node)
    (member : content ∈ node.directives) :
    (⟨content.region, content.attributes⟩ : Mark) ∈ node.marks := by
  cases node with
  | element tag ending children =>
      exact List.mem_cons_of_mem _
        (List.mem_append_left _ (mem_marksOf_of_directive children member))
  | directive other =>
      rw [List.mem_singleton.mp member]
      exact List.mem_cons_self
  | _ => cases member

theorem mem_marksOf_of_directive {content : Directive} (nodes : List Node)
    (member : content ∈ directivesOf nodes) :
    (⟨content.region, content.attributes⟩ : Mark) ∈ marksOf nodes := by
  cases nodes with
  | nil => cases member
  | cons node rest =>
      rcases List.mem_append.mp member with here | later
      · exact List.mem_append_left _ (mem_marks_of_directive node here)
      · exact List.mem_append_right _ (mem_marksOf_of_directive rest later)

end

/-- A node lies in front of another one with all that it holds. -/
def InFrontOf (node other : Node) : Prop :=
  ∀ region ∈ node.regions, ∀ region' ∈ other.regions, region.last ≤ region'.first

/-- Forests whose regions are in order have their nodes in order. -/
theorem pairwise_inFrontOf {nodes : List Node}
    (ordered : (marksOf nodes).Pairwise fun mark other => mark.region.last ≤ other.region.first) :
    nodes.Pairwise InFrontOf := by
  induction nodes with
  | nil => exact .nil
  | cons node rest ih =>
      obtain ⟨-, later, apart⟩ := List.pairwise_append.mp ordered
      refine .cons (fun other member => ?_) (ih later)
      intro region here region' there
      obtain ⟨mark, inside, rfl⟩ := List.mem_map.mp here
      obtain ⟨mark', inside', rfl⟩ := List.mem_map.mp there
      obtain ⟨former, latter, rfl⟩ := List.append_of_mem member
      refine apart mark inside mark' ?_
      rw [marksOf_append]
      exact List.mem_append_right _ (List.mem_append_left _ inside')

end Node

namespace Tree

/-- The opening regions of all nodes and the closing regions of all closed elements, in document
order. -/
def regions (tree : Tree) : List Region := tree.nodes.flatMap Node.regions

/-- Attributes are where they say: each lies in the region and begins with its name there, and none
reaches into one behind it. -/
structure Places (tree : Tree) (region : Region) (attributes : List Attribute) : Prop where
  inside : ∀ stated ∈ attributes, region.first ≤ stated.region.first ∧
    stated.region.first < stated.region.last ∧ stated.region.last ≤ region.last
  named : ∀ stated ∈ attributes,
    stated.name.text <+: tree.slice stated.region.first stated.region.last
  ordered : attributes.Pairwise fun stated other => stated.region.last ≤ other.region.first

/-- The regions of a tree are faithful to its source. -/
structure Faithful (tree : Tree) : Prop where
  /-- A region holds some text that begins with `<`. -/
  marked : ∀ region ∈ tree.regions, region.first < region.last ∧
    (tree.slice region.first region.last).head? = some '<'
  /-- Along the tree, no region reaches into one behind it. -/
  ordered : tree.regions.Pairwise fun region other => region.last ≤ other.first
  /-- Children lie between the opening and the closing tag, with all that they hold. -/
  nested : ∀ element ∈ tree.elements, ∀ child ∈ element.children, ∀ region ∈ child.regions,
    element.region.last ≤ region.first ∧ ∀ closing ∈ element.closing?, region.last ≤ closing.first
  /-- Siblings follow each other. -/
  siblings : tree.nodes.Pairwise Node.InFrontOf ∧
    ∀ element ∈ tree.elements, element.children.Pairwise Node.InFrontOf
  tags : ∀ element ∈ tree.elements, tree.Places element.region element.attributes
  directives : ∀ directive ∈ tree.directives, tree.Places directive.region directive.attributes

theorem regions_eq (tree : Tree) : tree.regions = (Node.marksOf tree.nodes).map Mark.region := by
  unfold regions
  induction tree.nodes with
  | nil => rfl
  | cons node rest ih => rw [List.flatMap_cons, ih, Node.marksOf, List.map_append]; rfl

theorem laidOut_parse (text : Text) :
    LaidOut Mark.StandsAt .start text (Node.marksOf (parse text).nodes) :=
  (Event.laidOut_eventsFrom .start text).sublist (spells_parse text).marks_sublist

theorem ordered_of_laidOut {text : Text} {marks : List Mark}
    (laid : LaidOut Mark.StandsAt .start text marks) :
    marks.Pairwise fun mark other => mark.region.last ≤ other.region.first :=
  laid.pairwise fun _ _ _ here => here.region_eq

/-- The attributes of a mark are where they say. -/
theorem places_of_mark {text : Text} {mark : Mark}
    (member : mark ∈ Node.marksOf (parse text).nodes) :
    (parse text).Places mark.region mark.attributes := by
  obtain ⟨front, part, back, split, region, -, holds⟩ := (laidOut_parse text).exists_part member
  have covers : ∀ location part stated, Attribute.StandsAt location part stated →
      stated.region = ⟨location, location.advance part⟩ := fun _ _ _ here => here.region_eq
  refine ⟨fun stated listed => ?_, fun stated listed => ?_, holds.pairwise covers⟩
  · obtain ⟨after, before⟩ := holds.within covers listed
    obtain ⟨former, own, latter, -, here⟩ := holds.exists_part listed
    have some' : own ≠ [] := by
      rintro rfl
      exact here.nonempty (List.prefix_nil.mp here.named)
    rw [region]
    refine ⟨after, ?_, before⟩
    rw [here.region_eq]
    exact Location.lt_advance _ some'
  · obtain ⟨former, own, latter, rfl, here⟩ := holds.exists_part listed
    have sliced : (parse text).slice stated.region.first stated.region.last = own := by
      have source : text = (front ++ former) ++ (own ++ (latter ++ back)) := by
        rw [split]
        simp
      rw [here.region_eq]
      unfold slice
      rw [show (parse text).source = text from rfl, source, ← Location.advance_append]
      exact Source.slice_advance _ _ _
    rw [sliced]
    exact here.named

/-- A mark holds some text that begins with `<`. -/
theorem marked_of_mark {text : Text} {mark : Mark}
    (member : mark ∈ Node.marksOf (parse text).nodes) :
    mark.region.first < mark.region.last ∧
      ((parse text).slice mark.region.first mark.region.last).head? = some '<' := by
  obtain ⟨front, part, back, split, own, starts, -⟩ := (laidOut_parse text).exists_part member
  have sliced : (parse text).slice mark.region.first mark.region.last = part := by
    rw [own]
    unfold slice
    rw [show (parse text).source = text from rfl, split]
    exact Source.slice_advance _ _ _
  rw [sliced]
  refine ⟨?_, starts⟩
  rw [own]
  exact Location.lt_advance _ (by rintro rfl; cases starts)

section

variable {text : Text} {element : Element} (member : element ∈ (parse text).elements)

include member

/-- The marks of an element follow each other. -/
theorem ordered_within :
    (⟨element.region, element.attributes⟩ :: (Node.marksOf element.children ++
      Node.endMarks element.ending)).Pairwise fun mark other =>
        mark.region.last ≤ other.region.first :=
  (ordered_of_laidOut (laidOut_parse text)).sublist (Node.marksOf_within _ member).sublist

/-- What the children of an element hold lies between its tags. -/
theorem nested_of_mark {mark : Mark} (held : mark ∈ Node.marksOf element.children) :
    element.region.last ≤ mark.region.first ∧
      ∀ closing ∈ element.closing?, mark.region.last ≤ closing.first := by
  obtain ⟨opening, rest⟩ := List.pairwise_cons.mp (ordered_within member)
  refine ⟨opening mark (List.mem_append_left _ held), fun closing closes => ?_⟩
  refine (List.pairwise_append.mp rest).2.2 mark held ⟨closing, []⟩ ?_
  unfold Element.closing? at closes
  split at closes
  · next ending =>
      rw [ending, Option.some.inj closes]
      exact List.mem_cons_self
  · cases closes

end

/-- The regions of a parsed tree are faithful to the text, whatever the text is. -/
theorem faithful_parse (text : Text) : (parse text).Faithful where
  marked := by
    intro region member
    rw [regions_eq] at member
    obtain ⟨mark, listed, rfl⟩ := List.mem_map.mp member
    exact marked_of_mark listed
  ordered := by
    rw [regions_eq, List.pairwise_map]
    exact ordered_of_laidOut (laidOut_parse text)
  nested := by
    intro element member child among region listed
    obtain ⟨mark, inside, rfl⟩ := List.mem_map.mp listed
    obtain ⟨former, latter, split⟩ := List.append_of_mem among
    refine nested_of_mark member ?_
    rw [split, Node.marksOf_append]
    exact List.mem_append_right _ (List.mem_append_left _ inside)
  siblings := by
    constructor
    · exact Node.pairwise_inFrontOf (ordered_of_laidOut (laidOut_parse text))
    · intro element member
      have inner := (List.pairwise_cons.mp (ordered_within member)).2
      exact Node.pairwise_inFrontOf (List.pairwise_append.mp inner).1
  tags := fun _ member =>
    places_of_mark ((Node.marksOf_within _ member).subset List.mem_cons_self)
  directives := fun _ member => places_of_mark (Node.mem_marksOf_of_directive _ member)

end Tree

end PageDesigner
