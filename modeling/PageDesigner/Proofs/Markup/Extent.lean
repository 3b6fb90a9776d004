import PageDesigner.Proofs.Document.Profile
import PageDesigner.Proofs.Markup.Nesting

/-!
# Where an element stands in its text

Each event of a text is brought by a construct (`Event.exists_construct`), and the events of
an opening tag are those of its parts (`Event.openingTag_text`).  An element that is
terminated therefore cuts its text in three: what stands in front of it, its own characters
up to the end of its closing tag, and what stands behind (`Tree.exists_extent`).
-/

namespace PageDesigner

namespace Event

/-! ## What a construct brings -/

/-- The characters of a tag behind its `<`, and what they end with. -/
theorem take_text (tag : TagText) (more : Nat) :
    tag.text.take ((tag.written ++ (Piece.lexemes tag.pieces ++ tag.stop.mark)).length + more) =
      tag.written ++ (Piece.lexemes tag.pieces ++ tag.stop.mark) ++ tag.behind.take more := by
  have shape : tag.text = (tag.written ++ (Piece.lexemes tag.pieces ++ tag.stop.mark)) ++
      tag.behind := by
    simp [TagText.text]
  rw [shape, List.take_length_add_append]

/-- What is reported about a tag that is cut short. -/
def malformed (first : Location) (tag : TagText) : List Event :=
  match tag.stop with
  | .close => []
  | .selfClose => []
  | _ => [.problem ⟨.error, .malformedTag tag.written first "expected `>`",
      (tag.tagOf first).region⟩]

/-- The events of an opening tag in terms of its parts. -/
theorem openingTag_text (first : Location) (tag : TagText) :
    openingTag first tag.text =
      if tag.stop = .selfClose then
        (malformed first tag ++ [.leaf (.element (tag.tagOf first) .selfClosing [])],
          (tag.written ++ (Piece.lexemes tag.pieces ++ tag.stop.mark)).length)
      else if !tag.name.isQualified && voidNames.contains tag.name.base.lower then
        (malformed first tag ++ [.leaf (.element (tag.tagOf first) .void [])],
          (tag.written ++ (Piece.lexemes tag.pieces ++ tag.stop.mark)).length)
      else if !tag.name.isQualified && rawNames.contains tag.name.base.lower then
        match rawEnd? tag.name.base.lower (first.advance tag.opening) tag.behind with
        | some (closing, taken) =>
            (malformed first tag ++ [.leaf (.element (tag.tagOf first) (.closed closing) [])],
              (tag.written ++ (Piece.lexemes tag.pieces ++ tag.stop.mark)).length + taken)
        | none =>
            (malformed first tag ++ [.problem (.unclosed tag.name.text (tag.tagOf first).region),
              .leaf (.element (tag.tagOf first) .unterminated [])], tag.text.length)
      else
        (malformed first tag ++ [.opened (tag.tagOf first)],
          (tag.written ++ (Piece.lexemes tag.pieces ++ tag.stop.mark)).length) := by
  have rest : (tag.text.drop tag.written.length).drop
      (Piece.lexemes tag.pieces ++ tag.stop.mark).length = tag.behind := by
    have shape : tag.text = (tag.written ++ (Piece.lexemes tag.pieces ++ tag.stop.mark)) ++
        tag.behind := by
      simp [TagText.text]
    rw [List.drop_drop, ← List.length_append, shape, List.drop_left]
  have last : ((first.next '<').advance tag.written).advance
      (Piece.lexemes tag.pieces ++ tag.stop.mark) = first.advance tag.opening := by
    simp [TagText.opening, Location.advance_append, Location.advance_cons]
  unfold openingTag
  dsimp only
  rw [tag.takeWhile_text, tag.ofText_inner]
  dsimp only
  rw [rest, last, ← List.length_append]
  rfl

/-- Events that report what is wrong, and bring nothing. -/
def Reports (events : List Event) : Prop :=
  ∀ event ∈ events, ∃ diagnostic, event = .problem diagnostic

theorem Reports.append {events later : List Event} (first : Reports events)
    (second : Reports later) : Reports (events ++ later) := fun event member =>
  (List.mem_append.mp member).elim (first event) (second event)

theorem Reports.openings_eq {events : List Event} (reports : Reports events) :
    events.flatMap openings = [] := by
  rw [List.flatMap_eq_nil_iff]
  intro event member
  obtain ⟨diagnostic, rfl⟩ := reports event member
  rfl

/-- The events of an opening tag: reports, and then the tag or its element.  An element that is
terminated here ends where the construct does. -/
inductive OpensWith (first : Location) (tag : TagText) : List Event × Nat → Prop
  | opened (reports : List Event) (quiet : Reports reports) :
      OpensWith first tag (reports ++ [.opened (tag.tagOf first)],
        (tag.written ++ (Piece.lexemes tag.pieces ++ tag.stop.mark)).length)
  | whole (reports : List Event) (quiet : Reports reports) (ending : TagEnd) (length : Nat)
      (outer : ending = .unterminated ∨
        (⟨tag.tagOf first, ending, []⟩ : Element).outer? =
          some ⟨first, first.advance ('<' :: tag.text.take length)⟩)
      (raw : ∀ region, ending = .closed region → rawNames.contains tag.name.base.lower = true) :
      OpensWith first tag
        (reports ++ [.leaf (.element (tag.tagOf first) ending [])], length)

theorem reports_malformed (first : Location) (tag : TagText) : Reports (malformed first tag) := by
  unfold malformed
  intro event member
  split at member
  · cases member
  · cases member
  · exact ⟨_, List.mem_singleton.mp member⟩

theorem opensWith_openingTag (first : Location) (tag : TagText) :
    OpensWith first tag (openingTag first tag.text) := by
  have own : tag.text.take (tag.written ++ (Piece.lexemes tag.pieces ++ tag.stop.mark)).length =
      tag.written ++ (Piece.lexemes tag.pieces ++ tag.stop.mark) := by
    have all := take_text tag 0
    simpa using all
  have quiet := reports_malformed first tag
  have outer : ∀ ending, (ending = .selfClosing ∨ ending = .void) →
      (⟨tag.tagOf first, ending, []⟩ : Element).outer? = some ⟨first, first.advance ('<' ::
        tag.text.take (tag.written ++ (Piece.lexemes tag.pieces ++ tag.stop.mark)).length)⟩ := by
    rw [own]
    rintro ending (rfl | rfl)
    · rfl
    · rfl
  rw [openingTag_text]
  split
  · exact .whole _ quiet _ _ (.inr (outer _ (.inl rfl))) (by rintro _ ⟨⟩)
  split
  · exact .whole _ quiet _ _ (.inr (outer _ (.inr rfl))) (by rintro _ ⟨⟩)
  split
  · next raw =>
      split
      · next closing taken found =>
          refine .whole _ quiet _ _ (.inr ?_) fun _ _ => (Bool.and_eq_true_iff.mp raw).2
          unfold rawEnd? at found
          dsimp only at found
          split at found
          · cases found
          · obtain ⟨rfl, rfl⟩ := Prod.mk.inj (Option.some.inj found)
            rw [take_text]
            simp [Element.outer?, Location.advance_append, Location.advance_cons, TagText.tagOf,
              TagText.opening]
      · rw [List.append_cons]
        refine .whole _ (quiet.append ?_) _ _ (.inl rfl) (by rintro _ ⟨⟩)
        intro event member
        exact ⟨_, List.mem_singleton.mp member⟩
  · exact .opened _ quiet

/-- What brings an opening tag behind reports comes last. -/
theorem Reports.last {reports former latter : List Event} {event last : Event}
    (quiet : Reports reports) (brings : reports ++ [last] = former ++ event :: latter)
    (opens : event.openings ≠ []) : event = last ∧ former = reports ∧ latter = [] := by
  rcases List.eq_nil_or_concat latter with rfl | ⟨others, end', rfl⟩
  · obtain ⟨same, single⟩ := List.append_inj' brings rfl
    exact ⟨(List.cons.inj single).1.symm, same.symm, rfl⟩
  · rw [List.concat_eq_append, ← List.cons_append, ← List.append_assoc] at brings
    obtain ⟨same, -⟩ := List.append_inj' brings rfl
    obtain ⟨diagnostic, rfl⟩ := quiet event (by rw [same]; simp)
    exact absurd rfl opens

section

variable {location : Location} {text front rest : Text}
  {before after early former latter : List Event} {event : Event}

/-- What brings opening tags is an opening tag. -/
theorem BroughtAt.opens
    (brought : BroughtAt location text before event after front rest early former latter)
    (opens : event.openings ≠ []) :
    ∃ tag : TagText, tag.text = rest ∧
      OpensWith (location.advance front) tag (construct (location.advance front) rest) := by
  have named := brought.named opens
  obtain ⟨tag, rfl⟩ := TagText.exists_tagText named
  refine ⟨tag, rfl, ?_⟩
  rw [construct_of_name named]
  exact opensWith_openingTag _ tag

/-- The tag of an element that goes on behind its opening tag. -/
theorem BroughtAt.opened {tag : Tag}
    (brought : BroughtAt location text before (.opened tag) after front rest early former latter) :
    ∃ written : TagText, written.text = rest ∧ tag = written.tagOf (location.advance front) ∧
      Reports former ∧
      (construct (location.advance front) rest).2 =
        (written.written ++ (Piece.lexemes written.pieces ++ written.stop.mark)).length ∧
      latter = [] := by
  obtain ⟨written, rfl, opens⟩ := brought.opens (by simp [openings])
  have brings := brought.brings
  generalize construct (location.advance front) written.text = parts at *
  cases opens with
  | opened reports quiet =>
      obtain ⟨same, rfl, rfl⟩ := quiet.last brings (by simp [openings])
      exact ⟨written, rfl, Event.opened.inj same, quiet, rfl, rfl⟩
  | whole reports quiet ending length outer raw =>
      obtain ⟨same, -, -⟩ := quiet.last brings (by simp [openings])
      cases same

/-- The tag of an element that is read at once. -/
theorem BroughtAt.whole {tag : Tag} {ending : TagEnd} {children : List Node}
    (brought : BroughtAt location text before (.leaf (.element tag ending children)) after front
      rest early former latter) :
    ∃ written : TagText, written.text = rest ∧ tag = written.tagOf (location.advance front) ∧
      children = [] ∧ Reports former ∧
      (ending = .unterminated ∨ (⟨tag, ending, children⟩ : Element).outer? =
        some ⟨location.advance front, (location.advance front).advance
          ('<' :: rest.take (construct (location.advance front) rest).2)⟩) ∧
      (∀ region, ending = .closed region → rawNames.contains tag.name.base.lower = true) ∧
      latter = [] := by
  obtain ⟨written, rfl, opens⟩ := brought.opens (by simp [openings, Node.openings,
    Node.elementsOf, Node.elements])
  have brings := brought.brings
  generalize construct (location.advance front) written.text = parts at *
  cases opens with
  | opened reports quiet =>
      obtain ⟨same, -, -⟩ := quiet.last brings (by simp [openings, Node.openings,
        Node.elementsOf, Node.elements])
      cases same
  | whole reports quiet ending length outer raw =>
      obtain ⟨same, rfl, rfl⟩ := quiet.last brings (by simp [openings, Node.openings,
        Node.elementsOf, Node.elements])
      cases same
      exact ⟨written, rfl, rfl, rfl, quiet, outer, raw, rfl⟩

theorem closed_not_mem_unlessClosed (part : Enclosed) (problem : Problem) (place : Region)
    (name : Text) (region : Region) : .closed name region ∉ unlessClosed part problem place := by
  unfold unlessClosed
  split <;> simp

/-- Only a closing tag closes an element. -/
theorem closingTag_of_closed {first : Location} {text : Text} {name : Text} {region : Region}
    (member : .closed name region ∈ (construct first text).1) :
    text.head? = some '/' ∧ construct first text = closingTag first text := by
  have single : ∀ {node : Node} {part : Enclosed} {problem : Problem} {place : Region},
      Event.closed name region ∉ unlessClosed part problem place ++ [.leaf node] := by
    intro node part problem place present
    rcases List.mem_append.mp present with reported | last
    · exact closed_not_mem_unlessClosed _ _ _ _ _ reported
    · cases List.mem_singleton.mp last
  cases text with
  | nil => cases member
  | cons char rest =>
      by_cases percent : '%' = char
      · subst percent
        rw [construct_percent] at member
        split at member
        · exact absurd member single
        split at member
        · exact absurd member single
        · exact absurd member single
      by_cases exclamation : '!' = char
      · subst exclamation
        rw [construct_exclamation] at member
        split at member
        · exact absurd member single
        · cases List.mem_singleton.mp member
      rw [construct_unmarked percent exclamation] at member ⊢
      split at member
      · next closing =>
          rw [if_pos closing, closing.1]
          exact ⟨rfl, rfl⟩
      split at member
      · next starts =>
          obtain ⟨written, text_eq⟩ := @TagText.exists_tagText (char :: rest) starts
          have opens := opensWith_openingTag first written
          rw [text_eq] at opens
          generalize openingTag first (char :: rest) = parts at opens member
          have last : ∀ reports : List Event, Reports reports → ∀ event,
              .closed name region ∈ reports ++ [event] → event = .closed name region := by
            intro reports quiet event present
            rcases List.mem_append.mp present with reported | last
            · obtain ⟨_, same⟩ := quiet _ reported
              cases same
            · exact (List.mem_singleton.mp last).symm
          cases opens with
          | opened reports quiet => cases last reports quiet _ member
          | whole reports quiet => cases last reports quiet _ member
      · cases member

/-- The closing tag that closes an element. -/
theorem BroughtAt.closed {name : Text} {region : Region}
    (brought : BroughtAt location text before (.closed name region) after front rest early former
      latter) :
    rest.head? = some '/' ∧
      region = regionOf (location.advance front) rest (construct (location.advance front) rest).2 ∧
      former = [] ∧ latter = [] := by
  have brings := brought.brings
  obtain ⟨slash, closes⟩ := closingTag_of_closed
    (show .closed name region ∈ (construct (location.advance front) rest).1 by
      rw [brings]
      simp)
  rw [closes] at brings ⊢
  unfold closingTag at brings
  dsimp only at brings
  rcases List.singleton_eq_append_iff.mp brings with ⟨rfl, same⟩ | ⟨_, same⟩
  · obtain ⟨same, rfl⟩ := List.cons.inj same
    cases same
    exact ⟨slash, rfl, rfl, rfl⟩
  · cases same

end

/-- Elements that are read at once hold nothing. -/
theorem childless_events (text : Text) : Childless (events text) := by
  intro tag ending children member
  obtain ⟨before, after, found⟩ := List.append_of_mem member
  obtain ⟨_, _, _, _, _, brought⟩ := exists_construct found
  obtain ⟨_, _, _, none', _⟩ := brought.whole
  exact none'

end Event

namespace Tree

/-- The text between the tags of an element. -/
def content (tree : Tree) (element : Element) : Text :=
  match element.ending with
  | .closed closing => tree.slice element.region.last closing.first
  | _ => []

/-! ## The three parts of a text -/

/-- A terminated element cuts its text in three, and its tree as well: elements in front of it,
itself with what it holds, and elements behind it. -/
structure Extent (text : Text) (former latter : List Element) (element : Element)
    (front inner back : Text) : Prop where
  text_eq : text = front ++ (inner ++ back)
  outer_eq : element.outer? =
    some ⟨Location.start.advance front, Location.start.advance (front ++ inner)⟩
  begins : ∃ early, Event.Begins .start front early ∧
    early.flatMap Event.openings = former.map Element.opening
  starts : (inner ++ back).head? = some '<'
  behind : (Event.eventsFrom (Location.start.advance (front ++ inner)) 0 back).flatMap
    Event.openings = latter.map Element.opening

theorem exists_extent {text : Text} {former rest : List Element} {element : Element}
    {region : Region} (split : (parse text).elements = former ++ element :: rest)
    (outer : element.outer? = some region) :
    ∃ front inner back latter, rest = element.descendants ++ latter ∧
      Extent text former latter element front inner back := by
  obtain ⟨before, after, latter, rfl, brings, remains, places⟩ :=
    (spells_parse text).place (Event.childless_events text) split
  cases places with
  | whole childless shape =>
      obtain ⟨front, rest, early, reports, others, brought⟩ := Event.exists_construct shape
      obtain ⟨written, rfl, tagEq, -, quiet, ends, -, rfl⟩ := brought.whole
      obtain ⟨tag, ending, children⟩ := element
      dsimp only at *
      subst childless
      rcases ends with rfl | ends
      · cases outer
      have later := brought.after_eq
      generalize (Event.construct (Location.start.advance front) written.text).2 = taken at *
      rw [← Location.advance_append] at ends
      refine ⟨front, '<' :: written.text.take taken, written.text.drop taken, latter, rfl, ?_, ends,
        ⟨early, brought.begins, ?_⟩, rfl, ?_⟩
      · rw [brought.text_eq, List.cons_append, List.take_append_drop]
      · rw [← brings, brought.before_eq, List.flatMap_append, quiet.openings_eq, List.append_nil]
      · rw [List.nil_append] at later
        rw [← later, remains]
  | closed inside name closing ending holds shape =>
      obtain ⟨front, rest, early, reports, others, brought⟩ := Event.exists_construct shape
      obtain ⟨written, rfl, tagEq, quiet, -, rfl⟩ := brought.opened
      have later := brought.after_eq
      have wholeText := brought.text_eq
      generalize (Event.construct (Location.start.advance front) written.text).2 = taken at *
      rw [List.nil_append] at later
      obtain ⟨front', rest', early', reports', others', brought'⟩ :=
        Event.exists_construct later.symm
      obtain ⟨-, closingEq, rfl, rfl⟩ := brought'.closed
      have later' := brought'.after_eq
      rw [List.nil_append] at later'
      simp only [← Location.advance_append] at closingEq later'
      generalize (Event.construct (Location.start.advance
        (front ++ '<' :: written.text.take taken ++ front')) rest').2 = taken' at *
      unfold Event.regionOf at closingEq
      rw [← Location.advance_append] at closingEq
      have reached : front ++ ('<' :: (written.text.take taken ++ front') ++
          '<' :: rest'.take taken') =
          front ++ '<' :: written.text.take taken ++ front' ++ '<' :: rest'.take taken' := by
        simp
      refine ⟨front, '<' :: (written.text.take taken ++ front') ++ '<' :: rest'.take taken',
        rest'.drop taken', latter, rfl, ?_, ?_, ⟨early, brought.begins, ?_⟩, rfl, ?_⟩
      · have cut : written.text = written.text.take taken ++ (front' ++ '<' :: rest') := by
          rw [← brought'.text_eq, List.take_append_drop]
        rw [wholeText]
        conv_lhs => rw [cut]
        simp
      · unfold Element.outer?
        rw [ending, reached, closingEq, tagEq]
        rfl
      · rw [← brings, brought.before_eq, List.flatMap_append, quiet.openings_eq, List.append_nil]
      · rw [reached, ← remains, later']
        simp
  | unterminated ending =>
      unfold Element.outer? at outer
      rw [ending] at outer
      cases outer

/-- The closing tag of an element that holds markup stands behind a beginning of the text. -/
theorem exists_closing {text : Text} {element : Element} {closing : Region}
    (member : element ∈ (parse text).elements) (closed : element.closing? = some closing)
    (parsed : Event.rawNames.contains element.name.base.lower = false) :
    ∃ front rest early, text = front ++ '<' :: rest ∧ Event.Begins .start front early ∧
      closing.first = Location.start.advance front := by
  obtain ⟨former, rest, split⟩ := List.append_of_mem member
  obtain ⟨before, after, latter, -, -, -, places⟩ :=
    (spells_parse text).place (Event.childless_events text) split
  have ends : element.ending = .closed closing := by
    unfold Element.closing? at closed
    split at closed
    · next region ending =>
        cases closed
        exact ending
    · cases closed
  cases places with
  | whole childless shape =>
      obtain ⟨_, _, _, _, _, brought⟩ := Event.exists_construct shape
      obtain ⟨_, _, _, _, _, _, raw, _⟩ := brought.whole
      rw [raw closing ends] at parsed
      cases parsed
  | closed inside name region ending holds shape =>
      rw [ending] at ends
      cases ends
      have shape' : Event.events text =
          (before ++ .opened element.toTag :: inside) ++ .closed name closing :: after := by
        rw [shape]
        simp
      obtain ⟨front, rest, early, _, _, brought⟩ := Event.exists_construct shape'
      obtain ⟨-, rfl, -, -⟩ := brought.closed
      exact ⟨front, rest, early, brought.text_eq, brought.begins, rfl⟩
  | unterminated ending =>
      rw [ending] at ends
      cases ends

end Tree

end PageDesigner
