import PageDesigner.Proofs.Document.Drawing
import PageDesigner.Proofs.Markup.Stretches

/-!
# Closing tags

An element is closed by the first closing tag that can close it.  Of an element with markup
between its tags this is the first one of its name that closes no element inside of it
(`Event.Nests.closes`, `Event.Nests.exists_of_closed`).  Raw text ends at the first mark
of the element, `</` and the name, whatever stands behind the mark (`Event.exists_rawEnd`), so
the closing tag of a script or a style can have a longer name.
-/

namespace PageDesigner

namespace Text

/-- A mark begins nowhere in front of the place where it is found. -/
theorem not_prefix_of_cut? {mark text content behind : Text}
    (found : cut? mark text = some (content, behind)) {earlier later : Text}
    (split : text = earlier ++ later) (inFront : earlier.length < content.length) :
    ¬ mark <+: later := by
  induction text generalizing content earlier with
  | nil =>
      obtain ⟨rfl, rfl⟩ := List.append_eq_nil_iff.mp split.symm
      unfold cut? at found
      split at found
      · obtain ⟨rfl, -⟩ := Prod.mk.inj (Option.some.inj found)
        exact absurd inFront (Nat.lt_irrefl _)
      · cases found
  | cons char rest ih =>
      unfold cut? at found
      split at found
      · obtain ⟨rfl, -⟩ := Prod.mk.inj (Option.some.inj found)
        exact absurd inFront (Nat.not_lt_zero _)
      · next absent =>
          obtain ⟨⟨further, behind'⟩, cut, pair⟩ := Option.map_eq_some_iff.mp found
          obtain ⟨rfl, rfl⟩ := Prod.mk.inj pair
          cases earlier with
          | nil =>
              obtain rfl : char :: rest = later := split
              exact fun starts => absent (List.isPrefixOf_iff_prefix.mpr starts)
          | cons head earlier =>
              obtain ⟨rfl, split'⟩ := List.cons.inj split
              exact ih cut split' (Nat.lt_of_succ_lt_succ inFront)

end Text

/-- Letter case does not decide whether a character continues a name. -/
theorem continuesName_toLower (char : Char) :
    continuesName char.toLower = continuesName char := by
  cases capital : char.isUpper with
  | false => rw [Text.toLower_of_not_isUpper capital]
  | true =>
      unfold continuesName Char.isAlphanum
      rw [Text.isAlpha_toLower capital, Text.isAlpha_of_isUpper capital]
      rfl

theorem all_continuesName_of_sameName {name other : Text} (same : name.sameName other = true)
    (word : other.all continuesName = true) : name.all continuesName = true := by
  have small : ∀ text : Text, text.lower.all continuesName = text.all continuesName := by
    intro text
    rw [Text.lower, List.all_map]
    exact congrArg (text.all ·) (funext continuesName_toLower)
  rw [← small, Text.sameName_iff.mp same, small, word]

namespace Event

/-! ## Which closing tag ends an element -/

/-- A closing tag with the name of an element that is open closes one that was opened since. -/
theorem Nests.exists_of_closed {outer : List Tag} {events : List Event} {nodes : List Node}
    (nests : Nests outer events nodes) {tag : Tag} (open' : tag ∈ outer) {name : Text}
    {region : Region} (member : .closed name region ∈ events)
    (named : tag.name.isWritten name = true) :
    ∃ element ∈ Node.elementsOf nodes,
      element.ending = .closed region ∧ element.name.isWritten name = true := by
  induction nests with
  | nil => cases member
  | problem => cases List.mem_singleton.mp member
  | leaf => cases List.mem_singleton.mp member
  | append first second ih ih' =>
      rw [Node.elementsOf_append]
      rcases List.mem_append.mp member with here | later
      · obtain ⟨element, inside, closes⟩ := ih open' here
        exact ⟨element, List.mem_append_left _ inside, closes⟩
      · obtain ⟨element, inside, closes⟩ := ih' open' later
        exact ⟨element, List.mem_append_right _ inside, closes⟩
  | stray alone =>
      obtain ⟨rfl, -⟩ := Event.closed.inj (List.mem_singleton.mp member)
      rw [alone tag open'] at named
      cases named
  | @closed _ opened _ children inner name' named' region' ih =>
      rw [Node.elementsOf_element]
      rcases List.mem_cons.mp member with same | later
      · cases same
      rcases List.mem_append.mp later with inside | last
      · obtain ⟨element, below, closes⟩ := ih (List.mem_cons_of_mem _ open') inside
        exact ⟨element, List.mem_cons_of_mem _ below, closes⟩
      · obtain ⟨rfl, rfl⟩ := Event.closed.inj (List.mem_singleton.mp last)
        exact ⟨_, List.mem_cons_self, rfl, named'⟩
  | @unterminated _ opened _ children inner ih =>
      rw [Node.elementsOf_element]
      rcases List.mem_cons.mp member with same | inside
      · cases same
      · obtain ⟨element, below, closes⟩ := ih (List.mem_cons_of_mem _ open') inside
        exact ⟨element, List.mem_cons_of_mem _ below, closes⟩

theorem Childless.part {events others : List Event} (childless : Childless others)
    (part : events <:+: others) : Childless events := fun tag ending children member =>
  childless tag ending children (part.subset member)

/-- How an element is closed among some events: it is read at once, or a closing tag of its name
closes it, the first one behind its opening tag that closes no element inside of it. -/
inductive Closes (events : List Event) (element : Element) (closing : Region) : Prop
  | whole (member : .leaf (.element element.toTag (.closed closing) []) ∈ events)
  | tagged (name : Text) (before inside after : List Event)
      (events_eq : events =
        before ++ .opened element.toTag :: (inside ++ .closed name closing :: after))
      (named : element.name.isWritten name = true)
      (first : ∀ other region, .closed other region ∈ inside →
        element.name.isWritten other = true → ∃ inner ∈ element.descendants,
          inner.ending = .closed region ∧ inner.name.isWritten other = true)

theorem Closes.extend {events others : List Event} {element : Element} {closing : Region}
    (closes : Closes events element closing) (part : events <:+: others) :
    Closes others element closing := by
  cases closes with
  | whole member => exact .whole (part.subset member)
  | tagged name before inside after events_eq named first =>
      obtain ⟨former, latter, rfl⟩ := part
      refine .tagged name (former ++ before) inside (after ++ latter) ?_ named first
      rw [events_eq]
      simp

/-- Every closed element is closed by a tag of its name, or read at once. -/
theorem Nests.closes {outer : List Tag} {events : List Event} {nodes : List Node}
    (nests : Nests outer events nodes) (childless : Childless events) {element : Element}
    (member : element ∈ Node.elementsOf nodes) {closing : Region}
    (ends : element.ending = .closed closing) : Closes events element closing := by
  induction nests with
  | nil => cases member
  | problem => cases member
  | stray => cases member
  | @append _ events later _ _ first second ih ih' =>
      rw [Node.elementsOf_append] at member
      rcases List.mem_append.mp member with inFront | behind
      · have part := (List.prefix_append events later).isInfix
        exact (ih (childless.part part) inFront).extend part
      · have part := (List.suffix_append events later).isInfix
        exact (ih' (childless.part part) behind).extend part
  | leaf node =>
      cases node with
      | element tag ending children =>
          obtain rfl := childless tag ending children List.mem_cons_self
          obtain rfl := List.mem_singleton.mp member
          dsimp only at ends
          rw [ends]
          exact .whole List.mem_cons_self
      | _ => simp [Node.elementsOf, Node.elements] at member
  | @closed _ tag inner children nests name named region ih =>
      rw [Node.elementsOf_element] at member
      rcases List.mem_cons.mp member with rfl | below
      · obtain rfl := TagEnd.closed.inj ends
        exact .tagged name [] inner [] rfl named fun other region inside same =>
          nests.exists_of_closed List.mem_cons_self inside same
      · have part : inner <:+: .opened tag :: (inner ++ [.closed name region]) :=
          ⟨[.opened tag], [.closed name region], rfl⟩
        exact (ih (childless.part part) below).extend part
  | @unterminated _ tag inner children nests ih =>
      rw [Node.elementsOf_element] at member
      rcases List.mem_cons.mp member with rfl | below
      · cases ends
      · have part : inner <:+: .opened tag :: inner := (List.suffix_cons _ _).isInfix
        exact (ih (childless.part part) below).extend part

/-! ## Where a closing tag stands -/

theorem holdsText_of_holdsMarkup {name : Name} (holds : holdsMarkup name = true) :
    holdsText name = false := by
  unfold holdsMarkup at holds
  unfold holdsText
  cases qualified : name.isQualified with
  | true => rfl
  | false =>
      rw [qualified, Bool.false_or] at holds
      simp only [List.contains_append, Bool.not_or, Bool.and_eq_true] at holds
      simpa using holds.2

/-- A closing tag takes all the name characters that come first. -/
theorem take_closingTag (first : Location) (more : Text) :
    ∃ tail back, more = more.takeWhile continuesName ++ (tail ++ back) ∧
      ('/' :: more).take (closingTag first ('/' :: more)).2 =
        '/' :: (more.takeWhile continuesName ++ tail) ∧
      tail.head?.any continuesName = false := by
  have named : ('/' :: more).take (1 + (more.takeWhile continuesName).length) =
      '/' :: more.takeWhile continuesName := by
    rw [Nat.add_comm, List.take_succ_cons, ← List.prefix_iff_eq_take.mp (List.takeWhile_prefix _)]
  obtain ⟨through, taken⟩ := exists_take_enclosed (1 + (more.takeWhile continuesName).length) ">"
    ('/' :: more)
  unfold closingTag lengthThrough
  rw [List.drop_one, List.tail_cons]
  dsimp only
  generalize enclosed (1 + (more.takeWhile continuesName).length) ">" ('/' :: more) = part at *
  generalize part.content ++ through = tail at taken
  rw [named, List.cons_append] at taken
  have whole := List.take_append_drop part.length ('/' :: more)
  rw [taken, List.cons_append, List.append_assoc] at whole
  obtain ⟨-, split⟩ := List.cons.inj whole
  refine ⟨tail, _, split.symm, taken, ?_⟩
  -- What is left behind the name characters begins with the rest of the tag.
  have behind := List.append_cancel_left (split.trans List.takeWhile_append_dropWhile.symm)
  have stops := Piece.stops_dropWhile continuesName more
  rw [← behind] at stops
  cases tail with
  | nil => rfl
  | cons head tail => exact stops

section

variable {location : Location} {text front rest : Text}
  {before after early former latter : List Event}

/-- An element that a closing tag ends has markup between its tags. -/
theorem BroughtAt.holdsMarkup {tag : Tag}
    (brought : BroughtAt location text before (.opened tag) after front rest early former latter) :
    Event.holdsMarkup tag.name = true := by
  have yields := yields_construct (location.advance front) rest
  have brings := brought.brings
  generalize construct (location.advance front) rest = parts at yields brings
  cases yields with
  | nothing =>
      obtain ⟨-, none'⟩ := List.append_eq_nil_iff.mp brings.symm
      cases none'
  | mark quiet stands =>
      obtain ⟨same, -, -⟩ := quiet.last brings (by simp [openings])
      rw [← same] at stands
      cases stands with
      | opened tag holds whole => exact holds

/-- A closing tag is `</`, all the name characters behind it, and what stands up to its end. -/
theorem BroughtAt.closing_text {name : Text} {closing : Region}
    (brought : BroughtAt location text before (.closed name closing) after front rest early former
      latter) :
    ∃ tail back, text = front ++ (('<' :: '/' :: (name ++ tail)) ++ back) ∧
      closing = ⟨location.advance front,
        location.advance (front ++ '<' :: '/' :: (name ++ tail))⟩ ∧
      name.all continuesName = true ∧ tail.head?.any continuesName = false := by
  obtain ⟨slash, placed, -, -⟩ := brought.closed
  have brings := brought.brings
  obtain ⟨-, closes⟩ := closingTag_of_closed
    (show .closed name closing ∈ (construct (location.advance front) rest).1 by
      rw [brings]
      simp)
  obtain ⟨more, rfl⟩ : ∃ more, rest = '/' :: more := ⟨_, Piece.head?_eq_some_cons slash⟩
  obtain ⟨tail, back, split, taken, stops⟩ := take_closingTag (location.advance front) more
  rw [closes] at brings placed
  obtain rfl : more.takeWhile continuesName = name := by
    rcases List.singleton_eq_append_iff.mp brings with ⟨-, same⟩ | ⟨-, same⟩
    · exact (Event.closed.inj (List.cons.inj same).1).1.symm
    · cases same
  refine ⟨tail, back, ?_, ?_, List.all_takeWhile, stops⟩
  · rw [brought.text_eq]
    exact congrArg (front ++ '<' :: '/' :: ·) (split.trans (List.append_assoc _ _ _).symm)
  · rw [placed, regionOf, taken, Location.advance_append]

end

/-! ## Where raw text ends -/

/-- Only an opening tag whose element holds raw text is read with its closing tag. -/
theorem raw_of_openingTag {first : Location} {tag : TagText} {stated : Tag} {closing : Region}
    {children : List Node}
    (member : .leaf (.element stated (.closed closing) children) ∈ (openingTag first tag.text).1) :
    stated = tag.tagOf first ∧ holdsText tag.name = true ∧
      ∃ taken, rawEnd? tag.name.base.lower (first.advance tag.opening) tag.behind =
        some (closing, taken) := by
  have quiet := reports_malformed first tag
  have last : ∀ {events : List Event},
      .leaf (.element stated (.closed closing) children) ∈ malformed first tag ++ events →
      .leaf (.element stated (.closed closing) children) ∈ events := by
    intro events present
    rcases List.mem_append.mp present with reported | later
    · obtain ⟨_, same⟩ := quiet _ reported
      cases same
    · exact later
  rw [openingTag_text] at member
  split at member
  · cases List.mem_singleton.mp (last member)
  split at member
  · cases List.mem_singleton.mp (last member)
  split at member
  · next raw =>
      split at member
      · next closing' taken found =>
          cases List.mem_singleton.mp (last member)
          exact ⟨rfl, raw, taken, found⟩
      · have present := last member
        simp at present
  · cases List.mem_singleton.mp (last member)

/-- What is a mark in small letters is a mark with a name. -/
theorem exists_of_lower_mark {mark base : Text} (small : mark.lower = '<' :: '/' :: base) :
    ∃ named, mark = '<' :: '/' :: named ∧ Text.lower named = base := by
  obtain ⟨less, _, rfl, less', rest⟩ := List.map_eq_cons_iff.mp small
  obtain ⟨slash, named, rfl, slash', named'⟩ := List.map_eq_cons_iff.mp rest
  rw [eq_of_toLower (by decide) less', eq_of_toLower (by decide) slash']
  exact ⟨named, rfl, named'⟩

/-- Raw text ends at the first mark of its element, and the closing tag goes on to its end. -/
theorem exists_rawEnd {name : Name} (raw : holdsText name = true) {location : Location}
    {text : Text} {closing : Region} {taken : Nat}
    (found : rawEnd? name.base.lower location text = some (closing, taken)) :
    ∃ content named tail back : Text,
      text = content ++ (('<' :: '/' :: (named ++ tail)) ++ back) ∧
      closing = ⟨location.advance content,
        location.advance (content ++ '<' :: '/' :: (named ++ tail))⟩ ∧
      named.sameName name.base = true ∧
      ∃ behind, Text.cut? (endMark name) text.lower = some (content.lower, behind) := by
  unfold rawEnd? at found
  dsimp only at found
  split at found
  · cases found
  next inside behind cut =>
  obtain ⟨rfl, -⟩ := Prod.mk.inj (Option.some.inj found)
  rw [lower_of_holdsText raw] at cut ⊢
  -- The text in small letters is cut where the text is.
  obtain ⟨upTo, rest, rfl, upTo', -⟩ := List.map_eq_append_iff.mp (Text.append_of_cut? cut)
  obtain ⟨content, mark, rfl, rfl, mark'⟩ := List.map_eq_append_iff.mp upTo'
  have size := congrArg List.length mark'
  rw [List.length_map] at size
  obtain ⟨named, rfl, named'⟩ := exists_of_lower_mark mark'
  rw [← size, List.length_map, ← List.length_append]
  obtain ⟨more, taken⟩ := exists_take_enclosed (content ++ '<' :: '/' :: named).length ">"
    (content ++ '<' :: '/' :: named ++ rest)
  unfold lengthThrough
  generalize enclosed (content ++ '<' :: '/' :: named).length ">"
    (content ++ '<' :: '/' :: named ++ rest) = part at *
  rw [List.take_left] at taken
  refine ⟨content, named, part.content ++ more,
    (content ++ '<' :: '/' :: named ++ rest).drop part.length, ?_, ?_, Text.sameName_iff.mpr named',
    behind, cut⟩
  · have split := List.take_append_drop part.length (content ++ '<' :: '/' :: named ++ rest)
    rw [taken] at split
    conv_lhs => rw [← split]
    simp
  · rw [taken]
    simp

/-- Nowhere in front of the closing tag of raw text stands a mark of its element. -/
theorem not_mark_before {name : Text} (raw : holdsText (Name.ofText name) = true)
    {content markup back behind : Text}
    (cut : Text.cut? (endMark (Name.ofText name)) (Text.lower (content ++ (markup ++ back))) =
      some (content.lower, behind))
    {earlier later : Text} (split : content ++ markup = earlier ++ later)
    (inFront : earlier.length < content.length) {other : Text}
    (same : other.sameName name = true) : ¬ '<' :: '/' :: other <+: later := by
  intro starts
  have whole : Text.lower (content ++ (markup ++ back)) =
      earlier.lower ++ Text.lower (later ++ back) := by
    rw [← List.append_assoc, split, List.append_assoc, Text.lower_append]
  have inFront' : earlier.lower.length < content.lower.length := by
    rw [Text.length_lower, Text.length_lower]
    exact inFront
  have mark : Text.lower ('<' :: '/' :: name) = Text.lower ('<' :: '/' :: other) :=
    congrArg (Text.lower ['<', '/'] ++ ·) (Text.sameName_iff.mp same).symm
  refine Text.not_prefix_of_cut? cut whole inFront' ?_
  rw [endMark_ofText raw, mark, Text.lower_append]
  exact (starts.map _).trans (List.prefix_append _ _)

/-- Where an element with raw text stands in a text: its opening tag, its content, and a closing tag
that begins with the mark of the element, as none does in front of it. -/
structure RawAt (text : Text) (stated : Tag) (closing : Region) (front : Text) (tag : TagText)
    (content named tail back : Text) : Prop where
  raw : holdsText tag.name = true
  stated_eq : stated = tag.tagOf (Location.start.advance front)
  text_eq : text = front ++ (tag.opening ++ (content ++ (('<' :: '/' :: (named ++ tail)) ++ back)))
  closing_eq : closing = ⟨Location.start.advance (front ++ tag.opening ++ content),
    Location.start.advance (front ++ tag.opening ++ content ++ '<' :: '/' :: (named ++ tail))⟩
  same : named.sameName tag.written = true
  first : ∃ behind, Text.cut? (endMark tag.name)
    (Text.lower (content ++ (('<' :: '/' :: (named ++ tail)) ++ back))) =
      some (content.lower, behind)

/-- Every closed element that is read at once holds raw text. -/
theorem exists_raw {text : Text} {stated : Tag} {closing : Region} {children : List Node}
    (member : .leaf (.element stated (.closed closing) children) ∈ events text) :
    ∃ front tag content named tail back,
      RawAt text stated closing front tag content named tail back := by
  obtain ⟨before, after, events_eq⟩ := List.append_of_mem member
  obtain ⟨front, rest, _, _, _, brought⟩ := exists_construct events_eq
  obtain ⟨tag, rfl, -⟩ := brought.opens (by simp [openings, Node.openings, Node.elementsOf,
    Node.elements])
  have present : .leaf (.element stated (.closed closing) children) ∈
      (construct (Location.start.advance front) tag.text).1 := by
    rw [brought.brings]
    simp
  rw [construct_of_name tag.head?_text] at present
  obtain ⟨stated_eq, raw, taken, found⟩ := raw_of_openingTag present
  obtain ⟨content, named, tail, back, behind, placed, same, cut⟩ := exists_rawEnd raw found
  have unqualified : tag.name.isQualified = false := by
    simpa using (Bool.and_eq_true_iff.mp raw).1
  refine ⟨front, tag, content, named, tail, back, raw, stated_eq, ?_, ?_, ?_, ?_⟩
  · rw [← behind, ← TagText.text_eq_opening]
    exact brought.text_eq
  · rw [placed]
    simp only [Location.advance_append]
  · rw [← Name.base_ofText unqualified]
    exact same
  · rw [← behind]
    exact cut

end Event

namespace Tree

/-- The source text of a region. -/
def excerpt (tree : Tree) (region : Region) : Text := tree.slice region.first region.last

end Tree

section

variable {text front content named tail back : Text} {element : Element} {closing : Region}
  {tag : TagText}
  (stands : Event.RawAt text element.toTag closing front tag content named tail back)

include stands

theorem Event.RawAt.content_eq (ends : element.ending = .closed closing) :
    (Tree.parse text).content element = content := by
  have source : (Tree.parse text).source =
      front ++ tag.opening ++ (content ++ (('<' :: '/' :: (named ++ tail)) ++ back)) :=
    stands.text_eq.trans (List.append_assoc _ _ _).symm
  have last : element.region.last = Location.start.advance (front ++ tag.opening) := by
    rw [Location.advance_append]
    exact congrArg (·.region.last) stands.stated_eq
  unfold Tree.content
  rw [ends]
  dsimp only
  rw [last, stands.closing_eq]
  exact Tree.slice_part source

theorem Event.RawAt.excerpt_eq :
    (Tree.parse text).excerpt closing = '<' :: '/' :: (named ++ tail) := by
  have source : (Tree.parse text).source =
      front ++ tag.opening ++ content ++ (('<' :: '/' :: (named ++ tail)) ++ back) := by
    rw [List.append_assoc, List.append_assoc]
    exact stands.text_eq
  rw [stands.closing_eq]
  exact Tree.slice_part source

end

namespace Tree

/-! ## The name in a closing tag -/

/-- The name in a closing tag: all the name characters behind its mark. -/
def closingName (markup : Text) : Text := (markup.drop 2).takeWhile continuesName

/-- A closing tag whose name begins with the name of an element has just this name if no name
character follows it. -/
theorem closingName_spec {named tail name : Text} (same : named.sameName name = true)
    (word : named.all continuesName = true) :
    let markup : Text := '<' :: '/' :: (named ++ tail)
    name.lower <+: (closingName markup).lower ∧
      ((closingName markup).sameName name = true ↔
        (markup.drop (2 + name.length)).head?.any continuesName = false) := by
  intro markup
  have small := Text.sameName_iff.mp same
  have size : named.length = name.length := by
    rw [← Text.length_lower named, small, Text.length_lower]
  have run : closingName markup = named ++ tail.takeWhile continuesName :=
    List.takeWhile_append_of_pos (List.all_eq_true.mp word)
  have behind : markup.drop (2 + name.length) = tail := by
    rw [← size, Nat.add_comm]
    exact List.drop_left
  rw [run, behind, Text.lower_append, small]
  refine ⟨List.prefix_append _ _, ?_⟩
  rw [Text.sameName_iff, Text.lower_append, small, List.append_right_eq_self, Text.lower,
    List.map_eq_nil_iff]
  cases tail with
  | nil => simp
  | cons head tail => simp [List.takeWhile_cons]

/-! ## The closing tag of an element -/

/-- A closing tag is the first one that can close the element.  Its name begins with that of the
element, up to letter case. -/
structure ClosedFirst (tree : Tree) (element : Element) (closing : Region) : Prop where
  mark : ("</" : Text) <+: tree.excerpt closing
  named : element.name.text.lower <+: (closingName (tree.excerpt closing)).lower
  /-- Each closing tag in between that has the name of the element closes one inside of it. -/
  tagged : Event.holdsText element.name = false →
    ∃ before inside after, Event.events tree.source = before ++ .opened element.toTag ::
        (inside ++ .closed (closingName (tree.excerpt closing)) closing :: after) ∧
      ∀ other region, .closed other region ∈ inside → element.name.isWritten other = true →
        ∃ inner ∈ element.descendants,
          inner.ending = .closed region ∧ inner.name.isWritten other = true
  /-- Nowhere in between stands `</` with the name of the element. -/
  raw : Event.holdsText element.name = true →
    ∀ earlier later, tree.content element ++ tree.excerpt closing = earlier ++ later →
      earlier.length < (tree.content element).length →
      ∀ name : Text, name.sameName element.name.text = true → ¬ '<' :: '/' :: name <+: later

variable {text : Text} {element : Element} {closing : Region}

/-- Whether the closing tag has the name of the element and no longer one. -/
def ClosedWholly (tree : Tree) (element : Element) (closing : Region) : Prop :=
  (closingName (tree.excerpt closing)).sameName element.name.text = true

/-- Whether a name character follows the mark of raw text, so that the closing tag has a longer name
than the element. -/
def Overruns (tree : Tree) (element : Element) (closing : Region) : Prop :=
  Event.holdsText element.name = true ∧
    ((tree.excerpt closing).drop (2 + element.name.text.length)).head?.any continuesName = true

instance (tree : Tree) (element : Element) (closing : Region) :
    Decidable (tree.Overruns element closing) :=
  inferInstanceAs (Decidable (_ ∧ _))

/-- A closing tag of its name closes an element that holds markup. -/
theorem closedFirst_of_tagged {name : Text} {before inside after : List Event}
    (events_eq : Event.events text =
      before ++ .opened element.toTag :: (inside ++ .closed name closing :: after))
    (named : element.name.isWritten name = true)
    (first : ∀ other region, .closed other region ∈ inside →
      element.name.isWritten other = true → ∃ inner ∈ element.descendants,
        inner.ending = .closed region ∧ inner.name.isWritten other = true) :
    (parse text).ClosedFirst element closing ∧
      ((parse text).ClosedWholly element closing ↔ ¬ (parse text).Overruns element closing) := by
  obtain ⟨_, _, _, _, _, opened⟩ := Event.exists_construct events_eq
  have notRaw := Event.holdsText_of_holdsMarkup opened.holdsMarkup
  have shape : Event.events text =
      (before ++ .opened element.toTag :: inside) ++ .closed name closing :: after := by
    rw [events_eq]
    simp
  obtain ⟨front, _, _, _, _, closed⟩ := Event.exists_construct shape
  obtain ⟨tail, back, whole, placed, word, stops⟩ := closed.closing_text
  have source : (parse text).source = front ++ (('<' :: '/' :: (name ++ tail)) ++ back) := whole
  have markup : (parse text).excerpt closing = '<' :: '/' :: (name ++ tail) := by
    rw [excerpt, placed]
    exact slice_part source
  have run : closingName ('<' :: '/' :: (name ++ tail)) = name := Piece.takeWhile_word word stops
  have same : name.sameName element.name.text = true :=
    (Text.sameName_comm _ _).trans named
  refine ⟨⟨?_, ?_, fun _ => ?_, fun raw => ?_⟩, ?_⟩
  · rw [markup]
    exact List.prefix_append ("</" : Text) _
  · rw [markup, run, Text.sameName_iff.mp same]
  · rw [markup, run]
    exact ⟨before, inside, after, events_eq, first⟩
  · rw [notRaw] at raw
    cases raw
  · unfold ClosedWholly Overruns
    rw [markup, run, notRaw]
    simp [same]

/-- Raw text is closed by the first mark of its element. -/
theorem closedFirst_of_whole
    (member : .leaf (.element element.toTag (.closed closing) []) ∈ Event.events text)
    (ends : element.ending = .closed closing) :
    (parse text).ClosedFirst element closing ∧
      ((parse text).ClosedWholly element closing ↔ ¬ (parse text).Overruns element closing) := by
  obtain ⟨front, tag, content, named, tail, back, stands⟩ := Event.exists_raw member
  have name : element.name.text = tag.written :=
    (congrArg (·.name.text) stands.stated_eq).trans (Name.text_ofText tag.written)
  have raw : Event.holdsText element.name = true :=
    (congrArg (·.name) stands.stated_eq) ▸ stands.raw
  have inner := stands.content_eq ends
  have markup := stands.excerpt_eq
  have spec := @closingName_spec named tail _ stands.same
    (all_continuesName_of_sameName stands.same tag.word)
  refine ⟨⟨?_, ?_, fun notRaw => ?_, fun _ earlier later split inFront other same => ?_⟩, ?_⟩
  · rw [markup]
    exact List.prefix_append ("</" : Text) _
  · rw [markup, name]
    exact spec.1
  · rw [raw] at notRaw
    cases notRaw
  · obtain ⟨_, cut⟩ := stands.first
    rw [inner] at inFront
    rw [inner, markup] at split
    rw [name] at same
    exact Event.not_mark_before stands.raw cut split inFront same
  · unfold ClosedWholly Overruns
    rw [markup, name, raw, spec.2]
    simp

/-- Every closed element is closed by the first closing tag that can close it.  This tag has the
whole name of the element, unless the element is a script or a style and a name character follows
the mark of its closing tag. -/
theorem closedFirst_parse (member : element ∈ (parse text).elements)
    (ends : element.ending = .closed closing) :
    (parse text).ClosedFirst element closing ∧
      ((parse text).ClosedWholly element closing ↔ ¬ (parse text).Overruns element closing) := by
  cases (nests_parse text).closes (Event.childless_events text) member ends with
  | whole member => exact closedFirst_of_whole member ends
  | tagged name before inside after events_eq named first =>
      exact closedFirst_of_tagged events_eq named first

/-- A script in front of a closing tag with a longer name. -/
def longerClosing : Text := "<script>a</scripts>b</script>"

/-- The longer closing tag closes the script. -/
theorem closedFirst_parse_longerClosing :
    ∃ element ∈ (parse longerClosing).elements,
      element.ending = .closed ⟨⟨1, 10⟩, ⟨1, 20⟩⟩ ∧
      (parse longerClosing).excerpt ⟨⟨1, 10⟩, ⟨1, 20⟩⟩ = "</scripts>" ∧
      (parse longerClosing).ClosedFirst element ⟨⟨1, 10⟩, ⟨1, 20⟩⟩ ∧
      ¬ (parse longerClosing).ClosedWholly element ⟨⟨1, 10⟩, ⟨1, 20⟩⟩ := by
  have reads : (parse longerClosing).elements.any (fun element =>
      decide (element.ending = .closed ⟨⟨1, 10⟩, ⟨1, 20⟩⟩) &&
        decide ((parse longerClosing).Overruns element ⟨⟨1, 10⟩, ⟨1, 20⟩⟩)) = true := by
    decide +kernel
  obtain ⟨element, member, holds⟩ := List.any_eq_true.mp reads
  obtain ⟨ends, overruns⟩ := Bool.and_eq_true_iff.mp holds
  obtain ⟨first, wholly⟩ := closedFirst_parse member (of_decide_eq_true ends)
  exact ⟨element, member, of_decide_eq_true ends, by decide +kernel, first,
    fun whole => wholly.mp whole (of_decide_eq_true overruns)⟩

end Tree

end PageDesigner
