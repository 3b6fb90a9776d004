import PageDesigner.Proofs.Markup.Stated

/-!
# Literal markup

A `Literal` is an element as one writes it down: a name and attributes, and between an
opening and a closing tag text and further elements.  Printed, it is read back as itself
(`Literal.parse_print`): the tree has its elements, each where it was printed, with the
values that were given, and nothing is reported.

The names of scripts and styles are left out, since what they hold is not markup, and so
are those of the head and the body, in which the designer puts markup of its own.
-/

namespace PageDesigner

/-! ## Elements -/

/-- Names of elements whose content is not shown as it is written. -/
def specialNames : List Text := ["script", "style", "head", "body"]

/-- The name of a literal element. -/
structure LiteralName where
  written : Text
  named : written.head?.any startsTagName = true
  word : written.all continuesName = true
  unprefixed : (Name.ofText written).isQualified = false
  plain : ∀ special ∈ specialNames, written.sameName special = false

/-- An attribute of a literal element, which is shown with any value. -/
structure LiteralAttribute where
  name : Text
  value : Text
  named : name.head?.any startsName = true
  word : name.all continuesName = true
  notRunat : name.sameName "runat" = false
  notEvent : ¬ ("on" : Text) <+: name.lower

/-- Text between tags. -/
structure PlainText where
  text : Text
  plain : '<' ∉ text

/-- Whether an element of this name never has content. -/
def LiteralName.isVoid (name : LiteralName) : Bool := Event.voidNames.contains name.written.lower

mutual

/-- An element: one tag, or two tags around content. -/
inductive Literal where
  | single (name : LiteralName) (attributes : List LiteralAttribute)
  | paired (name : LiteralName) (holds : name.isVoid = false)
      (attributes : List LiteralAttribute) (content : LiteralContent)

/-- Text, with elements in between. -/
inductive LiteralContent where
  | text (last : PlainText)
  | element (before : PlainText) (element : Literal) (rest : LiteralContent)

end

/-- An attribute behind a blank, with its value in double quotes. -/
def LiteralAttribute.print (stated : LiteralAttribute) : Text :=
  " " ++ stated.name ++ "=\"" ++ Reference.escapeAttribute stated.value ++ "\""

mutual

/-- The element as it is written. -/
def Literal.print : Literal → Text
  | .single name attributes =>
      "<" ++ name.written ++ attributes.flatMap LiteralAttribute.print ++ " />"
  | .paired name _ attributes content =>
      "<" ++ name.written ++ attributes.flatMap LiteralAttribute.print ++ ">" ++ content.print ++
        "</" ++ name.written ++ ">"

/-- The content as it is written. -/
def LiteralContent.print : LiteralContent → Text
  | .text last => last.text
  | .element before element rest => before.text ++ element.print ++ rest.print

end

/-! ## The tree of an element -/

namespace LiteralAttribute

/-- The name and the value. -/
def entry (stated : LiteralAttribute) : Text × Text := (stated.name, stated.value)

theorem print_eq (stated : LiteralAttribute) :
    stated.print = ' ' :: Component.attributeMarkup stated.name stated.value := by
  simp [print, Component.attributeMarkup]

end LiteralAttribute

namespace LiteralName

/-- The tag with this name and attributes. -/
def tag (name : LiteralName) (attributes : List LiteralAttribute) : StatedTag where
  written := name.written
  attributes := attributes.map LiteralAttribute.entry
  named := name.named
  word := name.word
  writable := by
    intro entry member
    obtain ⟨stated, _, rfl⟩ := List.mem_map.mp member
    exact Piece.writable_of_word stated.named stated.word stated.value

variable (name : LiteralName) (attributes : List LiteralAttribute)

theorem markup_tag :
    (name.tag attributes).markup =
      "<" ++ name.written ++ attributes.flatMap LiteralAttribute.print := by
  have entries : attributes.flatMap LiteralAttribute.print =
      (attributes.map LiteralAttribute.entry).flatMap fun stated =>
        ' ' :: Component.attributeMarkup stated.1 stated.2 := by
    rw [List.flatMap_map]
    exact congrArg attributes.flatMap (funext LiteralAttribute.print_eq)
  rw [entries]
  rfl

/-- A name without a prefix is its own local part. -/
theorem base_eq : (Name.ofText name.written).base = name.written := Name.base_ofText name.unprefixed

theorem is_eq_false {special : Text} (listed : special ∈ specialNames) :
    (Name.ofText name.written).is special = false := by
  unfold Name.is
  rw [base_eq]
  exact name.plain special listed

/-- A tag that is not void opens an element, since its name is none that holds raw text. -/
theorem opens_tag (holds : name.isVoid = false) : (name.tag attributes).opens = true := by
  have apart : (Event.voidNames ++ Event.rawNames).contains name.written.lower = false := by
    rw [Bool.eq_false_iff]
    intro listed
    rcases List.mem_append.mp (List.contains_iff_mem.mp listed) with isVoid | isRaw
    · exact Bool.false_ne_true (holds.symm.trans (List.contains_iff_mem.mpr isVoid))
    · have special : ∀ raw ∈ Event.rawNames, raw ∈ specialNames ∧ raw.lower = raw := by decide
      obtain ⟨member, small⟩ := special _ isRaw
      exact Bool.false_ne_true ((name.plain _ member).symm.trans (Text.sameName_iff.mpr small.symm))
  unfold StatedTag.opens Event.holdsMarkup
  show ((Name.ofText name.written).isQualified || _) = true
  rw [name.unprefixed]
  show (!(Event.voidNames ++ Event.rawNames).contains (Name.ofText name.written).base.lower) = true
  rw [base_eq, apart]
  rfl

end LiteralName

mutual

/-- The node of an element that begins at a location. -/
def Literal.nodeAt (first : Location) : Literal → Node
  | .single name attributes =>
      .element ((name.tag attributes).tagAt true first) .selfClosing []
  | .paired name _ attributes content =>
      let tag := (name.tag attributes).tagAt false first
      let last := tag.region.last.advance content.print
      .element tag (.closed ⟨last, last.advance ("</" ++ name.written ++ ">")⟩)
        (content.nodesAt tag.region.last)

/-- The nodes of content that begins at a location. -/
def LiteralContent.nodesAt (first : Location) : LiteralContent → List Node
  | .text _ => []
  | .element before element rest =>
      let place := first.advance before.text
      element.nodeAt place :: rest.nodesAt (place.advance element.print)

end

/-! ## Reading -/

namespace Growth

/-- Nodes are added to the innermost open element. -/
theorem foldl_add_opened (growth : Growth) (tag : Tag) (children nodes : List Node) :
    nodes.foldl add { growth with stack := ⟨tag, children⟩ :: growth.stack } =
      { growth with stack := ⟨tag, children ++ nodes⟩ :: growth.stack } := by
  induction nodes generalizing children with
  | nil => simp
  | cons node nodes ih =>
      rw [List.foldl_cons]
      have added := ih (children ++ [node])
      rw [List.append_assoc] at added
      exact added

/-- Nodes are added at the top level when no element is open. -/
theorem foldl_add_settled (earlier nodes : List Node) (diagnostics : List Diagnostic) :
    nodes.foldl add ⟨earlier, [], diagnostics⟩ = ⟨earlier ++ nodes, [], diagnostics⟩ := by
  induction nodes generalizing earlier with
  | nil => simp
  | cons node nodes ih =>
      have added := ih (earlier ++ [node])
      rw [List.append_assoc] at added
      exact added

end Growth

namespace Event

/-- The text is read as the nodes whatever stands behind it, and nothing is reported. -/
def Brings (location : Location) (text : Text) (nodes : List Node) : Prop :=
  ∃ events, Sealed location text events ∧
    ∀ growth : Growth, events.foldl Growth.take growth = nodes.foldl Growth.add growth

theorem Brings.append {location : Location} {front back : Text} {nodes others : List Node}
    (former : Brings location front nodes) (latter : Brings (location.advance front) back others) :
    Brings location (front ++ back) (nodes ++ others) := by
  obtain ⟨events, sealed, taken⟩ := former
  obtain ⟨later, sealed', taken'⟩ := latter
  refine ⟨events ++ later, sealed.append sealed', fun growth => ?_⟩
  rw [List.foldl_append, List.foldl_append, taken, taken']

theorem brings_plain (location : Location) (plain : PlainText) :
    Brings location plain.text [] :=
  ⟨[], sealed_plain plain.plain location, fun _ => rfl⟩

theorem brings_single (location : Location) (tag : StatedTag) :
    Brings location (tag.markup ++ StatedTag.mark true)
      [.element (tag.tagAt true location) .selfClosing []] :=
  ⟨_, sealed_single tag location, fun _ => rfl⟩

/-- Two tags of one name make an element of what stands between them. -/
theorem Brings.paired {location : Location} {tag : StatedTag} {inside : Text} {children : List Node}
    (opens : tag.opens = true)
    (inner : Brings (location.advance (tag.markup ++ StatedTag.mark false)) inside children) :
    let last := (location.advance (tag.markup ++ StatedTag.mark false)).advance inside
    let closing := '<' :: '/' :: (tag.written ++ ['>'])
    Brings location (tag.markup ++ StatedTag.mark false ++ (inside ++ closing))
      [.element (tag.tagAt false location) (.closed ⟨last, last.advance closing⟩) children] := by
  obtain ⟨events, sealed, taken⟩ := inner
  have closed := sealed_closing tag
    ((location.advance (tag.markup ++ StatedTag.mark false)).advance inside)
  refine ⟨_, (sealed_open opens location).append (sealed.append closed), fun growth => ?_⟩
  have opened : children.foldl Growth.add (growth.take (.opened (tag.tagAt false location))) =
      { growth with stack := ⟨tag.tagAt false location, children⟩ :: growth.stack } :=
    growth.foldl_add_opened (tag.tagAt false location) [] children
  have named : (tag.tagAt false location).name.isWritten tag.written = true := by
    simp [StatedTag.tagAt, Name.isWritten]
  simp only [List.foldl_append, List.foldl_cons, List.foldl_nil, taken, opened]
  unfold Growth.take
  dsimp only
  rw [List.findIdx?_cons, if_pos named]
  rfl

theorem Brings.parse_eq {text : Text} {nodes : List Node} (brings : Brings .start text nodes) :
    Tree.parse text = ⟨nodes, [], text⟩ := by
  obtain ⟨events, sealed, taken⟩ := brings
  have all : Event.events text = events := by
    have whole := sealed []
    rw [List.append_nil] at whole
    exact whole.trans (List.append_nil _)
  have grown : (Event.events text).foldl Growth.take .empty = ⟨nodes, [], []⟩ := by
    rw [all, taken]
    exact Growth.foldl_add_settled [] nodes []
  unfold Tree.parse Growth.ofEvents
  rw [grown]
  rfl

end Event

mutual

/-- A printed element is read as its node. -/
theorem Literal.brings_print (literal : Literal) (first : Location) :
    Event.Brings first literal.print [literal.nodeAt first] := by
  cases literal with
  | single name attributes =>
      have brings := Event.brings_single first (name.tag attributes)
      rw [name.markup_tag] at brings
      exact brings
  | paired name holds attributes content =>
      have inner := content.brings_print
        (first.advance ((name.tag attributes).markup ++ StatedTag.mark false))
      have brings := inner.paired (name.opens_tag attributes holds)
      have text : (Literal.paired name holds attributes content).print =
          (name.tag attributes).markup ++ StatedTag.mark false ++
            (content.print ++ '<' :: '/' :: (name.written ++ ['>'])) := by
        rw [Literal.print, name.markup_tag]
        simp [StatedTag.mark]
      rw [text]
      exact brings

/-- Printed content is read as its nodes. -/
theorem LiteralContent.brings_print (content : LiteralContent) (first : Location) :
    Event.Brings first content.print (content.nodesAt first) := by
  cases content with
  | text last => exact Event.brings_plain first last
  | element before element rest =>
      have here := element.brings_print (first.advance before.text)
      have later := rest.brings_print ((first.advance before.text).advance element.print)
      rw [← Location.advance_append] at later
      have brings := ((Event.brings_plain first before).append here).append later
      rw [Location.advance_append] at brings
      exact brings

end

/-- Printed markup is read as the tree that was printed, and nothing is reported. -/
theorem Literal.parse_print (literal : Literal) :
    Tree.parse literal.print = ⟨[literal.nodeAt .start], [], literal.print⟩ :=
  (literal.brings_print .start).parse_eq

end PageDesigner
