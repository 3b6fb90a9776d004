import PageDesigner.Markup.Parse

/-!
# The opening tags of a tree

However elements end up nested, the elements of a parsed tree in document order
are the opening tags in the order in which they are read (`Tree.openings_parse`).
Growing the tree moves elements between the stack and the finished nodes, but it
never changes their order.
-/

namespace PageDesigner

/-- An opening tag, and whether it is the whole element. -/
abbrev Opening := Tag × Bool

/-- The opening tag of an element. -/
def Element.opening (element : Element) : Opening :=
  (element.toTag, decide (element.ending = .void) || element.isSelfClosing)

/-- The opening tags of a forest, in document order. -/
def Node.openings (nodes : List Node) : List Opening :=
  (Node.elementsOf nodes).map Element.opening

/-- The opening tags of a tree, in document order. -/
def Tree.openings (tree : Tree) : List Opening := tree.elements.map Element.opening

/-- The opening tags that an event brings. -/
def Event.openings : Event → List Opening
  | .problem _ => []
  | .leaf node => Node.openings [node]
  | .opened tag => [(tag, false)]
  | .closed _ _ => []

theorem Node.elementsOf_append (first second : List Node) :
    Node.elementsOf (first ++ second) = Node.elementsOf first ++ Node.elementsOf second := by
  induction first with
  | nil => rfl
  | cons node first ih => simp [Node.elementsOf, ih]

theorem Node.elementsOf_element (tag : Tag) (ending : TagEnd) (children : List Node) :
    Node.elementsOf [.element tag ending children] =
      ⟨tag, ending, children⟩ :: Node.elementsOf children := by
  simp [Node.elementsOf, Node.elements]

theorem Node.openings_append (first second : List Node) :
    Node.openings (first ++ second) = Node.openings first ++ Node.openings second := by
  simp [Node.openings, Node.elementsOf_append]

namespace Growth

/-- The opening tags of an open element and of what it holds so far. -/
def openingsOf (waiting : OpenElement) : List Opening :=
  (waiting.tag, false) :: Node.openings waiting.children

/-- The opening tags read so far: the finished ones, then those from the outermost open element
inwards. -/
def openings (growth : Growth) : List Opening :=
  Node.openings growth.nodes ++ growth.stack.reverse.flatMap openingsOf

theorem openings_add (growth : Growth) (node : Node) :
    (growth.add node).openings = growth.openings ++ Node.openings [node] := by
  obtain ⟨nodes, stack, diagnostics⟩ := growth
  cases stack with
  | nil => simp [add, openings, Node.openings_append]
  | cons top rest => simp [add, openings, openingsOf, Node.openings_append]

theorem openings_endInnermost (growth : Growth) {ending : TagEnd}
    (open' : (decide (ending = .void) || decide (ending = .selfClosing)) = false) :
    (growth.endInnermost ending).openings = growth.openings := by
  obtain ⟨nodes, stack, diagnostics⟩ := growth
  cases stack with
  | nil => rfl
  | cons top rest =>
      have element : Node.openings [.element top.tag ending top.children] = openingsOf top := by
        simp [Node.openings, openingsOf, Node.elementsOf, Node.elements, Element.opening,
          Element.isSelfClosing, open']
      simp only [endInnermost, openings_add, element]
      simp [openings]

theorem openings_abandonInnermost (growth : Growth) :
    growth.abandonInnermost.openings = growth.openings := by
  unfold abandonInnermost
  split
  · rfl
  · rw [openings_endInnermost _ rfl]
    rfl

theorem openings_abandon (count : Nat) (growth : Growth) :
    (abandon count growth).openings = growth.openings := by
  induction count generalizing growth with
  | zero => rfl
  | succ count ih => rw [abandon, ih, openings_abandonInnermost]

/-- Taking in an event adds its opening tags at the end. -/
theorem openings_take (growth : Growth) (event : Event) :
    (growth.take event).openings = growth.openings ++ event.openings := by
  cases event with
  | problem diagnostic => simp [take, report, openings, Event.openings]
  | leaf node => exact openings_add growth node
  | opened tag => simp [take, openings, openingsOf, Event.openings, Node.openings, Node.elementsOf]
  | closed name region =>
      rw [Event.openings, List.append_nil]
      unfold take
      dsimp only
      split
      · rw [openings_endInnermost _ rfl, openings_abandon]
      · rfl

theorem openings_foldl (events : List Event) (growth : Growth) :
    (events.foldl take growth).openings = growth.openings ++ events.flatMap Event.openings := by
  induction events generalizing growth with
  | nil => simp
  | cons event events ih => simp [ih, openings_take]

/-! ## Nothing stays open -/

theorem stack_length_add (growth : Growth) (node : Node) :
    (growth.add node).stack.length = growth.stack.length := by
  obtain ⟨nodes, stack, diagnostics⟩ := growth
  cases stack <;> rfl

theorem stack_length_abandonInnermost (growth : Growth) :
    growth.abandonInnermost.stack.length = growth.stack.length - 1 := by
  obtain ⟨nodes, stack, diagnostics⟩ := growth
  cases stack with
  | nil => rfl
  | cons top rest => exact stack_length_add _ _

theorem stack_length_abandon (count : Nat) (growth : Growth) :
    (abandon count growth).stack.length = growth.stack.length - count := by
  induction count generalizing growth with
  | zero => rfl
  | succ count ih =>
      rw [abandon, ih, stack_length_abandonInnermost]
      omega

theorem stack_ofEvents (events : List Event) : (ofEvents events).stack = [] := by
  apply List.eq_nil_of_length_eq_zero
  simp [ofEvents, stack_length_abandon]

theorem openings_ofEvents (events : List Event) :
    Node.openings (ofEvents events).nodes = events.flatMap Event.openings := by
  have all : (ofEvents events).openings = events.flatMap Event.openings := by
    simp only [ofEvents, openings_abandon, openings_foldl]
    rfl
  rw [← all, openings, stack_ofEvents]
  simp

end Growth

/-- The elements of a parsed tree are the opening tags of the text, in order. -/
theorem Tree.openings_parse (text : Text) :
    (Tree.parse text).openings = (Event.events text).flatMap Event.openings :=
  Growth.openings_ofEvents _

end PageDesigner
