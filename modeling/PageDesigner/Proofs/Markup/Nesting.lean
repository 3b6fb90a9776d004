import PageDesigner.Proofs.Markup.Openings

/-!
# Which events make up an element

A closing tag ends an element that an opening tag began, and what was read in between
is what the element holds.  `Event.Spells` says which events make up a forest, and
`Event.Nests` which closing tag ends which element there.  `Growth.Nests` adds the open
elements, so that every event that is taken in keeps it (`Growth.Nested.take`).

From this, each element of a parsed tree is found again among the events, with the
events in front of it, inside it, and behind it (`Event.Spells.place`).
-/

namespace PageDesigner

namespace Event

/-- The events make up the forest. -/
inductive Spells : List Event → List Node → Prop
  | nil : Spells [] []
  | append {events later : List Event} {nodes others : List Node} (first : Spells events nodes)
      (second : Spells later others) : Spells (events ++ later) (nodes ++ others)
  | problem (diagnostic : Diagnostic) : Spells [.problem diagnostic] []
  | stray (name : Text) (region : Region) : Spells [.closed name region] []
  | leaf (node : Node) : Spells [.leaf node] [node]
  | closed {events : List Event} {children : List Node} (inner : Spells events children) (tag : Tag)
      (name : Text) (region : Region) :
      Spells (.opened tag :: (events ++ [.closed name region]))
        [.element tag (.closed region) children]
  | unterminated {events : List Event} {children : List Node} (inner : Spells events children)
      (tag : Tag) : Spells (.opened tag :: events) [.element tag .unterminated children]

/-- The opening tags of a forest are those of the events it is made of. -/
theorem Spells.openings_eq {events : List Event} {nodes : List Node}
    (spells : Spells events nodes) :
    Node.openings nodes = events.flatMap openings := by
  induction spells with
  | nil => rfl
  | append _ _ ih ih' => rw [Node.openings_append, List.flatMap_append, ih, ih']
  | problem => rfl
  | stray => rfl
  | leaf node => simp [openings]
  | closed inner tag name region ih =>
      rw [List.flatMap_cons, List.flatMap_append, ← ih]
      simp [Node.openings, Node.elementsOf, Node.elements, Element.opening, Element.isSelfClosing,
        openings]
  | unterminated inner tag ih =>
      rw [List.flatMap_cons, ← ih]
      simp [Node.openings, Node.elementsOf, Node.elements, Element.opening, Element.isSelfClosing,
        openings]

/-- The events make up the forest inside open elements with the given tags: a closing tag has the
name of the element that it closes, and the name of no open element if it closes none. -/
inductive Nests : List Tag → List Event → List Node → Prop
  | nil {outer : List Tag} : Nests outer [] []
  | append {outer : List Tag} {events later : List Event} {nodes others : List Node}
      (first : Nests outer events nodes) (second : Nests outer later others) :
      Nests outer (events ++ later) (nodes ++ others)
  | problem {outer : List Tag} (diagnostic : Diagnostic) : Nests outer [.problem diagnostic] []
  | stray {outer : List Tag} {name : Text}
      (alone : ∀ tag ∈ outer, tag.name.isWritten name = false) (region : Region) :
      Nests outer [.closed name region] []
  | leaf {outer : List Tag} (node : Node) : Nests outer [.leaf node] [node]
  | closed {outer : List Tag} {tag : Tag} {events : List Event} {children : List Node}
      (inner : Nests (tag :: outer) events children) {name : Text}
      (named : tag.name.isWritten name = true) (region : Region) :
      Nests outer (.opened tag :: (events ++ [.closed name region]))
        [.element tag (.closed region) children]
  | unterminated {outer : List Tag} {tag : Tag} {events : List Event} {children : List Node}
      (inner : Nests (tag :: outer) events children) :
      Nests outer (.opened tag :: events) [.element tag .unterminated children]

theorem Nests.spells {outer : List Tag} {events : List Event} {nodes : List Node}
    (nests : Nests outer events nodes) : Spells events nodes := by
  induction nests with
  | nil => exact .nil
  | append _ _ ih ih' => exact ih.append ih'
  | problem diagnostic => exact .problem diagnostic
  | stray _ region => exact .stray _ region
  | leaf node => exact .leaf node
  | closed _ _ region ih => exact ih.closed _ _ region
  | unterminated _ ih => exact ih.unterminated _

end Event

namespace Growth

/-! ## The tags of the open elements -/

/-- The tags of the open elements, innermost first. -/
def tags (growth : Growth) : List Tag := growth.stack.map (·.tag)

theorem tags_add (growth : Growth) (node : Node) : (growth.add node).tags = growth.tags := by
  obtain ⟨nodes, stack, diagnostics⟩ := growth
  cases stack with
  | nil => rfl
  | cons top rest => rfl

theorem tags_abandonInnermost (growth : Growth) :
    growth.abandonInnermost.tags = growth.tags.tail := by
  obtain ⟨nodes, stack, diagnostics⟩ := growth
  cases stack with
  | nil => rfl
  | cons top rest => exact tags_add _ _

theorem tags_abandon (count : Nat) (growth : Growth) :
    (abandon count growth).tags = growth.tags.drop count := by
  induction count generalizing growth with
  | zero => rfl
  | succ count ih => rw [abandon, ih, tags_abandonInnermost, List.drop_tail]

/-! ## Growing -/

/-- The events make up the finished nodes and, behind them, the open elements. -/
inductive Nests : List Event → List Node → List OpenElement → Prop
  | settled {events : List Event} {nodes : List Node} (nests : Event.Nests [] events nodes) :
      Nests events nodes []
  | opened {events later : List Event} {nodes children : List Node} {stack : List OpenElement}
      {tag : Tag} (outer : Nests events nodes stack)
      (inner : Event.Nests (tag :: stack.map (·.tag)) later children) :
      Nests (events ++ .opened tag :: later) nodes (⟨tag, children⟩ :: stack)

/-- The events make up everything that has been read. -/
def Nested (events : List Event) (growth : Growth) : Prop :=
  Nests events growth.nodes growth.stack

variable {events later : List Event} {growth : Growth}

theorem Nested.report (nested : Nested events growth) (diagnostic : Diagnostic) :
    Nested events (growth.report diagnostic) := nested

/-- Events that make up nothing can follow. -/
theorem Nested.quiet (nested : Nested events growth)
    (quiet : Event.Nests growth.tags later []) : Nested (events ++ later) growth := by
  obtain ⟨nodes, stack, diagnostics⟩ := growth
  cases nested with
  | settled nests =>
      have both := nests.append quiet
      rw [List.append_nil] at both
      exact .settled both
  | opened outer inner =>
      have both := inner.append quiet
      rw [List.append_nil] at both
      rw [List.append_assoc]
      exact .opened outer both

theorem Nested.add (nested : Nested events growth) {node : Node}
    (nests : Event.Nests growth.tags later [node]) :
    Nested (events ++ later) (growth.add node) := by
  obtain ⟨nodes, stack, diagnostics⟩ := growth
  cases nested with
  | settled before => exact .settled (before.append nests)
  | opened outer inner =>
      rw [List.append_assoc]
      exact .opened outer (inner.append nests)

/-- The innermost open element ends where the events that end it are read. -/
theorem Nested.endInnermost (nested : Nested events growth) {tag : Tag} {rest : List Tag}
    (open' : growth.tags = tag :: rest) {ending : TagEnd}
    (ends : ∀ (inner : List Event) (children : List Node),
      Event.Nests (tag :: rest) inner children →
      Event.Nests rest (.opened tag :: (inner ++ later)) [.element tag ending children]) :
    Nested (events ++ later) (growth.endInnermost ending) := by
  obtain ⟨nodes, stack, diagnostics⟩ := growth
  cases nested with
  | settled => cases open'
  | @opened events inner _ children stack _ outer nests =>
      obtain ⟨rfl, rfl⟩ := List.cons.inj open'
      have around : Nested events ⟨nodes, stack, diagnostics⟩ := outer
      have whole := around.add (ends inner children nests)
      rw [List.append_assoc]
      exact whole

theorem Nested.abandonInnermost (nested : Nested events growth) :
    Nested events growth.abandonInnermost := by
  unfold Growth.abandonInnermost
  split
  · exact nested
  · next top rest shape =>
      have open' : (growth.report (.unclosed top.tag.name.text top.tag.region)).tags =
          top.tag :: rest.map (·.tag) := by
        unfold tags Growth.report
        rw [shape]
        rfl
      have ended := @Nested.endInnermost _ [] _ (nested.report _) _ _ open' .unterminated
        fun inner children nests => (List.append_nil inner).symm ▸ nests.unterminated
      rw [List.append_nil] at ended
      exact ended

theorem Nested.abandon (nested : Nested events growth) (count : Nat) :
    Nested events (Growth.abandon count growth) := by
  induction count generalizing growth with
  | zero => exact nested
  | succ count ih => exact ih nested.abandonInnermost

/-- Taking in an event keeps the account of the events. -/
theorem Nested.take (nested : Nested events growth) (event : Event) :
    Nested (events ++ [event]) (growth.take event) := by
  cases event with
  | problem diagnostic => exact (nested.report diagnostic).quiet (.problem diagnostic)
  | leaf node => exact nested.add (.leaf node)
  | opened tag => exact .opened nested .nil
  | closed name region =>
      unfold Growth.take
      dsimp only
      split
      · next skipped found =>
          obtain ⟨inside, named, -⟩ := List.findIdx?_eq_some_iff_getElem.mp found
          -- What is skipped leaves the element of this name innermost.
          have open' : (Growth.abandon skipped growth).tags = growth.stack[skipped].tag ::
              (growth.stack.drop (skipped + 1)).map (·.tag) := by
            rw [tags_abandon, tags, ← List.map_drop, List.drop_eq_getElem_cons inside,
              List.map_cons]
          exact (nested.abandon skipped).endInnermost open' fun inner children nests =>
            nests.closed named region
      · next unknown =>
          refine (nested.report _).quiet (.stray (fun tag member => ?_) region)
          obtain ⟨waiting, stacked, rfl⟩ := List.mem_map.mp member
          exact List.findIdx?_eq_none_iff.mp unknown waiting stacked

theorem Nested.foldl (nested : Nested events growth) (later : List Event) :
    Nested (events ++ later) (later.foldl Growth.take growth) := by
  induction later generalizing events growth with
  | nil =>
      rw [List.append_nil]
      exact nested
  | cons event later ih =>
      have next := ih (nested.take event)
      rw [List.append_assoc] at next
      exact next

/-- All events make up the finished forest. -/
theorem nests_ofEvents (events : List Event) :
    Event.Nests [] events (ofEvents events).nodes := by
  have start : Nested [] Growth.empty := .settled .nil
  have nested : Nested events (ofEvents events) := (start.foldl events).abandon _
  unfold Nested at nested
  rw [stack_ofEvents] at nested
  cases nested with
  | settled nests => exact nests

end Growth

/-- The events of a text make up its tree, and each closing tag its element. -/
theorem Tree.nests_parse (text : Text) :
    Event.Nests [] (Event.events text) (Tree.parse text).nodes :=
  Growth.nests_ofEvents _

/-- The events of a text make up its tree. -/
theorem Tree.spells_parse (text : Text) :
    Event.Spells (Event.events text) (Tree.parse text).nodes :=
  (Tree.nests_parse text).spells

/-! ## The place of an element -/

namespace Event

/-- The events that an element is made of, with those in front of it and behind it. -/
inductive Places (events before after : List Event) (element : Element) : Prop
  | whole (childless : element.children = [])
      (shape : events = before ++ .leaf (.element element.toTag element.ending []) :: after)
  | closed (inside : List Event) (name : Text) (region : Region)
      (ending : element.ending = .closed region)
      (holds : element.descendants.map Element.opening = inside.flatMap openings)
      (shape : events = before ++ .opened element.toTag :: (inside ++ .closed name region :: after))
  | unterminated (ending : element.ending = .unterminated)

/-- Elements that are read at once hold nothing. -/
def Childless (events : List Event) : Prop :=
  ∀ tag ending children, .leaf (.element tag ending children) ∈ events → children = []

theorem Places.extend {events before after : List Event} {element : Element}
    (places : Places events before after element) (former latter : List Event) :
    Places (former ++ events ++ latter) (former ++ before) (after ++ latter) element := by
  cases places with
  | whole childless shape => exact .whole childless (by rw [shape]; simp)
  | closed inside name region ending holds shape =>
      exact .closed inside name region ending holds (by rw [shape]; simp)
  | unterminated ending => exact .unterminated ending

/-- The place of an element among events that bring the elements of a forest: those in front of the
element, its descendants, and those behind. -/
def Placed (events : List Event) (former rest : List Element) (element : Element) : Prop :=
  ∃ before after latter, rest = element.descendants ++ latter ∧
    before.flatMap openings = former.map Element.opening ∧
    after.flatMap openings = latter.map Element.opening ∧
    Places events before after element

theorem Placed.behind {events : List Event} {former rest : List Element} {element : Element}
    (placed : Placed events former rest element) {earlier : List Event} {others : List Element}
    (brings : earlier.flatMap openings = others.map Element.opening) :
    Placed (earlier ++ events) (others ++ former) rest element := by
  obtain ⟨before, after, latter, rfl, front, back, places⟩ := placed
  refine ⟨earlier ++ before, after, latter, rfl, ?_, back, ?_⟩
  · rw [List.flatMap_append, List.map_append, front, brings]
  · have whole := places.extend earlier []
    rw [List.append_nil, List.append_nil] at whole
    exact whole

theorem Placed.inFrontOf {events : List Event} {former rest : List Element} {element : Element}
    (placed : Placed events former rest element) {later : List Event} {others : List Element}
    (brings : later.flatMap openings = others.map Element.opening) :
    Placed (events ++ later) former (rest ++ others) element := by
  obtain ⟨before, after, latter, rfl, front, back, places⟩ := placed
  refine ⟨before, after ++ later, latter ++ others, List.append_assoc _ _ _, front, ?_,
    places.extend [] later⟩
  rw [List.flatMap_append, List.map_append, back, brings]

/-- Every element of a forest has its place among the events. -/
theorem Spells.place {events : List Event} {nodes : List Node} (spells : Spells events nodes)
    (childless : Childless events) {former rest : List Element} {element : Element}
    (split : Node.elementsOf nodes = former ++ element :: rest) :
    Placed events former rest element := by
  induction spells generalizing former rest with
  | nil => simp [Node.elementsOf] at split
  | problem => simp [Node.elementsOf] at split
  | stray => simp [Node.elementsOf] at split
  | @append events later nodes others first second ih ih' =>
      have childless₁ : Childless events := fun tag ending children member =>
        childless tag ending children (List.mem_append_left _ member)
      have childless₂ : Childless later := fun tag ending children member =>
        childless tag ending children (List.mem_append_right _ member)
      have brings := first.openings_eq.symm
      have brings' := second.openings_eq.symm
      rw [Node.elementsOf_append] at split
      rcases List.append_eq_append_iff.mp split with ⟨middle, rfl, later'⟩ | ⟨middle, here, behind⟩
      · exact (ih' childless₂ later').behind brings
      · cases middle with
        | nil =>
            have placed := (@ih' childless₂ [] rest behind.symm).behind brings
            rw [here, List.append_nil, List.append_nil] at placed
            exact placed
        | cons head middle =>
            obtain ⟨rfl, rfl⟩ := List.cons.inj behind
            exact (ih childless₁ here).inFrontOf brings'
  | leaf node =>
      cases node with
      | element tag ending children =>
          obtain rfl := childless tag ending children List.mem_cons_self
          simp only [Node.elementsOf, Node.elements, List.append_nil] at split
          rcases List.singleton_eq_append_iff.mp split with ⟨rfl, same⟩ | ⟨_, same⟩
          · obtain ⟨rfl, rfl⟩ := List.cons.inj same
            exact ⟨[], [], [], rfl, rfl, rfl, .whole rfl rfl⟩
          · cases same
      | _ => simp [Node.elementsOf, Node.elements] at split
  | @closed events children inner tag name region ih =>
      have childless' : Childless events := fun tag ending children member =>
        childless tag ending children (by simp [member])
      simp only [Node.elementsOf, Node.elements, List.append_nil] at split
      cases former with
      | nil =>
          obtain ⟨rfl, rfl⟩ := List.cons.inj split
          exact ⟨[], [], [], (List.append_nil _).symm, rfl, rfl,
            .closed events name region rfl inner.openings_eq rfl⟩
      | cons head former =>
          obtain ⟨rfl, inside⟩ := List.cons.inj split
          have closes : [Event.closed name region].flatMap openings =
              ([] : List Element).map Element.opening := rfl
          have placed := ((ih childless' inside).behind
            (show [Event.opened tag].flatMap openings =
              [⟨tag, .closed region, children⟩].map Element.opening from rfl)).inFrontOf closes
          rw [List.append_nil] at placed
          exact placed
  | @unterminated events children inner tag ih =>
      have childless' : Childless events := fun tag ending children member =>
        childless tag ending children (by simp [member])
      simp only [Node.elementsOf, Node.elements, List.append_nil] at split
      cases former with
      | nil =>
          obtain ⟨rfl, rfl⟩ := List.cons.inj split
          exact ⟨[], [], [], (List.append_nil _).symm, rfl, rfl, .unterminated rfl⟩
      | cons head former =>
          obtain ⟨rfl, inside⟩ := List.cons.inj split
          exact (ih childless' inside).behind (show [Event.opened tag].flatMap openings =
            [⟨tag, .unterminated, children⟩].map Element.opening from rfl)

end Event

end PageDesigner
