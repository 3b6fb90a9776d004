import PageDesigner.Proofs.Markup.Regions

/-!
# What stands in front of a node

A node begins where a construct of the text begins (`Event.begin?_construct`), and what is read in
front of a construct is settled: it depends on nothing behind.  So where a node begins, the elements
in front of it do not depend on the node, nor on what follows it (`Tree.tagsBefore_node`).
-/

namespace PageDesigner

/-! ## The nodes of a tree -/

namespace Node

mutual

/-- A node and all nodes below it, in document order. -/
def subtrees : Node → List Node
  | element tag ending children => element tag ending children :: subtreesOf children
  | node => [node]

/-- All nodes of a forest, in document order. -/
def subtreesOf : List Node → List Node
  | [] => []
  | node :: rest => subtrees node ++ subtreesOf rest

end

theorem subtreesOf_append (first second : List Node) :
    subtreesOf (first ++ second) = subtreesOf first ++ subtreesOf second := by
  induction first with
  | nil => rfl
  | cons node first ih => simp [subtreesOf, ih]

/-- A node without children has nothing below it. -/
theorem subtrees_of_childless {node : Node}
    (childless : ∀ tag ending children, node = .element tag ending children → children = []) :
    node.subtrees = [node] := by
  cases node with
  | element tag ending children =>
      obtain rfl := childless tag ending children rfl
      rfl
  | _ => rfl

end Node

/-- Every node, wherever it stands. -/
def Tree.subtrees (tree : Tree) : List Node := Node.subtreesOf tree.nodes

namespace Event

/-- Where the node of an event begins. -/
def begin? : Event → Option Location
  | .problem _ => none
  | .leaf node => some node.region.first
  | .opened tag => some tag.region.first
  | .closed _ _ => none

/-- Every node of a forest begins where one of its events does. -/
theorem Spells.exists_begin {events : List Event} {nodes : List Node}
    (spells : Spells events nodes) (childless : Childless events) {node : Node}
    (member : node ∈ Node.subtreesOf nodes) :
    ∃ event ∈ events, event.begin? = some node.region.first := by
  induction spells with
  | nil => cases member
  | problem => cases member
  | stray => cases member
  | append first second ih ih' =>
      rw [Node.subtreesOf_append] at member
      rcases List.mem_append.mp member with here | there
      · obtain ⟨event, inside, begins⟩ := ih (fun tag ending children listed =>
          childless tag ending children (List.mem_append_left _ listed)) here
        exact ⟨event, List.mem_append_left _ inside, begins⟩
      · obtain ⟨event, inside, begins⟩ := ih' (fun tag ending children listed =>
          childless tag ending children (List.mem_append_right _ listed)) there
        exact ⟨event, List.mem_append_right _ inside, begins⟩
  | leaf leaf =>
      have single : leaf.subtrees = [leaf] :=
        Node.subtrees_of_childless fun tag ending children same =>
          childless tag ending children (same ▸ List.mem_cons_self)
      rw [Node.subtreesOf, single] at member
      obtain rfl := List.mem_singleton.mp member
      exact ⟨.leaf node, List.mem_cons_self, rfl⟩
  | closed inner tag name region ih =>
      rw [Node.subtreesOf, Node.subtrees, Node.subtreesOf, List.append_nil] at member
      rcases List.mem_cons.mp member with rfl | below
      · exact ⟨.opened tag, List.mem_cons_self, rfl⟩
      · obtain ⟨event, inside, begins⟩ := ih (fun tag ending children listed =>
          childless tag ending children (by simp [listed])) below
        exact ⟨event, by simp [inside], begins⟩
  | unterminated inner tag ih =>
      rw [Node.subtreesOf, Node.subtrees, Node.subtreesOf, List.append_nil] at member
      rcases List.mem_cons.mp member with rfl | below
      · exact ⟨.opened tag, List.mem_cons_self, rfl⟩
      · obtain ⟨event, inside, begins⟩ := ih (fun tag ending children listed =>
          childless tag ending children (by simp [listed])) below
        exact ⟨event, by simp [inside], begins⟩

/-! ## Where constructs begin -/

/-- The nodes of some events begin at a location. -/
def BeginAt (first : Location) (events : List Event) : Prop :=
  ∀ event ∈ events, ∀ place ∈ event.begin?, place = first

theorem BeginAt.append {first : Location} {events later : List Event}
    (begins : BeginAt first events) (begins' : BeginAt first later) :
    BeginAt first (events ++ later) := fun event member =>
  (List.mem_append.mp member).elim (begins event) (begins' event)

theorem beginAt_singleton {first : Location} {event : Event}
    (begins : ∀ place ∈ event.begin?, place = first) : BeginAt first [event] := by
  intro other member
  obtain rfl := List.mem_singleton.mp member
  exact begins

theorem Reports.beginAt {events : List Event} (reports : Reports events) (first : Location) :
    BeginAt first events := by
  intro event member place begins
  obtain ⟨diagnostic, rfl⟩ := reports event member
  cases begins

/-- A construct that brings one node, perhaps with a report that it is never closed. -/
theorem beginAt_leaf {part : Enclosed} {problem : Problem} {region : Region} {node : Node}
    {first : Location} (own : node.region.first = first) :
    BeginAt first (unlessClosed part problem region ++ [.leaf node]) := by
  refine .append ?_ (beginAt_singleton fun place begins => (Option.some.inj begins).symm.trans own)
  unfold unlessClosed
  split
  · exact fun event member => nomatch member
  · exact beginAt_singleton fun place begins => nomatch begins

theorem OpensWith.beginAt {first : Location} {tag : TagText} {parts : List Event × Nat}
    (opens : OpensWith first tag parts) : BeginAt first parts.1 := by
  cases opens with
  | opened reports quiet =>
      exact (quiet.beginAt first).append
        (beginAt_singleton fun place begins => (Option.some.inj begins).symm)
  | whole reports quiet =>
      exact (quiet.beginAt first).append
        (beginAt_singleton fun place begins => (Option.some.inj begins).symm)

/-- The nodes that a construct brings begin where the construct does. -/
theorem begin?_construct (first : Location) (text : Text) :
    BeginAt first (construct first text).1 := by
  by_cases named : text.head?.any startsTagName = true
  · obtain ⟨tag, rfl⟩ := TagText.exists_tagText named
    rw [construct_of_name named]
    exact (opensWith_openingTag first tag).beginAt
  unfold construct comment directive block doctype
  dsimp only
  split
  · exact beginAt_leaf rfl
  split
  · refine beginAt_leaf ?_
    unfold directiveOf
    dsimp only
    split
    · rfl
    · rfl
  split
  · exact beginAt_leaf rfl
  split
  · exact beginAt_leaf rfl
  split
  · exact beginAt_singleton fun place begins => (Option.some.inj begins).symm
  split
  · exact fun event member => nomatch member
  split
  · exact beginAt_singleton fun place begins => nomatch begins
  · next plain =>
      rw [if_neg (by simpa using named)]
      exact fun event member => nomatch member

/-- The marks of a beginning of whole constructs are laid out in it. -/
theorem Begins.laidOut {location : Location} {front : Text} {events : List Event}
    (begins : Begins location front events) :
    LaidOut Mark.StandsAt location front (events.flatMap marks) := by
  induction begins with
  | nil location => exact .nil _ _
  | @plain location char front events plain later ih => exact LaidOut.behind [char] ih
  | @construct location part front rest found events here later ih =>
      have own := laidOut_construct location (part ++ (front ++ '<' :: rest))
      rw [here, List.take_left] at own
      rw [List.flatMap_append]
      exact own.append ih

/-- An opening tag is a mark. -/
theorem exists_mark_of_opening {event : Event} {opening : Opening}
    (member : opening ∈ event.openings) :
    ∃ mark ∈ event.marks, mark.region = opening.1.region := by
  cases event with
  | problem diagnostic => cases member
  | leaf node =>
      obtain ⟨element, inside, rfl⟩ := List.mem_map.mp member
      rw [Node.elementsOf, Node.elementsOf, List.append_nil] at inside
      exact ⟨_, (Node.marks_within node inside).subset List.mem_cons_self, rfl⟩
  | opened tag =>
      rw [List.mem_singleton.mp member]
      exact ⟨_, List.mem_cons_self, rfl⟩
  | closed name region => cases member

/-- The opening tags of a beginning of whole constructs stand in it. -/
theorem Begins.first_lt {location : Location} {front : Text} {events : List Event}
    (begins : Begins location front events) {opening : Opening}
    (member : opening ∈ events.flatMap openings) :
    opening.1.region.first < location.advance front := by
  obtain ⟨event, inside, brings⟩ := List.mem_flatMap.mp member
  obtain ⟨mark, marked, region⟩ := exists_mark_of_opening brings
  obtain ⟨before, part, behind, rfl, here⟩ :=
    begins.laidOut.exists_part (List.mem_flatMap.mpr ⟨event, inside, marked⟩)
  have nonempty : part ≠ [] := by
    rintro rfl
    cases here.starts
  rw [← region, here.region_eq, Location.advance_append, Location.advance_append]
  exact lt_of_lt_of_le (Location.lt_advance _ nonempty) (Location.le_advance _ _)

/-- The opening tags of a text stand behind the location from which it is read. -/
theorem le_first_of_eventsFrom {location : Location} {text : Text} {opening : Opening}
    (member : opening ∈ (eventsFrom location 0 text).flatMap openings) :
    location ≤ opening.1.region.first := by
  obtain ⟨event, inside, brings⟩ := List.mem_flatMap.mp member
  obtain ⟨mark, marked, region⟩ := exists_mark_of_opening brings
  rw [← region]
  exact ((laidOut_eventsFrom location text).within (fun _ _ _ here => here.region_eq)
    (List.mem_flatMap.mpr ⟨event, inside, marked⟩)).1

end Event

namespace Tree

/-- The tags of a tree that begin in front of a location, in document order. -/
def tagsBefore (tree : Tree) (location : Location) : List Tag :=
  (tree.elements.filter fun element => decide (element.region.first < location)).map (·.toTag)

/-- Tags in front of a location are found among the opening tags. -/
theorem tagsBefore_eq (tree : Tree) (location : Location) :
    tree.tagsBefore location =
      (tree.openings.filter fun opening => decide (opening.1.region.first < location)).map
        Prod.fst := by
  unfold tagsBefore openings
  rw [List.filter_map, List.map_map]
  rfl

/-- A node begins behind a beginning of whole constructs. -/
theorem begins_of_node {front rest : Text} {node : Node}
    (member : node ∈ (parse (front ++ '<' :: rest)).subtrees)
    (first : node.region.first = Location.start.advance front) :
    ∃ events, Event.Begins .start front events := by
  obtain ⟨event, inside, begin'⟩ :=
    (spells_parse _).exists_begin (Event.childless_events _) member
  obtain ⟨before, after, found⟩ := List.append_of_mem inside
  obtain ⟨front', rest', early, former, latter, brought⟩ := Event.exists_construct found
  have place := Event.begin?_construct (Location.start.advance front') rest' event
    (by rw [brought.brings]; simp) _ begin'
  rw [first] at place
  -- Both beginnings of the text lead to the same location.
  have same : front = front' := by
    rcases List.append_eq_append_iff.mp brought.text_eq with
      ⟨part, rfl, -⟩ | ⟨part, rfl, -⟩
    · rw [Source.eq_nil_of_advance place.symm, List.append_nil]
    · rw [Source.eq_nil_of_advance place, List.append_nil]
  rw [same]
  exact ⟨early, brought.begins⟩

/-- Behind a beginning of whole constructs, the tags in front are those that it brings. -/
theorem tagsBefore_begins {front : Text} {events : List Event}
    (begins : Event.Begins .start front events) (rest : Text) :
    (parse (front ++ '<' :: rest)).tagsBefore (Location.start.advance front) =
      (events.flatMap Event.openings).map Prod.fst := by
  have earlier : (events.flatMap Event.openings).filter (fun opening =>
      decide (opening.1.region.first < Location.start.advance front)) =
        events.flatMap Event.openings :=
    List.filter_eq_self.mpr fun opening member => decide_eq_true (begins.first_lt member)
  have later : ((Event.eventsFrom (Location.start.advance front) 0 ('<' :: rest)).flatMap
      Event.openings).filter (fun opening =>
        decide (opening.1.region.first < Location.start.advance front)) = [] :=
    List.filter_eq_nil_iff.mpr fun opening member => by
      rw [decide_eq_true_eq]
      exact not_lt_of_ge (Event.le_first_of_eventsFrom member)
  rw [tagsBefore_eq, openings_parse, Event.events, begins.settled, List.flatMap_append,
    List.filter_append, earlier, later, List.append_nil]

/-- The tags in front of a node, with their attributes and regions, depend neither on the node nor
on what follows it. -/
theorem tagsBefore_node (front rest rest' : Text)
    (begins : ∃ node ∈ (parse (front ++ '<' :: rest)).subtrees,
      node.region.first = Location.start.advance front) :
    (parse (front ++ '<' :: rest)).tagsBefore (Location.start.advance front) =
      (parse (front ++ '<' :: rest')).tagsBefore (Location.start.advance front) := by
  obtain ⟨node, member, first⟩ := begins
  obtain ⟨events, begins⟩ := begins_of_node member first
  rw [tagsBefore_begins begins, tagsBefore_begins begins]

/-- A tag and a comment stand in front of a line break, and would stand in front of a script. -/
theorem tagsBefore_node_of_break :
    (∃ node ∈ (parse ("<p id='a'><!-- <b> -->" ++ '<' :: "br>")).subtrees,
      node.region.first = Location.start.advance "<p id='a'><!-- <b> -->") ∧
    (parse ("<p id='a'><!-- <b> -->" ++ '<' :: "br>")).tagsBefore
        (Location.start.advance "<p id='a'><!-- <b> -->") =
      (parse ("<p id='a'><!-- <b> -->" ++ '<' :: "script>'</p>")).tagsBefore
        (Location.start.advance "<p id='a'><!-- <b> -->") := by
  have begins : ∃ node ∈ (parse ("<p id='a'><!-- <b> -->" ++ '<' :: "br>")).subtrees,
      node.region.first = Location.start.advance "<p id='a'><!-- <b> -->" := by
    decide +kernel
  exact ⟨begins, tagsBefore_node _ _ _ begins⟩

end Tree

end PageDesigner
