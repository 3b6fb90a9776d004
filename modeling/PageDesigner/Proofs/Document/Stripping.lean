import PageDesigner.Proofs.Document.Inert
import PageDesigner.Proofs.Document.Sound

/-!
# Scripts and wiring do not reach the surface

What is drawn of a page without controls is inert: parsed again, it holds no scripts and
no wiring.  The text around the tags is copied from the source, and the nodes that are left
out let what stood in front of them meet what stood behind.  Nothing comes of that where
each of them can be taken away (`Node.Removable`): it takes all its markup along, and does
not stand behind a `<` that waits for a name.
-/

namespace PageDesigner

namespace Node

mutual

/-- The nodes that are left out where a node is drawn: scripts, and whatever is no element. -/
def omitted : Node → List Node
  | .element tag ending children =>
      if tag.name.is "script" then [.element tag ending children] else omittedOf children
  | node => [node]

/-- The nodes that are left out where a forest is drawn. -/
def omittedOf : List Node → List Node
  | [] => []
  | node :: rest => omitted node ++ omittedOf rest

end

theorem mem_omitted_of_script {tag : Tag} (script : tag.name.is "script" = true) (ending : TagEnd)
    (children : List Node) :
    .element tag ending children ∈ omitted (.element tag ending children) := by
  rw [omitted, if_pos script]
  exact List.mem_cons_self

/-- Nothing of the node is left where it is left out, and nothing comes of the text in front of
it. -/
structure Removable (source : Text) (node : Node) : Prop where
  /-- A script without an end has nothing in it that would stay behind. -/
  terminated : ∀ element ∈ node.element?, element.ending = .unterminated → element.children = []
  /-- What stands in front of the node is neither a `<` nor a `</` that waits for a name. -/
  apart : Ended (Source.before source node.region.first)

instance (source : Text) (node : Node) : Decidable (node.Removable source) :=
  decidable_of_iff
    ((∀ element ∈ node.element?, element.ending = .unterminated → element.children = []) ∧
      ¬ ['<'] <:+ Source.before source node.region.first ∧
      ¬ ['<', '/'] <:+ Source.before source node.region.first)
    ⟨fun held => ⟨held.1, held.2.1, held.2.2⟩,
      fun removable => ⟨removable.terminated, removable.apart.started, removable.apart.closing⟩⟩

theorem omittedOf_append (first second : List Node) :
    omittedOf (first ++ second) = omittedOf first ++ omittedOf second := by
  induction first with
  | nil => rfl
  | cons node first ih => simp [omittedOf, ih]

end Node

namespace DesignHtml

open Event (Spells StandsAt Strung holdsMarkup holdsText)

/-! ## Tags that are drawn -/

section

variable {context : DrawingContext} {surface : Surface} {tag : TagText}

theorem inert_lead (bare : context.head = [])
    (valid : ∀ name ∈ surface.container.names, Naming.isValid name = true) (name : Name) :
    Inert (lead context surface name) := by
  have block : Inert (Text.onlyIf (name.is "body") (initialValues surface)) := by
    cases name.is "body" with
    | true => exact inert_initialValues valid
    | false => exact .nil
  unfold lead
  rw [bare]
  cases name.is "head" with
  | true => exact block
  | false => exact block

/-- Nothing is put into raw text. -/
theorem lead_of_holdsText {name : Name} (raw : holdsText name = true) (context : DrawingContext)
    (surface : Surface) : lead context surface name = [] := by
  have apart : ∀ raw ∈ Event.rawNames, raw ≠ Text.lower "head" ∧ raw ≠ Text.lower "body" := by
    decide
  obtain ⟨head, body⟩ := apart _ (List.contains_iff_mem.mp (Bool.and_eq_true_iff.mp raw).2)
  have notHead : name.is "head" = false := by
    rw [Bool.eq_false_iff]
    exact fun same => head (Text.sameName_iff.mp same)
  have notBody : name.is "body" = false := by
    rw [Bool.eq_false_iff]
    exact fun same => body (Text.sameName_iff.mp same)
  unfold lead
  rw [notHead, notBody]
  rfl

variable (notScript : tag.name.is "script" = false) (first : Location)

include notScript

/-- An element without content is drawn as one inert tag. -/
theorem inert_single : Inert (openTag (tag.tagOf first) ++ " />") := by
  rw [tag.openTag_tagOf]
  exact (tag.harmless_shown notScript).inert_single

/-- An element is drawn as two inert tags, around what is inert in front of the second. -/
theorem inert_paired (holds : holdsMarkup tag.name = true) (bare : context.head = [])
    (valid : ∀ name ∈ surface.container.names, Naming.isValid name = true) {inside : Text}
    (inert : Inert (inside ++ '<' :: '/' :: (tag.written ++ ['>']))) :
    Inert (openTag (tag.tagOf first) ++ ">" ++ lead context surface (tag.tagOf first).name ++
      inside ++ "</" ++ (tag.tagOf first).name.text ++ ">") := by
  have named : (tag.tagOf first).name.text = tag.written := Name.text_ofText tag.written
  have whole := ((tag.harmless_shown notScript).inert_open holds).append
    ((inert_lead bare valid (tag.tagOf first).name).append inert)
  rw [tag.openTag_tagOf, named]
  simpa [StatedTag.mark] using whole

/-- Raw text is drawn between two tags. -/
theorem inert_raw (raw : holdsText tag.name = true) {inside : Text}
    (ends : Text.cut? (Event.endMark tag.name) (inside.lower ++ Event.endMark tag.name) =
      some (inside.lower, [])) :
    Inert (openTag (tag.tagOf first) ++ ">" ++ lead context surface (tag.tagOf first).name ++
      inside ++ "</" ++ (tag.tagOf first).name.text ++ ">") := by
  have named : (tag.tagOf first).name.text = tag.written := Name.text_ofText tag.written
  have whole := (tag.harmless_shown notScript).inert_raw raw ends
  have none' : lead context surface (tag.tagOf first).name = [] :=
    lead_of_holdsText raw context surface
  rw [tag.openTag_tagOf, named, none']
  simpa [StatedTag.mark, TagText.shown] using whole

end

/-! ## One node -/

/-- Drawing a part of the source has given inert HTML and has come as far as some of the part; what
is left of it is calm. -/
structure Strips (drawing : Drawing) (earlier text behind : Text) (drawn : Text × Drawing) :
    Prop where
  inert : Inert drawn.1
  surface_eq : drawn.2.surface = drawing.surface
  reached : ∃ read pending, text = read ++ pending ∧
    drawn.2.previous = Location.start.advance (earlier ++ read) ∧ (behind ≠ [] → Calm pending)

section

variable {context : DrawingContext} {earlier part behind : Text} {drawing : Drawing}

/-- A node that is left out is passed over. -/
theorem strips_omitted {place : Location}
    (reached : place = Location.start.advance (earlier ++ part)) :
    Strips drawing earlier part behind ([], { drawing with previous := place }) where
  inert := .nil
  surface_eq := rfl
  reached := ⟨part, [], (List.append_nil _).symm, reached, fun _ => calm_nil⟩

/-- A tag that is a whole element is drawn as one, or left out. -/
theorem strips_single (tag : TagText) {ending : TagEnd}
    (bodiless : ending = .selfClosing ∨ ending = .void) (whole : part = tag.opening)
    (own : (tag.tagOf (Location.start.advance earlier)).isServerControl = false) :
    Strips drawing earlier part behind (drawNode context drawing
      (.element (tag.tagOf (Location.start.advance earlier)) ending [])) := by
  have last : (tag.tagOf (Location.start.advance earlier)).region.last =
      Location.start.advance (earlier ++ part) := by
    rw [whole, Location.advance_append]
    rfl
  have bodiless' : hasBody ending = false := by rcases bodiless with rfl | rfl <;> rfl
  cases script : tag.name.is "script" with
  | true =>
      rw [drawNode_script script]
      refine strips_omitted ?_
      rw [← last]
      rcases bodiless with rfl | rfl <;> rfl
  | false =>
      rw [drawNode_single script own _ _ _ bodiless']
      constructor
      · exact inert_single script _
      · rfl
      · exact ⟨part, [], (List.append_nil _).symm, last, fun _ => calm_nil⟩

/-- Raw text between two tags is copied, or left out with them. -/
theorem strips_raw (tag : TagText) {content closing : Text} (raw : holdsText tag.name = true)
    (ends : Text.cut? (Event.endMark tag.name) (content.lower ++ Event.endMark tag.name) =
      some (content.lower, []))
    (whole : part = tag.opening ++ content ++ closing)
    (source_eq : context.tree.source = earlier ++ (part ++ behind))
    (own : (tag.tagOf (Location.start.advance earlier)).isServerControl = false) :
    Strips drawing earlier part behind (drawNode context drawing
      (.element (tag.tagOf (Location.start.advance earlier))
        (.closed ⟨(Location.start.advance earlier).advance (tag.opening ++ content),
          (Location.start.advance earlier).advance part⟩) [])) := by
  have last : (Location.start.advance earlier).advance part =
      Location.start.advance (earlier ++ part) := (Location.advance_append _ _ _).symm
  cases script : tag.name.is "script" with
  | true =>
      rw [drawNode_script script]
      exact strips_omitted last
  | false =>
      have whole' : context.tree.source =
          (earlier ++ tag.opening) ++ (content ++ (closing ++ behind)) := by
        rw [source_eq, whole]
        simp
      have copied : context.tree.slice (tag.tagOf (Location.start.advance earlier)).region.last
          ((Location.start.advance earlier).advance (tag.opening ++ content)) = content := by
        have sliced := Tree.slice_part whole'
        rw [List.append_assoc, Location.advance_append, Location.advance_append] at sliced
        exact sliced
      rw [drawNode_paired script own _ _ _ rfl]
      dsimp only [drawNodes]
      rw [endBody_closed]
      dsimp only
      rw [copied, List.nil_append]
      constructor
      · exact inert_raw script _ raw ends
      · rfl
      · exact ⟨part, [], (List.append_nil _).symm, last, fun _ => calm_nil⟩

/-- A tag whose raw text has no end stands at the end of the source, and is drawn without it. -/
theorem strips_rest (tag : TagText) (raw : holdsText tag.name = true) (opens : tag.opening <+: part)
    (last : behind = [])
    (own : (tag.tagOf (Location.start.advance earlier)).isServerControl = false) :
    Strips drawing earlier part behind (drawNode context drawing
      (.element (tag.tagOf (Location.start.advance earlier)) .unterminated [])) := by
  obtain ⟨more, rfl⟩ := opens
  have here : (tag.tagOf (Location.start.advance earlier)).region.last =
      Location.start.advance (earlier ++ tag.opening) := (Location.advance_append _ _ _).symm
  have left : behind ≠ [] → Calm more := fun follows => absurd last follows
  cases script : tag.name.is "script" with
  | true =>
      rw [drawNode_script script]
      exact ⟨.nil, rfl, tag.opening, more, rfl, here, left⟩
  | false =>
      rw [drawNode_paired script own _ _ _ rfl]
      constructor
      · exact inert_raw script _ raw (Text.cut?_self _)
      · rfl
      · exact ⟨tag.opening, more, rfl, here, left⟩

/-- A node that is read at once. -/
theorem strips_leaf {node : Node}
    (stands : StandsAt (Location.start.advance earlier) part behind (.leaf node))
    (source_eq : context.tree.source = earlier ++ (part ++ behind))
    (literal : ∀ element ∈ node.elements, element.isServerControl = false) :
    Strips drawing earlier part behind (drawNode context drawing node) := by
  cases stands with
  | other other region_eq =>
      rw [drawNode_other other, region_eq]
      exact strips_omitted (Location.advance_append _ _ _).symm
  | single tag bodiless whole =>
      exact strips_single tag bodiless whole (literal _ List.mem_cons_self)
  | raw tag raw ends whole =>
      exact strips_raw tag raw ends whole source_eq (literal _ List.mem_cons_self)
  | rest tag raw opens last =>
      exact strips_rest tag raw opens last (literal _ List.mem_cons_self)

variable {tag : TagText} (notScript : tag.name.is "script" = false)
  (literal : (tag.tagOf (Location.start.advance earlier)).isServerControl = false)

include notScript literal

variable {children : List Node}

/-- The children of an element are drawn behind its tag, and its end finishes what they leave. -/
theorem exists_body {inner follows : Text}
    (inside : ∀ drawing' : Drawing, drawing'.surface = drawing.surface →
      drawing'.previous = Location.start.advance (earlier ++ tag.opening) →
      Strips drawing' (earlier ++ tag.opening) inner follows
        (drawNodes context drawing' children)) :
    ∃ below, Strips drawing (earlier ++ tag.opening) inner follows below ∧
      ∀ ending, hasBody ending = true →
        drawNode context drawing
            (.element (tag.tagOf (Location.start.advance earlier)) ending children) =
          let content := endBody context
            ⟨tag.tagOf (Location.start.advance earlier), ending, children⟩ below
          (openTag (tag.tagOf (Location.start.advance earlier)) ++ ">" ++
            lead context drawing.surface (tag.tagOf (Location.start.advance earlier)).name ++
            content.1 ++ "</" ++ (tag.tagOf (Location.start.advance earlier)).name.text ++ ">",
            content.2) := by
  have here : (tag.tagOf (Location.start.advance earlier)).region.last =
      Location.start.advance (earlier ++ tag.opening) := (Location.advance_append _ _ _).symm
  obtain ⟨inert, surface_eq, reached⟩ := inside
    { drawing with previous := Location.start.advance (earlier ++ tag.opening) } rfl rfl
  rw [← here] at inert surface_eq reached
  exact ⟨_, ⟨inert, surface_eq, reached⟩, fun _ body =>
    drawNode_paired notScript literal context drawing children body⟩

/-- An element is drawn around its children and the text behind them, as one more stretch. -/
theorem strips_closed {inner gap closing : Text} (holds : holdsMarkup tag.name = true)
    (bare : context.head = [])
    (valid : ∀ name ∈ drawing.surface.container.names, Naming.isValid name = true)
    (source_eq : context.tree.source =
      earlier ++ (tag.opening ++ (inner ++ (gap ++ (closing ++ behind)))))
    (quiet : Quiet gap) (starts : closing.head? = some '<')
    (inside : ∀ drawing' : Drawing, drawing'.surface = drawing.surface →
      drawing'.previous = Location.start.advance (earlier ++ tag.opening) →
      Strips drawing' (earlier ++ tag.opening) inner (gap ++ (closing ++ behind))
        (drawNodes context drawing' children)) :
    Strips drawing earlier (tag.opening ++ (inner ++ (gap ++ closing))) behind
      (drawNode context drawing (.element (tag.tagOf (Location.start.advance earlier))
        (.closed ⟨Location.start.advance (earlier ++ (tag.opening ++ (inner ++ gap))),
          Location.start.advance (earlier ++ (tag.opening ++ (inner ++ (gap ++ closing))))⟩)
        children)) := by
  obtain ⟨⟨html, drawing'⟩, below, drawn⟩ := exists_body notScript literal inside
  rw [drawn (.closed _) rfl]
  obtain ⟨read, pending, split, reached, calm⟩ := below.reached
  dsimp only at reached
  have follows : gap ++ (closing ++ behind) ≠ [] := by
    rw [Piece.head?_eq_some_cons starts]
    simp
  -- What is left of the children stands together with the text in front of the closing tag.
  have trailing : context.tree.slice drawing'.previous
      (Location.start.advance (earlier ++ (tag.opening ++ (inner ++ gap)))) = pending ++ gap := by
    have whole : context.tree.source =
        (earlier ++ tag.opening ++ read) ++ ((pending ++ gap) ++ (closing ++ behind)) := by
      rw [source_eq, split]
      simp
    have sliced := Tree.slice_part whole
    rw [reached, split]
    simpa using sliced
  constructor
  · have closing := tag.shown.inert_closing
    have copied := Inert.behind ((calm follows).quiet.append quiet (.inr (calm follows).ended))
      closing (.inl rfl)
    rw [endBody_closed]
    dsimp only
    rw [trailing]
    refine inert_paired notScript _ holds bare valid ?_
    rw [List.append_assoc]
    exact below.inert.append copied
  · exact below.surface_eq
  · exact ⟨_, [], (List.append_nil _).symm, rfl, fun _ => calm_nil⟩

/-- An element without an end is closed behind its children; what is left of them stays in front of
the next stretch. -/
theorem strips_unterminated {inner : Text} (holds : holdsMarkup tag.name = true)
    (bare : context.head = [])
    (valid : ∀ name ∈ drawing.surface.container.names, Naming.isValid name = true)
    (inside : ∀ drawing' : Drawing, drawing'.surface = drawing.surface →
      drawing'.previous = Location.start.advance (earlier ++ tag.opening) →
      Strips drawing' (earlier ++ tag.opening) inner behind
        (drawNodes context drawing' children)) :
    Strips drawing earlier (tag.opening ++ inner) behind
      (drawNode context drawing (.element (tag.tagOf (Location.start.advance earlier))
        .unterminated children)) := by
  obtain ⟨⟨html, drawing'⟩, below, drawn⟩ := exists_body notScript literal inside
  rw [drawn .unterminated rfl]
  obtain ⟨read, pending, split, reached, calm⟩ := below.reached
  constructor
  · have closing := tag.shown.inert_closing
    exact inert_paired notScript _ holds bare valid (below.inert.append closing)
  · exact below.surface_eq
  · refine ⟨tag.opening ++ read, pending, by rw [split, List.append_assoc], ?_, calm⟩
    rw [← List.append_assoc]
    exact reached

end

/-! ## Forests -/

/-- A part of the source with the forest that was read from it, which holds no controls and can do
without what is left out.  Some calm text in front of it has not been copied yet. -/
structure Passage (source earlier pending text behind : Text) (events : List Event)
    (nodes : List Node) : Prop where
  source_eq : source = earlier ++ (pending ++ (text ++ behind))
  strung : Strung (Location.start.advance (earlier ++ pending)) text behind events
  calm : text ++ behind ≠ [] → Calm pending
  literal : ∀ element ∈ Node.elementsOf nodes, element.isServerControl = false
  removable : ∀ node ∈ Node.omittedOf nodes, node.Removable source

section

variable {context : DrawingContext} {source earlier pending text behind : Text}
  {events later : List Event} {nodes others : List Node} {drawing : Drawing}

/-- A passage is that of its first events and one behind it, which begins where the first one was
left. -/
theorem Passage.split
    (passage : Passage source earlier pending text behind (events ++ later) (nodes ++ others)) :
    ∃ front back, text = front ++ back ∧
      Passage source earlier pending front (back ++ behind) events nodes ∧
      ∀ read pending', pending ++ front = read ++ pending' →
        (back ++ behind ≠ [] → Calm pending') →
        Passage source (earlier ++ read) pending' back behind later others := by
  obtain ⟨front, back, rfl, here, there⟩ := passage.strung.split
  have whole := passage.source_eq
  have literal := passage.literal
  have removable := passage.removable
  rw [Node.elementsOf_append] at literal
  rw [Node.omittedOf_append] at removable
  refine ⟨front, back, rfl, ⟨?_, here, ?_, ?_, ?_⟩,
    fun read pending' same calm => ⟨?_, ?_, calm, ?_, ?_⟩⟩
  · rw [whole, List.append_assoc front]
  · rw [← List.append_assoc]
    exact passage.calm
  · exact fun element member => literal element (List.mem_append_left _ member)
  · exact fun node member => removable node (List.mem_append_left _ member)
  · rw [whole, List.append_assoc front, ← List.append_assoc pending, same]
    simp
  · have place : earlier ++ pending ++ front = earlier ++ read ++ pending' := by
      rw [List.append_assoc, same, List.append_assoc]
    rw [← Location.advance_append, place] at there
    exact there
  · exact fun element member => literal element (List.mem_append_right _ member)
  · exact fun node member => removable node (List.mem_append_right _ member)

/-- Nothing is drawn where there are no nodes. -/
theorem strips_nil (here : drawing.previous = Location.start.advance earlier)
    (calm : behind ≠ [] → Calm text) :
    Strips drawing earlier text behind (drawNodes context drawing []) where
  inert := .nil
  surface_eq := rfl
  reached := ⟨[], text, rfl, by rw [List.append_nil]; exact here, calm⟩

/-- The text in front of a node is copied. -/
theorem strips_cons {gap part : Text} {node : Node}
    (source_eq : context.tree.source = earlier ++ (pending ++ (gap ++ (part ++ behind))))
    (here : drawing.previous = Location.start.advance earlier)
    (first : node.region.first = Location.start.advance (earlier ++ (pending ++ gap)))
    (calm : Calm pending) (quiet : Quiet gap)
    (strips : Strips drawing (earlier ++ (pending ++ gap)) part behind
      (drawNode context drawing node))
    (apart : Apart (pending ++ gap) (drawNode context drawing node).1) :
    Strips drawing earlier (pending ++ (gap ++ part)) behind (drawNodes context drawing [node]) := by
  have whole : context.tree.source = earlier ++ ((pending ++ gap) ++ (part ++ behind)) := by
    rw [source_eq]
    simp
  have copied := Tree.slice_part whole
  obtain ⟨read, left, split, reached, calm'⟩ := strips.reached
  dsimp only [drawNodes]
  rw [here, first, copied, List.append_nil]
  constructor
  · exact strips.inert.behind (calm.quiet.append quiet (.inr calm.ended)) apart
  · exact strips.surface_eq
  · refine ⟨pending ++ gap ++ read, left, ?_, ?_, calm'⟩
    · rw [split]
      simp
    · rw [reached]
      simp

/-- What is drawn of an element that is no script begins with a tag. -/
theorem head?_drawNode {tag : Tag} (notScript : tag.name.is "script" = false)
    (literal : tag.isServerControl = false) (context : DrawingContext) (drawing : Drawing)
    (ending : TagEnd) (children : List Node) :
    (drawNode context drawing (.element tag ending children)).1.head? = some '<' := by
  cases body : hasBody ending with
  | true =>
      rw [drawNode_paired notScript literal context drawing children body]
      rfl
  | false =>
      rw [drawNode_single notScript literal context drawing children body]
      rfl

/-- Nothing comes of the text in front of a node in front of what is drawn of the node. -/
theorem apart_drawNode {node : Node} {front rest : Text}
    (source_eq : source = earlier ++ (front ++ rest))
    (first : node.region.first = Location.start.advance (earlier ++ front))
    (literal : ∀ element ∈ node.elements, element.isServerControl = false)
    (removable : ∀ omitted ∈ node.omitted, omitted.Removable source)
    (context : DrawingContext) (drawing : Drawing) :
    Apart front (drawNode context drawing node).1 := by
  have ended : node ∈ node.omitted → Ended front := fun member => by
    have apart := (removable node member).apart
    rw [first, source_eq, ← List.append_assoc, Source.before_advance] at apart
    exact apart.of_suffix (List.suffix_append _ _)
  cases node with
  | element tag ending children =>
      cases script : tag.name.is "script" with
      | true => exact .inr (ended (Node.mem_omitted_of_script script ending children))
      | false =>
          exact .inl (head?_drawNode script (literal _ List.mem_cons_self) context drawing ending
            children)
  | _ => exact .inr (ended (by simp [Node.omitted]))

/-- Every passage of a forest is drawn as far as some calm text. -/
def Passable (context : DrawingContext) (events : List Event) (nodes : List Node) : Prop :=
  ∀ (earlier pending text behind : Text) (drawing : Drawing),
    Passage context.tree.source earlier pending text behind events nodes →
    (∀ name ∈ drawing.surface.container.names, Naming.isValid name = true) →
    drawing.previous = Location.start.advance earlier →
    Strips drawing earlier (pending ++ text) behind (drawNodes context drawing nodes)

theorem Passable.append (former : Passable context events nodes)
    (latter : Passable context later others) :
    Passable context (events ++ later) (nodes ++ others) := by
  intro earlier pending text behind drawing passage valid here
  obtain ⟨front, back, rfl, first, second⟩ := passage.split
  have strips := former earlier pending front (back ++ behind) drawing first valid here
  obtain ⟨read, left, split, reached, calm⟩ := strips.reached
  rw [drawNodes_append]
  dsimp only
  generalize drawNodes context drawing nodes = drawn at strips reached ⊢
  have strips' := latter (earlier ++ read) left back behind drawn.2 (second read left split calm)
    (by rw [strips.surface_eq]; exact valid) reached
  obtain ⟨read', left', split', reached', calm'⟩ := strips'.reached
  constructor
  · exact strips.inert.append strips'.inert
  · exact strips'.surface_eq.trans strips.surface_eq
  · refine ⟨read ++ read', left', ?_, ?_, calm'⟩
    · rw [← List.append_assoc, split, List.append_assoc, split', List.append_assoc]
    · rw [reached', List.append_assoc]

theorem passable_nil : Passable context [] [] := by
  intro earlier pending text behind drawing passage valid here
  obtain ⟨-, strung, calm, -, -⟩ := passage
  cases strung with
  | nil =>
      rw [List.append_nil]
      exact strips_nil here calm

theorem passable_problem (diagnostic : Diagnostic) : Passable context [.problem diagnostic] [] := by
  intro earlier pending text behind drawing passage valid here
  obtain ⟨source_eq, strung, calm, literal, removable⟩ := passage
  cases strung with
  | problem diagnostic rest =>
      exact passable_nil earlier pending text behind drawing
        ⟨source_eq, rest, calm, literal, removable⟩ valid here
  | mark quiet starts stands rest => cases stands

/-- A closing tag that closes nothing is copied. -/
theorem passable_stray (name : Text) (region : Region) :
    Passable context [.closed name region] [] := by
  intro earlier pending text behind drawing passage valid here
  obtain ⟨-, strung, calm, -, -⟩ := passage
  cases strung with
  | @mark _ gap part text _ _ _ quiet starts stands rest =>
      cases rest
      cases stands with
      | closed name calm' =>
          refine strips_nil here fun follows => ?_
          have front := calm (by simp [follows])
          have own := calm' (by simpa using follows)
          rw [List.append_nil]
          exact front.append (quiet.calm_behind own starts)

/-- A node that takes a part of the source as a whole, behind a quiet gap. -/
theorem Passage.strips_node {node : Node} {gap part : Text}
    (passage : Passage context.tree.source earlier pending (gap ++ part) behind events [node])
    (here : drawing.previous = Location.start.advance earlier) (quiet : Quiet gap)
    (starts : part.head? = some '<')
    (first : node.region.first = Location.start.advance (earlier ++ (pending ++ gap)))
    (strips : Strips drawing (earlier ++ (pending ++ gap)) part behind
      (drawNode context drawing node)) :
    Strips drawing earlier (pending ++ (gap ++ part)) behind (drawNodes context drawing [node]) := by
  obtain ⟨source_eq, -, calm, literal, removable⟩ := passage
  rw [List.append_assoc gap] at source_eq
  have calm' : Calm pending := calm (by
    rw [Piece.head?_eq_some_cons starts]
    simp)
  have split : context.tree.source = earlier ++ ((pending ++ gap) ++ (part ++ behind)) := by
    rw [source_eq]
    simp
  refine strips_cons source_eq here first calm' quiet strips
    (apart_drawNode split first (fun element member => ?_) (fun omitted member => ?_) context
      drawing)
  · exact literal element (List.mem_append_left _ member)
  · exact removable omitted (List.mem_append_left _ member)

theorem passable_leaf (node : Node) : Passable context [.leaf node] [node] := by
  intro earlier pending text behind drawing passage valid here
  have strung := passage.strung
  cases strung with
  | @mark _ gap part text _ _ _ quiet starts stands rest =>
      cases rest
      rw [List.append_nil] at passage ⊢
      rw [List.nil_append, ← Location.advance_append, List.append_assoc] at stands
      have first : node.region.first = Location.start.advance (earlier ++ (pending ++ gap)) := by
        cases stands with
        | other other region_eq => rw [region_eq]
        | _ => rfl
      have source_eq := passage.source_eq
      refine passage.strips_node here quiet starts first (strips_leaf stands ?_ ?_)
      · rw [source_eq]
        simp
      · exact fun element member => passage.literal element (List.mem_append_left _ member)

/-- The children of an element have a passage of their own. -/
theorem Passage.children {tag : Tag} {ending : TagEnd} {children : List Node}
    {place inner rest : Text} {between : List Event}
    (passage : Passage source earlier pending text behind events [.element tag ending children])
    (notScript : tag.name.is "script" = false) (source_eq : source = place ++ (inner ++ rest))
    (strung : Strung (Location.start.advance place) inner rest between) :
    Passage source place [] inner rest between children where
  source_eq := source_eq
  strung := by
    rw [List.append_nil]
    exact strung
  calm := fun _ => calm_nil
  literal := fun element member => passage.literal element
    (List.mem_append_left _ (List.mem_cons_of_mem _ member))
  removable := fun node member => passage.removable node (by
    rw [Node.omittedOf, Node.omitted, notScript, if_neg Bool.false_ne_true]
    exact List.mem_append_left _ member)

variable {children : List Node}

theorem Passable.closed (inside : Passable context events children) (bare : context.head = [])
    (tag : Tag) (name : Text) (region : Region) :
    Passable context (.opened tag :: (events ++ [.closed name region]))
      [.element tag (.closed region) children] := by
  intro earlier pending text behind drawing passage valid here
  have strung := passage.strung
  cases strung with
  | @mark _ gap part text _ _ _ quiet starts stands rest =>
  obtain ⟨inner, back, rfl, between, ending⟩ := rest.split
  cases ending with
  | @mark _ gap' part' text _ _ _ quiet' starts' stands' rest' =>
  cases rest'
  cases stands' with
  | closed name calm' =>
  cases stands with
  | opened tag holds whole =>
  subst whole
  have literal := passage.literal _ List.mem_cons_self
  have source_eq := passage.source_eq
  simp only [List.append_nil, ← Location.advance_append, List.append_assoc] at *
  refine passage.strips_node here quiet starts rfl ?_
  cases script : tag.name.is "script" with
  | true =>
      rw [drawNode_script script]
      refine strips_omitted ?_
      simp only [List.append_assoc]
      rfl
  | false =>
      have place : ∀ rest, earlier ++ (pending ++ (gap ++ rest)) =
          earlier ++ (pending ++ gap) ++ rest := by simp
      rw [place] at source_eq between ⊢
      rw [place]
      refine strips_closed script literal holds bare valid source_eq quiet' starts'
        fun drawing' same reached => ?_
      rw [← List.append_assoc _ tag.opening] at source_eq
      have below := passage.children script source_eq between
      exact inside _ [] inner _ drawing' below (by rw [same]; exact valid) reached

theorem Passable.unterminated (inside : Passable context events children) (bare : context.head = [])
    (tag : Tag) :
    Passable context (.opened tag :: events) [.element tag .unterminated children] := by
  intro earlier pending text behind drawing passage valid here
  have strung := passage.strung
  cases strung with
  | @mark _ gap part inner _ _ _ quiet starts stands between =>
  cases stands with
  | opened tag holds whole =>
  subst whole
  have literal := passage.literal _ List.mem_cons_self
  have source_eq := passage.source_eq
  simp only [← Location.advance_append, List.append_assoc] at *
  refine passage.strips_node here quiet starts rfl ?_
  have place : ∀ rest, earlier ++ (pending ++ (gap ++ rest)) =
      earlier ++ (pending ++ gap) ++ rest := by simp
  rw [place] at source_eq between
  rw [← List.append_assoc _ tag.opening] at source_eq
  cases script : tag.name.is "script" with
  | true =>
      have removable := passage.removable _ (List.mem_append_left _
        (@Node.mem_omitted_of_script (tag.tagOf _) script .unterminated children))
      obtain rfl := removable.terminated _ rfl rfl
      -- There is nothing to draw in the script, so all that stands in it is calm.
      have nothing := inside (earlier ++ (pending ++ gap) ++ tag.opening) [] inner behind
        { drawing with
          previous := Location.start.advance (earlier ++ (pending ++ gap) ++ tag.opening) }
        ⟨source_eq, by rw [List.append_nil]; exact between, fun _ => calm_nil,
          fun _ member => (nomatch member), fun _ member => (nomatch member)⟩ valid rfl
      obtain ⟨read, left, split, reached, calm⟩ := nothing.reached
      obtain rfl := Source.eq_nil_of_advance reached.symm
      rw [drawNode_script script]
      refine ⟨.nil, rfl, tag.opening, inner, rfl, (Location.advance_append _ _ _).symm, ?_⟩
      rw [show inner = left from split]
      exact calm
  | false =>
      exact strips_unterminated script literal holds bare valid fun drawing' same reached =>
        inside _ [] inner _ drawing' (passage.children script source_eq between)
          (by rw [same]; exact valid) reached

/-- Whatever events make up a forest, it is drawn so. -/
theorem passable_of_spells (bare : context.head = []) (spells : Spells events nodes) :
    Passable context events nodes := by
  induction spells with
  | nil => exact passable_nil
  | append _ _ ih ih' => exact ih.append ih'
  | problem diagnostic => exact passable_problem diagnostic
  | stray name region => exact passable_stray name region
  | leaf node => exact passable_leaf node
  | closed _ tag name region ih => exact ih.closed bare tag name region
  | unterminated _ tag ih => exact ih.unterminated bare tag

end

end DesignHtml

/-! ## The drawn element -/

namespace Event

/-- An element among the nodes is made up of some of the events, the first of which brings its
tag. -/
theorem Spells.exists_own {events : List Event} {nodes : List Node} (spells : Spells events nodes)
    {tag : Tag} {ending : TagEnd} {children : List Node}
    (member : .element tag ending children ∈ nodes) :
    ∃ former event own latter, events = former ++ (event :: own ++ latter) ∧
      Spells (event :: own) [.element tag ending children] ∧
      (event = .leaf (.element tag ending children) ∨ event = .opened tag) := by
  induction spells with
  | nil => cases member
  | problem => cases member
  | stray => cases member
  | @append events behind _ _ _ _ ih ih' =>
      rcases List.mem_append.mp member with here | later
      · obtain ⟨former, event, own, latter, rfl, spells, brings⟩ := ih here
        exact ⟨former, event, own, latter ++ behind, by simp, spells, brings⟩
      · obtain ⟨former, event, own, latter, rfl, spells, brings⟩ := ih' later
        exact ⟨events ++ former, event, own, latter, by simp, spells, brings⟩
  | leaf node =>
      obtain rfl := List.mem_singleton.mp member
      exact ⟨[], _, [], [], rfl, .leaf _, .inl rfl⟩
  | closed inner tag name region =>
      obtain ⟨rfl, rfl, rfl⟩ := Node.element.inj (List.mem_singleton.mp member)
      exact ⟨[], _, _, [], by simp, inner.closed _ name region, .inr rfl⟩
  | unterminated inner tag =>
      obtain ⟨rfl, rfl, rfl⟩ := Node.element.inj (List.mem_singleton.mp member)
      exact ⟨[], _, _, [], by simp, inner.unterminated _, .inr rfl⟩

/-- The first event that brings a tag takes a part behind a gap. -/
theorem Strung.exists_gap {location : Location} {text behind : Text} {event : Event}
    {events : List Event} {tag : Tag} {ending : TagEnd} {children : List Node}
    (brings : event = .leaf (.element tag ending children) ∨ event = .opened tag)
    (strung : Strung location text behind (event :: events)) :
    ∃ gap rest, text = gap ++ rest ∧ tag.region.first = location.advance gap ∧
      Strung (location.advance gap) rest behind (event :: events) := by
  cases strung with
  | problem => rcases brings with same | same <;> cases same
  | @mark _ gap part text _ _ _ quiet starts stands later =>
      rw [Location.advance_append] at later
      refine ⟨gap, part ++ text, rfl, ?_, @Strung.mark _ [] _ _ _ _ _ .nil starts stands later⟩
      rcases brings with rfl | rfl
      · cases stands with
        | other other => cases other
        | _ => rfl
      · cases stands
        rfl

end Event

namespace Tree

/-- The nodes that are left out where the tree is drawn, inside the element that is drawn. -/
def omitted (tree : Tree) : List Node :=
  match tree.root? with
  | none => []
  | some root => if root.name.is "script" then [] else Node.omittedOf root.children

theorem root?_eq (tree : Tree) :
    tree.root? = (tree.nodes.find? fun node => node.element?.isSome).bind Node.element? := by
  unfold root?
  induction tree.nodes with
  | nil => rfl
  | cons node nodes ih =>
      rw [List.findSome?_cons, List.find?_cons]
      cases found : node.element? with
      | none => exact ih
      | some element => exact found.symm

end Tree

namespace DesignHtml

/-- What is drawn of an element does not depend on what was drawn before. -/
theorem drawNode_congr {context : DrawingContext} (surface : Surface) (place place' : Location)
    (warnings : List Diagnostic) (tag : Tag) (ending : TagEnd) (children : List Node) :
    drawNode context ⟨surface, place, warnings⟩ (.element tag ending children) =
      drawNode context ⟨surface, place', warnings⟩ (.element tag ending children) := by
  rw [drawNode, drawNode]

/-- What is drawn of an element of a parsed text is inert, if it holds no controls and can do
without what is left out. -/
theorem inert_drawNode {text : Text} {tag : Tag} {ending : TagEnd} {children : List Node}
    (member : .element tag ending children ∈ (Tree.parse text).nodes)
    (notScript : tag.name.is "script" = false)
    (literal : ∀ element ∈ (Tree.parse text).elements, element.isServerControl = false)
    (removable : ∀ node ∈ Node.omittedOf children, node.Removable text) {surface : Surface}
    (valid : ∀ name ∈ surface.container.names, Naming.isValid name = true)
    (designers : DesignerRegistry) :
    Inert (drawNode ⟨Tree.parse text, designers, []⟩ ⟨surface, .start, []⟩
      (.element tag ending children)).1 := by
  obtain ⟨former, event, own, latter, split, spells, brings⟩ :=
    (Tree.spells_parse text).exists_own member
  obtain ⟨body, trailing, shape, strung⟩ := Event.exists_strung .start text
  rw [show Event.eventsFrom .start 0 text = _ from split] at strung
  obtain ⟨front, back, rfl, -, behind⟩ := strung.split
  obtain ⟨part, back, rfl, here, -⟩ := behind.split
  obtain ⟨gap, rest, rfl, first, here⟩ := here.exists_gap brings
  rw [← Location.advance_append] at first here
  have source_eq : text = front ++ gap ++ ([] ++ (rest ++ (back ++ trailing))) := by
    rw [shape]
    simp
  have passage : Passage (Tree.parse text).source (front ++ gap) [] rest (back ++ trailing)
      (event :: own) [.element tag ending children] := by
    refine ⟨source_eq, ?_, fun _ => calm_nil, fun element inside => ?_, fun node inside => ?_⟩
    · rw [List.append_nil]
      exact here
    · obtain ⟨earlier, later, nodes⟩ := List.append_of_mem member
      refine literal element ?_
      show element ∈ Node.elementsOf (Tree.parse text).nodes
      rw [nodes, List.append_cons, Node.elementsOf_append, Node.elementsOf_append]
      exact List.mem_append_left _ (List.mem_append_right _ inside)
    · rw [Node.omittedOf, Node.omitted, notScript, if_neg Bool.false_ne_true, Node.omittedOf,
        List.append_nil] at inside
      exact removable node inside
  have strips := @passable_of_spells ⟨Tree.parse text, designers, []⟩ _ _ rfl spells
    (front ++ gap) [] rest (back ++ trailing)
    ⟨surface, Location.start.advance (front ++ gap), []⟩ passage valid rfl
  have inert := strips.inert
  have nothing := @Tree.slice_part (Tree.parse text) _ [] _ source_eq
  rw [List.append_nil] at nothing
  dsimp only [drawNodes] at inert
  rw [show (Node.element tag ending children).region.first = _ from first, nothing, List.nil_append,
    List.append_nil, drawNode_congr surface _ .start] at inert
  exact inert

/-- What is drawn of a text without controls is inert, if it can do without what is left out. -/
theorem inert_draw {text : Text} (literal : (Tree.parse text).controls = [])
    (removable : ∀ node ∈ (Tree.parse text).omitted, node.Removable text) {surface : Surface}
    (valid : ∀ name ∈ surface.container.names, Naming.isValid name = true)
    (designers : DesignerRegistry) :
    Inert (draw ⟨Tree.parse text, designers, []⟩ surface).1.html := by
  have root := (Tree.parse text).root?_eq
  unfold draw
  dsimp only
  cases found : (Tree.parse text).nodes.find? fun node => node.element?.isSome with
  | none => exact .nil
  | some node =>
      rw [found] at root
      have member := List.mem_of_find?_eq_some found
      have isElement := List.find?_some found
      cases node with
      | element tag ending children =>
          cases script : tag.name.is "script" with
          | true =>
              dsimp only
              rw [drawNode_script script]
              exact .nil
          | false =>
              have omitted : (Tree.parse text).omitted = Node.omittedOf children := by
                unfold Tree.omitted
                rw [root]
                show (if tag.name.is "script" = true then _ else _) = _
                rw [script, if_neg Bool.false_ne_true]
              rw [omitted] at removable
              have none' := List.filter_eq_nil_iff.mp literal
              exact inert_drawNode member script
                (fun element inside => Bool.eq_false_iff.mpr (none' element inside)) removable valid
                designers
      | _ => cases isElement

end DesignHtml

namespace Document

/-- What a document shows is harmless, if it has no controls and can do without what is left out. -/
theorem harmless_designHtml {document : Document} (sound : document.Sound)
    (bare : document.options.context = [])
    (literal : (Tree.parse document.text).controls = [])
    (removable : ∀ node ∈ (Tree.parse document.text).omitted, node.Removable document.text)
    (valid : ∀ name ∈ document.surface.container.names, Naming.isValid name = true) :
    (Tree.parse document.designHtml.1.html).Harmless := by
  obtain ⟨after, parsed, _, agrees, surface, _⟩ := parse_eq sound
  have context : after.options.context = [] := by rw [agrees.options_eq, bare]
  unfold designHtml
  rw [parsed]
  dsimp only
  rw [context, surface]
  exact (DesignHtml.inert_draw literal removable valid _).harmless_parse

end Document

end PageDesigner
