import PageDesigner.Proofs.Document.Outline
import PageDesigner.Proofs.Document.Reconciliation

/-!
# In place of which tags components are drawn

Of the elements that are shown, those with a component are drawn in its place, in the order of
the markup (`Outline.marksOf_outline`).  The component is the one that the id names, whatever the
tag stands for.  When the components are in line with the tags, each one is drawn at most once
and in place of its own tag, unless a tag of no known type is shown that has the id of a
component (`Outline.drawnOnce_iff`).
-/

namespace PageDesigner

namespace Container

/-- A stored name is that of a component. -/
theorem exists_of_storedName? {container : Container} {name stored : Text}
    (found : container.storedName? name = some stored) :
    ∃ site, container.site? name = some site ∧ site.name = stored ∧
      container.get? stored = some site.component := by
  obtain ⟨site, found', rfl⟩ := Option.map_eq_some_iff.mp found
  refine ⟨site, found', rfl, ?_⟩
  rw [get?_congr (sameName_of_site? found')]
  exact congrArg (Option.map _) found'

end Container

namespace Component

/-- Whether a component shows what its tag holds. -/
def opens (component : Component) : Bool :=
  match component.controlType.look with
  | .form => true
  | .generic => component.flag "Visible" && !component.shape.isVoid
  | _ => false

theorem any_frame? (component : Component) (site : Text) :
    (component.frame? site).any (·.isOpen) = component.opens := by
  unfold frame? opens
  cases component.controlType.look with
  | form => rfl
  | generic =>
      dsimp only
      by_cases visible : component.flag "Visible" = true
      · rw [if_pos visible, visible]
        unfold genericFrame
        dsimp only
        by_cases void : component.shape.isVoid = true
        · rw [if_pos void, void]
          rfl
        · rw [if_neg void, Bool.eq_false_iff.mpr void]
          rfl
      · rw [if_neg visible, Bool.eq_false_iff.mpr visible]
        rfl
  | _ => rfl

theorem opens_prepared (component : Component) : component.prepared.opens = component.opens := by
  rw [← any_frame? _ [], ← any_frame? _ [], frame?_prepared]

end Component

open DesignHtml (componentOf? hasBody)

namespace Surface

/-- Whether the component with a name shows what its tag holds. -/
def opens (surface : Surface) (name : Text) : Bool :=
  (surface.container.get? name).any Component.opens

/-- Two surfaces on which tags are drawn in the same places. -/
structure Looks (surface other : Surface) : Prop where
  names_eq : other.container.names = surface.container.names
  opens_eq : ∀ name, other.opens name = surface.opens name

theorem Looks.refl (surface : Surface) : surface.Looks surface := ⟨rfl, fun _ => rfl⟩

/-- Drawing prepares components, which does not matter for where they are drawn. -/
theorem drawable_looks (surface : Surface) : DesignHtml.Drawable surface.Looks := by
  intro other name component drawn looks found prepared
  refine ⟨?_, fun name' => ?_⟩
  · rw [Container.names_update]
    exact looks.names_eq
  · rw [← looks.opens_eq name']
    unfold Surface.opens
    dsimp only
    by_cases same : name.sameName name' = true
    · rw [← Container.get?_congr same, ← Container.get?_congr same, Container.get?_update_self,
        found, Option.map_some, Option.any_some, Option.any_some]
      obtain rfl | rfl := prepared
      · rfl
      · exact component.opens_prepared
    · rw [Container.get?_update_of_ne (Bool.eq_false_iff.mpr same)]

theorem Looks.componentOf?_eq {surface other : Surface} (looks : surface.Looks other) (tag : Tag) :
    componentOf? other tag = componentOf? surface tag := by
  have stored : other.container.storedName? = surface.container.storedName? := by
    funext name
    rw [Container.storedName?_eq_find?, looks.names_eq, ← Container.storedName?_eq_find?]
  unfold componentOf?
  rw [stored]

end Surface

namespace Node

mutual

/-- The elements that are drawn of a node: no script, and nothing inside a component that does not
show what its tag holds. -/
def shown (surface : Surface) : Node → List Element
  | element tag ending children =>
      if tag.name.is "script" then []
      else
        ⟨tag, ending, children⟩ ::
          if hasBody ending && (componentOf? surface tag).all surface.opens then
            shownOf surface children
          else []
  | _ => []

/-- The elements that are drawn of a forest. -/
def shownOf (surface : Surface) : List Node → List Element
  | [] => []
  | node :: rest => shown surface node ++ shownOf surface rest

end

variable {surface : Surface}

mutual

theorem shown_sublist (node : Node) : (shown surface node).Sublist node.elements := by
  cases node with
  | element tag ending children =>
      rw [shown, elements]
      split
      · exact List.nil_sublist _
      · refine List.Sublist.cons_cons _ ?_
        split
        · exact shownOf_sublist children
        · exact List.nil_sublist _
  | _ => exact List.nil_sublist _

theorem shownOf_sublist (nodes : List Node) :
    (shownOf surface nodes).Sublist (elementsOf nodes) := by
  cases nodes with
  | nil => exact List.nil_sublist _
  | cons node rest =>
      rw [shownOf, elementsOf]
      exact (shown_sublist node).append (shownOf_sublist rest)

end

theorem elements_sublist {node : Node} {nodes : List Node} (member : node ∈ nodes) :
    node.elements.Sublist (elementsOf nodes) := by
  induction nodes with
  | nil => cases member
  | cons head rest ih =>
      rw [elementsOf]
      obtain rfl | later := List.mem_cons.mp member
      · exact List.sublist_append_left _ _
      · exact (ih later).trans (List.sublist_append_right _ _)

end Node

/-- The elements that are drawn of a tree. -/
def Tree.shown (tree : Tree) (surface : Surface) : List Element :=
  match tree.nodes.find? fun node => node.element?.isSome with
  | none => []
  | some node => node.shown surface

theorem Tree.shown_sublist (tree : Tree) (surface : Surface) :
    (tree.shown surface).Sublist tree.elements := by
  unfold Tree.shown
  split
  · exact List.nil_sublist _
  next node found =>
    exact (Node.shown_sublist node).trans (Node.elements_sublist (List.mem_of_find?_eq_some found))

namespace Outline

open DesignHtml (drawNode drawNodes holds_drawNode holds_drawNodes)

/-- The element with the name of the component that is drawn in its place. -/
def mark? (surface : Surface) (element : Element) : Option (Element × Text) :=
  (componentOf? surface element.toTag).map (element, ·)

variable {surface : Surface}

theorem mark?_eq_some {element : Element} {mark : Element × Text} :
    mark? surface element = some mark ↔
      mark.1 = element ∧ componentOf? surface element.toTag = some mark.2 := by
  unfold mark?
  rw [Option.map_eq_some_iff]
  constructor
  · rintro ⟨name, named, rfl⟩
    exact ⟨rfl, named⟩
  · rintro ⟨rfl, named⟩
    exact ⟨mark.2, named, rfl⟩

theorem mark?_eq_none {element : Element} (literal : componentOf? surface element.toTag = none) :
    mark? surface element = none := by
  unfold mark?
  rw [literal]
  rfl

/-- A component is drawn in place of a tag that has its id. -/
theorem exists_of_componentOf? {tag : Tag} {name : Text}
    (drawn : componentOf? surface tag = some name) :
    tag.isServerControl = true ∧ ∃ id site, tag.id? = some id ∧
      surface.container.site? id = some site ∧ site.name = name ∧
      surface.container.get? name = some site.component := by
  unfold componentOf? at drawn
  split at drawn
  next control =>
    obtain ⟨id, named, stored⟩ := Option.bind_eq_some_iff.mp drawn
    obtain ⟨site, found, facts⟩ := Container.exists_of_storedName? stored
    exact ⟨control, id, site, named, found, facts⟩
  next => cases drawn

/-! ## The marks of an outline -/

theorem marksOf_component (context : DrawingContext) {name : Text} {found : Component}
    (sited : surface.container.get? name = some found) (element : Element)
    (inner? : Option (List Piece)) :
    marksOf (component context surface element name inner?) =
      (element, name) :: if surface.opens name then marksOf (inner?.getD []) else [] := by
  unfold component Surface.opens
  rw [sited, Option.any_some, ← found.any_frame? name]
  dsimp only
  cases inner? with
  | none =>
      rw [Option.bind_none]
      dsimp only
      rw [marksOf_marked, marksOf_cons_literal, Option.getD_none, marksOf, ite_self]
  | some inner =>
      rw [Option.bind_some, Option.getD_some]
      cases found.frame? name with
      | none => exact (marksOf_marked _ _ _).trans (congrArg _ (marksOf_cons_literal _ _))
      | some frame => exact (marksOf_marked _ _ _).trans (congrArg _ (marksOf_around _ _))

theorem marksOf_body (context : DrawingContext) (element : Element) (pieces : List Piece)
    (drawing : Drawing) : marksOf (body context element pieces drawing) = marksOf pieces := by
  unfold body
  split
  · rw [marksOf_append, marksOf_cons_literal, marksOf, List.append_nil]
  · rfl

mutual

/-- A node is marked where an element that is shown has a component. -/
theorem marksOf_outlineNode (context : DrawingContext) {drawing : Drawing}
    (looks : surface.Looks drawing.surface) (node : Node) :
    marksOf (outlineNode context drawing node) = (node.shown surface).filterMap (mark? surface) := by
  cases node with
  | element tag ending children =>
      have inside := @marksOf_outlineNodes context
        { drawing with previous := tag.region.last } looks children
      have below := @holds_drawNodes surface.Looks (Surface.drawable_looks surface) context
        { drawing with previous := tag.region.last } looks children
      rw [outlineNode, Node.shown]
      dsimp only
      by_cases script : tag.name.is "script" = true
      · rw [if_pos script, if_pos script]
        rfl
      rw [if_neg script, if_neg script, looks.componentOf?_eq tag]
      cases drawn : componentOf? surface tag with
      | some name =>
          have mark : mark? surface ⟨tag, ending, children⟩ = some (⟨tag, ending, children⟩, name) :=
            mark?_eq_some.mpr ⟨rfl, drawn⟩
          -- The component is there before its content is drawn and after it.
          have sited := fun {other} (looks : surface.Looks other) =>
            exists_of_componentOf? ((looks.componentOf?_eq tag).trans drawn)
          rw [List.filterMap_cons_some mark]
          dsimp only
          by_cases content : hasBody ending = true
          · obtain ⟨-, -, site, -, -, -, found⟩ := sited below
            rw [if_pos content, marksOf_component context found, Option.getD_some, marksOf_body,
              inside, content, Option.all_some, Bool.true_and, below.opens_eq]
            split <;> rfl
          · obtain ⟨-, -, site, -, -, -, found⟩ := sited looks
            rw [if_neg content, marksOf_component context found, Option.getD_none, marksOf, ite_self,
              Bool.eq_false_iff.mpr content, Bool.false_and, if_neg Bool.false_ne_true]
            rfl
      | none =>
          have unmarked : mark? surface ⟨tag, ending, children⟩ = none := mark?_eq_none drawn
          rw [List.filterMap_cons_none unmarked]
          dsimp only
          by_cases content : hasBody ending = true
          · rw [if_pos content, marksOf_cons_literal, marksOf_append, marksOf_body, inside,
              marksOf_cons_literal, marksOf, List.append_nil, content]
            rfl
          · rw [if_neg content, marksOf_cons_literal, marksOf, Bool.eq_false_iff.mpr content]
            rfl
  | _ => rfl

/-- Nodes are marked where an element that is shown has a component. -/
theorem marksOf_outlineNodes (context : DrawingContext) {drawing : Drawing}
    (looks : surface.Looks drawing.surface) (nodes : List Node) :
    marksOf (outlineNodes context drawing nodes) =
      (Node.shownOf surface nodes).filterMap (mark? surface) := by
  cases nodes with
  | nil => rfl
  | cons node rest =>
      have later := holds_drawNode (Surface.drawable_looks surface) context looks node
      rw [outlineNodes, Node.shownOf, marksOf_cons_literal, marksOf_append, List.filterMap_append,
        marksOf_outlineNode context looks node, marksOf_outlineNodes context later rest]

end

/-- A tree is marked where an element that is shown has a component. -/
theorem marksOf_outline (context : DrawingContext) (surface : Surface) :
    marksOf (outline context surface) = (context.tree.shown surface).filterMap (mark? surface) := by
  unfold outline Tree.shown
  cases context.tree.nodes.find? fun node => node.element?.isSome with
  | none => rfl
  | some node => exact @marksOf_outlineNode surface context ⟨surface, .start, []⟩ (.refl surface) node

/-! ## Components in place of their own tags -/

open Surface (StandsFor)
open ScanPass (claims)

/-- Each component is drawn at most once, in place of its own tag, and the root is not drawn. -/
structure DrawnOnce (registry : Registry) (surface : Surface) (marks : List (Element × Text)) :
    Prop where
  once : (marks.map (·.2)).Nodup
  own : ∀ element name, (element, name) ∈ marks →
    ∃ site, site.name = name ∧ StandsFor registry surface element site
  notRoot : ∀ element name, (element, name) ∈ marks → surface.isRoot name = false

variable {registry : Registry}

/-- Where tags of known types are marked, their ids are claimed. -/
theorem names_sublist {elements : List Element}
    (known : ∀ element ∈ elements, registry.resolve? element.name = none →
      componentOf? surface element.toTag = none) :
    ((elements.filterMap (mark? surface)).map (·.2.lower)).Sublist
      ((claims registry (elements.filter (·.isServerControl))).map Text.lower) := by
  induction elements with
  | nil => exact List.nil_sublist _
  | cons element rest ih =>
      have later := ih fun other member => known other (List.mem_cons_of_mem element member)
      cases drawn : componentOf? surface element.toTag with
      | none =>
          rw [List.filterMap_cons_none (mark?_eq_none drawn)]
          refine later.trans (List.Sublist.map _ (List.Sublist.filterMap _ ?_))
          exact (List.sublist_cons_self element rest).filter _
      | some name =>
          obtain ⟨control, id, site, named, found, rfl, -⟩ := exists_of_componentOf? drawn
          cases resolved : registry.resolve? element.name with
          | none =>
              rw [known element List.mem_cons_self resolved] at drawn
              cases drawn
          | some controlType =>
              have same : site.name.lower = id.lower :=
                Text.sameName_iff.mp (Container.sameName_of_site? found)
              have mark : mark? surface element = some (element, site.name) :=
                mark?_eq_some.mpr ⟨rfl, drawn⟩
              have kept : (element :: rest).filter (·.isServerControl) =
                  element :: rest.filter (·.isServerControl) := List.filter_cons_of_pos control
              rw [List.filterMap_cons_some mark, kept, ScanPass.claims_cons_known resolved named,
                List.map_cons, List.map_cons, same]
              exact later.cons_cons _

/-- When the components are in line with the tags, each is drawn once and in place of its own tag,
just in case no tag of an unknown type is shown that has the id of a component. -/
theorem drawnOnce_iff {mode : ScanMode} {context : DrawingContext}
    (reconciled : Surface.Reconciled registry mode context.tree.controls surface) :
    DrawnOnce registry surface (marksOf (outline context surface)) ↔
      ∀ element ∈ context.tree.shown surface, registry.resolve? element.name = none →
        componentOf? surface element.toTag = none := by
  rw [marksOf_outline]
  have marked : ∀ element name,
      (element, name) ∈ (context.tree.shown surface).filterMap (mark? surface) ↔
        element ∈ context.tree.shown surface ∧ componentOf? surface element.toTag = some name := by
    intro element name
    rw [List.mem_filterMap]
    constructor
    · rintro ⟨element', member, mark⟩
      obtain ⟨rfl, drawn⟩ := mark?_eq_some.mp mark
      exact ⟨member, drawn⟩
    · rintro ⟨member, drawn⟩
      exact ⟨element, member, mark?_eq_some.mpr ⟨rfl, drawn⟩⟩
  constructor
  · intro drawnOnce element member unknown
    cases drawn : componentOf? surface element.toTag with
    | none => rfl
    | some name =>
        obtain ⟨site, -, stands⟩ := drawnOnce.own element name ((marked _ _).mpr ⟨member, drawn⟩)
        obtain ⟨controlType, resolved, -⟩ := stands.typed
        rw [unknown] at resolved
        cases resolved
  · intro known
    have own : ∀ element name,
        (element, name) ∈ (context.tree.shown surface).filterMap (mark? surface) →
        ∃ site, site.name = name ∧ StandsFor registry surface element site := by
      intro element name mark
      obtain ⟨member, drawn⟩ := (marked element name).mp mark
      obtain ⟨control, id, site, named, found, rfl, -⟩ := exists_of_componentOf? drawn
      have listed : element ∈ context.tree.controls :=
        List.mem_filter.mpr ⟨(context.tree.shown_sublist surface).subset member, control⟩
      cases resolved : registry.resolve? element.name with
      | none =>
          rw [known element member resolved] at drawn
          cases drawn
      | some controlType =>
          obtain ⟨other, stands, -⟩ := reconciled.stands element listed controlType resolved
          obtain ⟨id', named', -, -, found'⟩ := stands.named
          rw [show element.id? = some id from named] at named'
          obtain rfl := Option.some.inj named'
          rw [found] at found'
          obtain rfl := Option.some.inj found'
          exact ⟨site, rfl, stands⟩
    refine ⟨?_, own, fun element name mark => ?_⟩
    · have claimed := names_sublist known
      have within : (claims registry ((context.tree.shown surface).filter
          (·.isServerControl))).Sublist (claims registry context.tree.controls) :=
        ((context.tree.shown_sublist surface).filter _).filterMap _
      have once : ((((context.tree.shown surface).filterMap (mark? surface)).map
          (·.2)).map Text.lower).Nodup := by
        rw [List.map_map]
        exact reconciled.once.sublist (claimed.trans (within.map Text.lower))
      exact once.of_map
    · obtain ⟨site, rfl, stands⟩ := own element name mark
      exact (Surface.mem_controlSites.mp stands.mem).2

end Outline

end PageDesigner
