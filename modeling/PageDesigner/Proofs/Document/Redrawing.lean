import PageDesigner.Proofs.Document.Marking
import PageDesigner.Proofs.Surface.Alike

/-!
# Drawing again

Before a component is drawn it is prepared, which resolves the address of a link and changes nothing
else.  Preparing twice is preparing once, and drawing commutes with preparing every component first
(`DesignHtml.drawNode_prepared`).  Since drawing leaves a surface that is equal once its components
are prepared, it draws the same again (`Document.html_designHtml_again`).
-/

namespace PageDesigner

namespace Component

/-- Two components that differ at most in the address that a link has resolved. -/
def SameUntilResolved (component other : Component) : Prop :=
  other = { component with resolvedUrl := other.resolvedUrl }

variable {component other : Component}

theorem prepared_eq (component : Component) :
    component.prepared =
      { component with resolvedUrl := component.prepared.resolvedUrl } := by
  unfold prepared
  split <;> rfl

theorem prepared_prepared (component : Component) :
    component.prepared.prepared = component.prepared := by
  unfold prepared
  by_cases url : component.hasUrl = true
  · rw [if_pos url]
    exact if_pos url
  · rw [if_neg url]
    exact if_neg url

/-- What is equal once it is prepared differs at most in a resolved address. -/
theorem sameUntilResolved_of_prepared (same : other.prepared = component.prepared) :
    SameUntilResolved component other := by
  have eq := prepared_eq other
  rw [same, prepared_eq component] at eq
  obtain ⟨controlType, values, handlers, shape, resolvedUrl, children⟩ := component
  obtain ⟨controlType', values', handlers', shape', resolvedUrl', children'⟩ := other
  simp only [Component.mk.injEq] at eq
  obtain ⟨rfl, rfl, rfl, rfl, -, rfl⟩ := eq
  rfl

/-- Preparing a component does not matter for what it draws around its content. -/
theorem renderAround?_prepared (component : Component) (site : Text) :
    component.prepared.renderAround? site = component.renderAround? site := by
  funext inner
  rw [renderAround?_eq, renderAround?_eq, frame?_prepared]

end Component

namespace Designer

/-- Preparing a component does not matter for whether a copy of it is drawn, and for that copy. -/
theorem shown_prepared (designer : Designer) (site : Text) (component : Component) :
    designer.shown site component.prepared = designer.shown site component := by
  rw [component.prepared_eq]
  cases designer <;> rfl

/-- A designer draws a prepared component as the component. -/
theorem draw_prepared (designer : Designer) (site : Text) (component : Component) :
    (designer.draw site component.prepared).1 = (designer.draw site component).1 ∧
      (designer.draw site component.prepared).2 = (designer.draw site component).2.prepared := by
  unfold draw
  rw [shown_prepared]
  cases designer.shown site component with
  | some copy => exact ⟨rfl, rfl⟩
  | none =>
      unfold renderOrPlaceholder
      dsimp only
      rw [Component.prepared_prepared]
      exact ⟨rfl, rfl⟩

end Designer

namespace Container

/-- The container with every component prepared. -/
def prepared (container : Container) : Container :=
  ⟨container.sites.map fun site => { site with component := site.component.prepared }⟩

variable {container : Container}

theorem names_prepared (container : Container) : container.prepared.names = container.names := by
  unfold prepared names
  rw [List.map_map]
  rfl

theorem storedName?_prepared (container : Container) :
    container.prepared.storedName? = container.storedName? := by
  funext name
  rw [storedName?_eq_find?, names_prepared, ← storedName?_eq_find?]

theorem contains_prepared (container : Container) :
    container.prepared.contains = container.contains := by
  have stored : ∀ (container : Container) name,
      container.contains name = (container.storedName? name).isSome := fun _ _ =>
    Option.isSome_map.symm
  funext name
  rw [stored, stored, storedName?_prepared]

theorem get?_prepared (container : Container) (name : Text) :
    container.prepared.get? name = (container.get? name).map Component.prepared := by
  unfold prepared get? site?
  rw [List.find?_map, Option.map_map, Option.map_map]
  rfl

/-- Preparing every component commutes with replacing one. -/
theorem prepared_update (container : Container) (name : Text) (component : Component) :
    (container.update name fun _ => component).prepared =
      container.prepared.update name fun _ => component.prepared := by
  obtain ⟨sites⟩ := container
  induction sites with
  | nil => rfl
  | cons site rest ih =>
      have behind : prepared ⟨site :: rest⟩ =
          ⟨{ site with component := site.component.prepared } :: (prepared ⟨rest⟩).sites⟩ := rfl
      rw [behind, update_cons, update_cons]
      by_cases same : site.name.sameName name = true
      · rw [if_pos same, if_pos same]
        rfl
      · rw [if_neg same, if_neg same, ← ih]
        rfl

/-- Replacing a component by itself changes nothing. -/
theorem update_self {name : Text} {component : Component}
    (found : container.get? name = some component) :
    (container.update name fun _ => component) = container := by
  obtain ⟨sites⟩ := container
  induction sites with
  | nil => rfl
  | cons site rest ih =>
      rw [update_cons]
      unfold get? site? at found
      rw [List.find?_cons] at found
      cases same : site.name.sameName name with
      | true =>
          rw [same] at found
          rw [if_pos rfl, ← Option.some.inj found]
      | false =>
          rw [same] at found
          rw [if_neg Bool.false_ne_true, ih found]

/-- Containers that are equal once their components are prepared differ at most in resolved
addresses. -/
theorem related_of_prepared {other : Container} (same : other.prepared = container.prepared) :
    Related Component.SameUntilResolved container other := by
  obtain ⟨sites⟩ := container
  obtain ⟨sites'⟩ := other
  have same' := Container.mk.inj same
  dsimp only at same'
  induction sites generalizing sites' with
  | nil =>
      rw [List.map_eq_nil_iff.mp same']
      exact .nil
  | cons site rest ih =>
      cases sites' with
      | nil => cases same'
      | cons site' rest' =>
          obtain ⟨here, behind⟩ := List.cons.inj same'
          obtain ⟨name, component⟩ := Site.mk.inj here
          exact .cons ⟨name, Component.sameUntilResolved_of_prepared component⟩
            (ih rest' (congrArg Container.mk behind) behind)

end Container

namespace Surface

/-- The surface with every component prepared. -/
def prepared (surface : Surface) : Surface :=
  { surface with container := surface.container.prepared }

end Surface

/-- What is drawn, with every component prepared. -/
def Drawing.prepared (drawing : Drawing) : Drawing :=
  { drawing with surface := drawing.surface.prepared }

namespace DesignHtml

/-! ## Drawing what is prepared -/

theorem componentOf?_prepared (surface : Surface) :
    componentOf? surface.prepared = componentOf? surface := by
  funext tag
  unfold componentOf? Surface.prepared
  rw [Container.storedName?_prepared]

theorem lead_prepared (context : DrawingContext) (surface : Surface) :
    lead context surface.prepared = lead context surface := by
  funext name
  unfold lead initialValues Surface.prepared
  rw [Container.names_prepared, Container.contains_prepared]

theorem endBody_prepared (context : DrawingContext) (element : Element) (html : Text)
    (drawing : Drawing) :
    endBody context element (html, drawing.prepared) =
      Prod.map id Drawing.prepared (endBody context element (html, drawing)) := by
  unfold endBody
  dsimp only
  cases element.ending <;> rfl

/-- Drawing a component commutes with preparing every component. -/
theorem drawComponent_prepared (context : DrawingContext) (element : Element) (name : Text)
    (inner? : Option Text) (drawing : Drawing) :
    drawComponent context element name inner? drawing.prepared =
      Prod.map id Drawing.prepared (drawComponent context element name inner? drawing) := by
  unfold drawComponent
  have found := Container.get?_prepared drawing.surface.container name
  have same : drawing.prepared.surface.container = drawing.surface.container.prepared := rfl
  dsimp only
  rw [same, found]
  cases drawing.surface.container.get? name with
  | none => rfl
  | some component =>
      dsimp only [Option.map_some]
      rw [Component.renderAround?_prepared]
      cases inner?.bind (component.renderAround? name) with
      | some html => rfl
      | none =>
          obtain ⟨html, prepared⟩ := (context.designers.designerOf
            component.controlType.name).draw_prepared name component
          have type : component.prepared.controlType = component.controlType := by
            rw [component.prepared_eq]
          dsimp only
          rw [type, html, prepared, ← Container.prepared_update]
          rfl

mutual

/-- Drawing a node commutes with preparing every component. -/
theorem drawNode_prepared (context : DrawingContext) (drawing : Drawing) (node : Node) :
    drawNode context drawing.prepared node =
      Prod.map id Drawing.prepared (drawNode context drawing node) := by
  cases node with
  | element tag ending children =>
      obtain ⟨surface, previous, warnings⟩ := drawing
      have body : endBody context ⟨tag, ending, children⟩
            (drawNodes context ⟨surface.prepared, tag.region.last, warnings⟩ children) =
          Prod.map id Drawing.prepared (endBody context ⟨tag, ending, children⟩
            (drawNodes context ⟨surface, tag.region.last, warnings⟩ children)) := by
        refine (congrArg (endBody context ⟨tag, ending, children⟩)
          (drawNodes_prepared context ⟨surface, tag.region.last, warnings⟩ children)).trans ?_
        exact endBody_prepared context _ _ _
      rw [drawNode, drawNode]
      dsimp only [Drawing.prepared] at body ⊢
      by_cases script : tag.name.is "script" = true
      · rw [if_pos script, if_pos script]
        rfl
      rw [if_neg script, if_neg script, componentOf?_prepared, lead_prepared, body]
      cases componentOf? surface tag with
      | some name =>
          dsimp only
          by_cases content : hasBody ending = true
          · rw [if_pos content, if_pos content]
            exact drawComponent_prepared context _ name _ _
          · rw [if_neg content, if_neg content]
            exact drawComponent_prepared context _ name none ⟨surface, tag.region.last, warnings⟩
      | none =>
          dsimp only
          by_cases content : hasBody ending = true
          · rw [if_pos content, if_pos content]
            rfl
          · rw [if_neg content, if_neg content]
            rfl
  | _ => rfl

/-- Drawing nodes commutes with preparing every component. -/
theorem drawNodes_prepared (context : DrawingContext) (drawing : Drawing) (nodes : List Node) :
    drawNodes context drawing.prepared nodes =
      Prod.map id Drawing.prepared (drawNodes context drawing nodes) := by
  cases nodes with
  | nil => rfl
  | cons node rest =>
      have previous : drawing.prepared.previous = drawing.previous := rfl
      rw [drawNodes, drawNodes]
      dsimp only
      rw [drawNode_prepared context drawing node, previous]
      dsimp only [Prod.map]
      rw [drawNodes_prepared context _ rest]
      rfl

end

/-- Drawing a tree commutes with preparing every component. -/
theorem draw_prepared (context : DrawingContext) (surface : Surface) :
    draw context surface.prepared = Prod.map id Surface.prepared (draw context surface) := by
  unfold draw
  cases context.tree.nodes.find? fun node => node.element?.isSome with
  | none => rfl
  | some node =>
      dsimp only
      rw [show (⟨surface.prepared, .start, []⟩ : Drawing) =
        Drawing.prepared ⟨surface, .start, []⟩ from rfl, drawNode_prepared]
      rfl

/-- Surfaces that are equal once their components are prepared are drawn alike. -/
theorem html_draw_congr {surface other : Surface} (same : other.prepared = surface.prepared)
    (context : DrawingContext) : (draw context other).1 = (draw context surface).1 := by
  have drawn := draw_prepared context other
  rw [same, draw_prepared] at drawn
  exact (congrArg Prod.fst drawn).symm

/-- Drawing only prepares components. -/
theorem prepared_drawn (context : DrawingContext) (surface : Surface) :
    (draw context surface).2.prepared = surface.prepared := by
  refine @holds_draw (·.prepared = surface.prepared) ?_ context surface rfl
  intro other name component drawn same found drawn'
  rw [← same]
  have ready : drawn.prepared = component.prepared := by
    rcases drawn' with rfl | rfl
    · rfl
    · exact component.prepared_prepared
  have found' : other.container.prepared.get? name = some component.prepared := by
    rw [Container.get?_prepared, found]
    rfl
  unfold Surface.prepared
  dsimp only
  rw [Container.prepared_update, ready, Container.update_self found']

end DesignHtml

namespace Document

/-! ## Documents -/

/-- A parsed document keeps its tree. -/
theorem parse_parse (document : Document) :
    document.parse.2.parse = (document.parse.1, document.parse.2) := by
  unfold parse
  cases cached : document.cached? with
  | some tree =>
      dsimp only
      rw [cached]
  | none =>
      have kept : ∀ tree, (document.keep tree document.buffer.snapshot.generation).cached? =
          some tree := by
        intro tree
        unfold cached? keep Buffer.markClean
        rw [if_pos (show document.buffer.generation = document.buffer.snapshot.generation from rfl)]
        rfl
      dsimp only
      rw [kept]

/-- A parse depends on nothing but the text and the tree that is kept. -/
theorem parse_withSurface (document : Document) (surface : Surface) :
    ({ document with surface } : Document).parse =
      (document.parse.1, { document.parse.2 with surface }) := by
  have cached : ({ document with surface } : Document).cached? = document.cached? := rfl
  unfold parse
  rw [cached]
  cases document.cached? <;> rfl

/-- The document after a drawing: it has been parsed, and the addresses of links may have been
resolved. -/
structure Undisturbed (document after : Document) : Prop where
  rest_eq : after = { document with
    buffer := { document.buffer with isDirty := after.buffer.isDirty }
    cache? := after.cache?
    surface := { document.surface with container := after.surface.container } }
  sites : Container.Related Component.SameUntilResolved document.surface.container
    after.surface.container

theorem parse_rest (document : Document) :
    document.parse.2 = { document with
      buffer := { document.buffer with isDirty := document.parse.2.buffer.isDirty }
      cache? := document.parse.2.cache? } := by
  unfold parse
  cases document.cached? with
  | some tree => rfl
  | none =>
      dsimp only
      unfold keep Buffer.markClean
      rw [if_pos (show document.buffer.generation = document.buffer.snapshot.generation from rfl)]

/-- Drawing leaves a document undisturbed. -/
theorem undisturbed_designHtml (document : Document) :
    document.Undisturbed document.designHtml.2 := by
  have parsed := document.parse_rest
  have drawn := DesignHtml.prepared_drawn
    ⟨document.parse.1, document.parse.2.designers, document.parse.2.options.context⟩
    document.parse.2.surface
  have surface : document.parse.2.surface = document.surface := by rw [parsed]
  unfold designHtml
  dsimp only
  generalize DesignHtml.draw _ document.parse.2.surface = html at drawn ⊢
  rw [surface] at drawn
  refine ⟨?_, Container.related_of_prepared (congrArg Surface.container drawn)⟩
  have root := congrArg Surface.root? drawn
  have selection := congrArg Surface.selection drawn
  obtain ⟨html, container, root?, selection'⟩ := html
  obtain rfl : root? = document.surface.root? := root
  obtain rfl : selection' = document.surface.selection := selection
  rw [parsed]

/-- A document that was drawn is drawn the same again. -/
theorem html_designHtml_again (document : Document) :
    document.designHtml.2.designHtml.1 = document.designHtml.1 := by
  unfold designHtml
  dsimp only
  rw [parse_withSurface, parse_parse]
  exact DesignHtml.html_draw_congr (DesignHtml.prepared_drawn _ _) _

end Document

end PageDesigner
