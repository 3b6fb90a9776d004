import Mathlib.Data.List.Forall2
import PageDesigner.Proofs.Document.Passes

/-!
# Components in line with their tags

`Surface.Reconciled` says that every tag of a known type names a component of its type,
that no two of them have one id, and that every component but the root is named by a
tag.  This makes tags and components correspond one to one (`Reconciled.corresponds`),
and when a later scan has finished it holds of the text as the scan leaves it
(`Document.reconciled_of_persist`).
-/

namespace PageDesigner

open ScanPass (Walk claims)

/-- The elements that stand for a control type. -/
def Registry.known (registry : Registry) (controls : List Element) : List Element :=
  controls.filter fun element => (registry.resolve? element.name).isSome

/-- Every property and handler is what a fresh component of the type gets from the tag, but for
properties that the tag states in no form that converts and names spelled in two ways. -/
structure Component.ReadsAsFresh (component : Component) (element : Element) : Prop where
  properties : ∀ name property, component.controlType.property? name = some property →
    component.controlType.SpellsProperty property.name →
    Component.Reading.Converts component.controlType property element.toTag →
    component.get? name =
      ((Component.fresh component.controlType).readTag element false).1.get? name
  handlers : ∀ name event, component.controlType.event? name = some event →
    component.controlType.SpellsEvent event →
    component.handler? name =
      ((Component.fresh component.controlType).readTag element false).1.handler? name

/-- It does not matter what a component held before its tag was applied. -/
theorem Surface.Settles.Applied.readsAsFresh {controlType : ControlType} {component : Component}
    {element : Element} (applied : Surface.Settles.Applied controlType component element) :
    component.ReadsAsFresh element := by
  rcases applied with same | ⟨earlier, type, same⟩
  · have type : component.controlType = controlType := by
      rw [same, Component.controlType_readTag]
      rfl
    rw [← type] at same
    exact ⟨fun name _ _ _ _ => congrArg (Component.get? · name) same,
      fun name _ _ _ => congrArg (Component.handler? · name) same⟩
  · constructor
    · intro name property declared spelled converts
      rw [← type] at declared spelled converts ⊢
      rw [same]
      exact Component.get?_readTag_restoring declared spelled converts
    · intro name event declared spelled
      rw [← type] at declared spelled ⊢
      rw [same]
      exact Component.handler?_readTag_restoring declared spelled element

namespace Surface

/-- The components but the root. -/
def controlSites (surface : Surface) : List Site :=
  surface.container.sites.filter fun site => !surface.isRoot site.name

/-- The id of the tag is a valid name, not that of the root, and names the component, whose type is
the one that the tag stands for. -/
structure StandsFor (registry : Registry) (surface : Surface) (element : Element) (site : Site) :
    Prop where
  typed : ∃ controlType, registry.resolve? element.name = some controlType ∧
    site.component.controlType.name = controlType.name
  named : ∃ id, element.id? = some id ∧ Naming.isValid id = true ∧ surface.isRoot id = false ∧
    surface.container.site? id = some site

/-- Tags and components correspond one to one. -/
structure Corresponds (registry : Registry) (controls : List Element) (surface : Surface) :
    Prop where
  /-- No two ids are equal up to letter case. -/
  once : ((claims registry controls).map Text.lower).Nodup
  /-- The tags in their order stand for the components in some order. -/
  paired : ∃ sites, sites.Perm surface.controlSites ∧
    List.Forall₂ (StandsFor registry surface) (registry.known controls) sites

/-- The components are in line with the tags. -/
structure Reconciled (registry : Registry) (mode : ScanMode) (controls : List Element)
    (surface : Surface) : Prop where
  distinct : surface.container.Distinct
  stands : ∀ element ∈ controls, ∀ controlType, registry.resolve? element.name = some controlType →
    ∃ site, StandsFor registry surface element site ∧
      (mode = .persist → Settles.Applied controlType site.component element)
  once : ((claims registry controls).map Text.lower).Nodup
  only : ∀ site ∈ surface.controlSites, site.name.lower ∈ (claims registry controls).map Text.lower

theorem mem_controlSites {surface : Surface} {site : Site} :
    site ∈ surface.controlSites ↔
      site ∈ surface.container.sites ∧ surface.isRoot site.name = false := by
  simp [controlSites]

theorem StandsFor.mem {registry : Registry} {surface : Surface} {element : Element} {site : Site}
    (stands : StandsFor registry surface element site) : site ∈ surface.controlSites := by
  obtain ⟨id, _, _, notRoot, found⟩ := stands.named
  refine mem_controlSites.mpr ⟨Container.mem_of_site? found, ?_⟩
  rw [isRoot_congr (Container.sameName_of_site? found)]
  exact notRoot

/-- A tag stands for one component only. -/
theorem StandsFor.unique {registry : Registry} {surface : Surface} {element : Element}
    {site other : Site} (stands : StandsFor registry surface element site)
    (stands' : StandsFor registry surface element other) : site = other := by
  obtain ⟨id, named, _, _, found⟩ := stands.named
  obtain ⟨id', named', _, _, found'⟩ := stands'.named
  rw [named] at named'
  obtain rfl := Option.some.inj named'
  rw [found] at found'
  exact Option.some.inj found'

theorem mem_claims {registry : Registry} {controls : List Element} {id : Text} :
    id ∈ claims registry controls ↔ ∃ element ∈ controls,
      (registry.resolve? element.name).isSome = true ∧ element.id? = some id := by
  unfold claims
  rw [List.mem_filterMap]
  constructor
  · rintro ⟨element, member, found⟩
    obtain ⟨controlType, resolved, named⟩ := Option.bind_eq_some_iff.mp found
    exact ⟨element, member, by rw [resolved]; rfl, named⟩
  · rintro ⟨element, member, known, named⟩
    obtain ⟨controlType, resolved⟩ := Option.isSome_iff_exists.mp known
    exact ⟨element, member, by rw [resolved]; exact named⟩

/-- The tags name the components in order. -/
theorem names_of_forall₂ {registry : Registry} {surface : Surface} {controls : List Element}
    {sites : List Site}
    (stand : List.Forall₂ (StandsFor registry surface) (registry.known controls) sites) :
    sites.map (·.name.lower) = (claims registry controls).map Text.lower := by
  induction controls generalizing sites with
  | nil => cases stand; rfl
  | cons element controls ih =>
      cases resolved : registry.resolve? element.name with
      | none =>
          rw [ScanPass.claims_cons_unknown resolved]
          refine ih ?_
          have skipped : registry.known (element :: controls) = registry.known controls := by
            simp [Registry.known, resolved]
          rw [skipped] at stand
          exact stand
      | some controlType =>
          have kept : registry.known (element :: controls) =
              element :: registry.known controls := by
            simp [Registry.known, resolved]
          rw [kept] at stand
          cases stand with
          | cons here later =>
              obtain ⟨id, named, _, _, found⟩ := here.named
              rw [ScanPass.claims_cons_known resolved named, List.map_cons, List.map_cons, ih later,
                Text.sameName_iff.mp (Container.sameName_of_site? found)]

theorem exists_forall₂ {α β : Type} {related : α → β → Prop} {list : List α}
    (each : ∀ entry ∈ list, ∃ other, related entry other) :
    ∃ others, List.Forall₂ related list others := by
  induction list with
  | nil => exact ⟨[], .nil⟩
  | cons entry list ih =>
      obtain ⟨other, here⟩ := each entry List.mem_cons_self
      obtain ⟨others, later⟩ := ih fun entry member => each entry (List.mem_cons_of_mem _ member)
      exact ⟨other :: others, .cons here later⟩

namespace Reconciled

variable {registry : Registry} {mode : ScanMode} {controls : List Element} {surface : Surface}

/-- Components that are in line with the tags correspond to them one to one. -/
theorem corresponds (reconciled : Reconciled registry mode controls surface) :
    Corresponds registry controls surface := by
  refine ⟨reconciled.once, ?_⟩
  have each : ∀ element ∈ registry.known controls,
      ∃ site, StandsFor registry surface element site := by
    intro element member
    obtain ⟨member', known⟩ := List.mem_filter.mp member
    obtain ⟨controlType, resolved⟩ := Option.isSome_iff_exists.mp known
    obtain ⟨site, stands, _⟩ := reconciled.stands element member' controlType resolved
    exact ⟨site, stands⟩
  obtain ⟨sites, stand⟩ := exists_forall₂ each
  refine ⟨sites, ?_, stand⟩
  have names := names_of_forall₂ stand
  have within : ∀ site ∈ sites, site ∈ surface.controlSites := by
    intro site member
    obtain ⟨index, inside, rfl⟩ := List.mem_iff_getElem.mp member
    have related := List.Forall₂.get stand (stand.length_eq ▸ inside) inside
    exact StandsFor.mem related
  have once : sites.Nodup := by
    apply List.Nodup.of_map (fun site : Site => site.name.lower)
    rw [names]
    exact reconciled.once
  have once' : surface.controlSites.Nodup := by
    have distinct := reconciled.distinct
    unfold Container.Distinct Container.names at distinct
    exact (List.Nodup.of_map _ (List.Nodup.of_map _ distinct)).filter _
  refine (List.perm_ext_iff_of_nodup once once').mpr fun site => ⟨within site, ?_⟩
  intro member
  have listed := reconciled.only site member
  rw [← names] at listed
  obtain ⟨other, member', same⟩ := List.mem_map.mp listed
  -- Two components with one name are the same.
  have found := Container.site?_of_mem reconciled.distinct (mem_controlSites.mp member).1
    (Text.sameName_refl site.name)
  have found' := Container.site?_of_mem reconciled.distinct
    (mem_controlSites.mp (within other member')).1 (Text.sameName_iff.mpr same)
  rw [found] at found'
  rw [Option.some.inj found']
  exact member'

/-- Every component is named by a tag. -/
theorem exists_tag (reconciled : Reconciled registry mode controls surface) {site : Site}
    (member : site ∈ surface.controlSites) :
    ∃ element ∈ controls, StandsFor registry surface element site := by
  obtain ⟨id, claimed, lower⟩ := List.mem_map.mp (reconciled.only site member)
  obtain ⟨element, member', known, named⟩ := mem_claims.mp claimed
  obtain ⟨controlType, resolved⟩ := Option.isSome_iff_exists.mp known
  obtain ⟨other, stands, _⟩ := reconciled.stands element member' controlType resolved
  obtain ⟨id', named', _, _, found'⟩ := stands.named
  rw [named] at named'
  obtain rfl := Option.some.inj named'
  have found := Container.site?_of_mem reconciled.distinct (mem_controlSites.mp member).1
    (Text.sameName_iff.mpr lower.symm)
  rw [found] at found'
  rw [Option.some.inj found']
  exact ⟨element, member', stands⟩

/-- After a later scan each component is what its tag makes of it. -/
theorem readsAsFresh (reconciled : Reconciled registry .persist controls surface)
    {element : Element} (member : element ∈ controls) {site : Site}
    (stands : StandsFor registry surface element site) : site.component.ReadsAsFresh element := by
  obtain ⟨controlType, resolved, _⟩ := stands.typed
  obtain ⟨other, stands', applied⟩ := reconciled.stands element member controlType resolved
  rw [stands.unique stands']
  exact (applied rfl).readsAsFresh

end Reconciled

end Surface

namespace ScanPass.Walk

/-- A pass over all tags stands behind every surface that keeps what it claimed, and nothing else
but the root. -/
theorem reconciled {registry : Registry} {mode : ScanMode} {pass final : ScanPass}
    {controls : List Element} {surface : Surface}
    (walk : Walk registry mode pass controls final) (fresh : pass.claimed = [])
    (distinct : pass.surface.container.Distinct) (distinct' : surface.container.Distinct)
    (root : surface.root? = final.surface.root?)
    (keeps : ∀ name, name.lower ∈ final.claimed → final.surface.isRoot name = false →
      surface.container.site? name = final.surface.container.site? name)
    (only : ∀ site ∈ surface.container.sites, final.surface.isRoot site.name = false →
      site.name.lower ∈ final.claimed) :
    Surface.Reconciled registry mode controls surface := by
  have claimed : final.claimed = (claims registry controls).map Text.lower := by
    rw [walk.claimed_eq, fresh, List.nil_append]
  have rooted : ∀ name, surface.isRoot name = final.surface.isRoot name := by
    intro name
    unfold Surface.isRoot
    rw [root]
  refine ⟨distinct', ?_, ?_, ?_⟩
  · intro element member controlType resolved
    have known : (registry.resolve? element.name).isSome = true := by
      rw [resolved]
      rfl
    obtain ⟨id, component, stands⟩ := walk.stands distinct member resolved
    have listed : id.lower ∈ final.claimed := by
      rw [claimed]
      exact List.mem_map_of_mem
        (Surface.mem_claims.mpr ⟨element, member, known, stands.named⟩)
    obtain ⟨site, found, same⟩ := Option.map_eq_some_iff.mp stands.found
    refine ⟨site, ⟨⟨controlType, resolved, ?_⟩, ⟨id, stands.named, stands.valid, ?_, ?_⟩⟩, ?_⟩
    · rw [same]
      exact stands.sameType
    · rw [rooted]
      exact stands.notRoot
    · rw [keeps id listed stands.notRoot]
      exact found
    · rw [same]
      exact stands.applied
  · rw [← claimed]
    exact walk.nodup (by rw [fresh]; exact List.nodup_nil)
  · intro site member
    obtain ⟨sited, notRoot⟩ := Surface.mem_controlSites.mp member
    rw [← claimed]
    exact only site sited (by rw [← rooted]; exact notRoot)

end ScanPass.Walk

namespace Document

/-- A later scan ends with the components in line with the tags. -/
theorem reconciled_of_scanPasses {bound : Nat} {report report' : ScanReport}
    {document after : Document} (sound : document.Sound)
    (done : scanPasses .persist bound report document = .ok report' after) :
    after.Sound ∧ after.registry = document.registry ∧
      Surface.Reconciled document.registry .persist (Tree.parse after.text).controls
        after.surface := by
  induction bound generalizing report document with
  | zero => cases done
  | succ bound ih =>
      obtain ⟨pass, middle, sound', agrees, surface, outcome⟩ :=
        scanPasses_cases sound .persist bound report
      rcases outcome with ⟨walk, turn⟩ | ⟨former, element, latter, controlType, _, turn⟩
      · rw [turn] at done
        obtain ⟨final, report'', finished, distinct, root, keeps, only⟩ :=
          finishScan_persist sound' surface
        rw [finished] at done
        injection done with _ same
        subst same
        refine ⟨sound'.withSurface distinct, agrees.registry_eq, ?_⟩
        have text : { middle with surface := final.surface }.text = document.text :=
          agrees.text_eq
        rw [text]
        exact walk.reconciled rfl sound.distinct distinct root keeps only
      · rw [turn] at done
        obtain ⟨_, registry, _, _⟩ := setAttribute_frame middle element.toTag "id"
          (document.newId pass controlType)
        obtain ⟨sound'', registry', reconciled⟩ := ih (sound'.setAttribute _ _ _) done
        rw [registry, agrees.registry_eq] at registry' reconciled
        exact ⟨sound'', registry', reconciled⟩

/-- A later scan is its passes, with notices held back. -/
theorem persist_eq (document : Document) :
    persist document =
      match scanPasses .persist document.options.maxScanPasses .empty
          { document with buffer := document.buffer.suppress } with
      | .ok report after => .ok report { after with buffer := after.buffer.release }
      | .error failure after => .error failure { after with buffer := after.buffer.release } := by
  unfold persist scan quietly
  simp only [bind, EStateM.bind, startScan, pure, EStateM.pure, get_eq]
  cases scanPasses .persist document.options.maxScanPasses .empty
    { document with buffer := document.buffer.suppress } <;> rfl

/-- A scan that succeeds leaves the document sound, and its components in line with the tags. -/
theorem reconciled_of_persist {document after : Document} {report : ScanReport}
    (sound : document.Sound) (done : persist document = .ok report after) :
    after.Sound ∧ after.registry = document.registry ∧
      Surface.Reconciled document.registry .persist (Tree.parse after.text).controls
        after.surface := by
  obtain ⟨middle, ran, rfl⟩ := quietly_eq_ok done
  have quiet : { document with buffer := document.buffer.suppress }.Sound :=
    sound.withBuffer rfl rfl
  obtain ⟨text, dirty⟩ := release_frame middle.buffer
  obtain ⟨sound', registry, reconciled⟩ := reconciled_of_scanPasses quiet ran
  have same : { middle with buffer := middle.buffer.release }.text = middle.text := text
  rw [same]
  exact ⟨sound'.withBuffer text dirty, registry, reconciled⟩

end Document

end PageDesigner
