import PageDesigner.Proofs.Document.Addressing
import PageDesigner.Proofs.Host.Refused

/-!
# Handlers that cannot be bound

Setting the handler of an event puts it on the component before its tag is looked for, and
nothing takes it back.  Where this fails, the settled host is left as it was unless the
component has the event and no tag stands for it.  Then the component keeps the handler that
could not be written (`resembles_of_setHandler_error`).
-/

namespace PageDesigner

namespace Component

/-- The component with the handler of a declared event replaced. -/
def withHandler (component : Component) (declared : Text) (handler? : Option Text) : Component :=
  { component with
    handlers :=
      match handler? with
      | some handler => Table.put declared handler component.handlers
      | none => component.handlers.erase declared }

variable {component : Component} {event declared : Text}

theorem bind_eq (found : component.controlType.event? event = some declared) (handler : Text) :
    component.bind declared handler = .ok (component.withHandler declared (some handler)) := by
  unfold Component.bind
  rw [ControlType.event?_self found]
  rfl

theorem unbind_eq (found : component.controlType.event? event = some declared) :
    component.unbind declared = component.withHandler declared none := by
  unfold Component.unbind
  rw [ControlType.event?_self found]
  rfl

theorem get?_withHandler_self (component : Component) (declared : Text) (handler? : Option Text) :
    (component.withHandler declared handler?).handlers.get? declared = handler? := by
  unfold withHandler
  cases handler? with
  | none => exact Table.get?_erase_self _ _
  | some handler => exact Table.get?_put_self _ _ _

theorem get?_withHandler_of_ne {other : Text} (differs : other ≠ declared)
    (handler? : Option Text) :
    (component.withHandler declared handler?).handlers.get? other =
      component.handlers.get? other := by
  unfold withHandler
  cases handler? with
  | none => exact Table.get?_erase_of_ne _ differs
  | some handler => exact Table.get?_put_of_ne _ _ differs

/-- The component holds the handler that it was given. -/
theorem handler?_withHandler (found : component.controlType.event? event = some declared)
    (handler? : Option Text) :
    (component.withHandler declared handler?).handler? event = handler? := by
  unfold Component.handler?
  have found' : (component.withHandler declared handler?).controlType.event? event =
      some declared := found
  rw [found', Option.bind_some, get?_withHandler_self]

/-- A component does not change when it is given the handler it has. -/
theorem alike_withHandler (found : component.controlType.event? event = some declared)
    {handler? : Option Text} (holds : component.handler? event = handler?) :
    component.Alike (component.withHandler declared handler?) := by
  refine ⟨⟨rfl, rfl, rfl, rfl⟩, fun _ => rfl, fun other => ?_⟩
  unfold Component.handler? at holds ⊢
  have type : (component.withHandler declared handler?).controlType = component.controlType := rfl
  rw [type]
  cases there : component.controlType.event? other with
  | none => rfl
  | some declared' =>
      rw [Option.bind_some, Option.bind_some]
      by_cases same : declared' = declared
      · rw [found, Option.bind_some] at holds
        rw [same, get?_withHandler_self, holds]
      · exact get?_withHandler_of_ne same handler?

end Component

namespace Document

/-- A handler can be written for a component that has a tag. -/
theorem updateEvent_cases {document : Document} (sound : document.Sound) (id event : Text)
    (handler? : Option Text) :
    ((Tree.parse document.text).control? id = none ∧
        updateEvent id event handler? document = .error (.tagNotFound id) document.parse.2) ∨
      ((Tree.parse document.text).control? id ≠ none ∧
        ∃ done after, updateEvent id event handler? document = .ok done after) := by
  have leads := tagOf_eq sound id
  unfold updateEvent
  cases found : (Tree.parse document.text).control? id with
  | none =>
      rw [found] at leads
      exact .inl ⟨rfl, bind_of_error leads _⟩
  | some element =>
      rw [found] at leads
      refine .inr ⟨Option.some_ne_none _, ?_⟩
      rw [bind_of_ok leads]
      generalize handler?.filter (!·.isEmpty) = given
      cases given <;> exact ⟨_, _, rfl⟩

end Document

namespace Host

variable {registry : Registry} {host after : Host} {failure : DesignError}

/-- A component with an event, but without a tag in the text. -/
structure Untagged (host : Host) (name event : Text) (document : Document) (site : Site)
    (declared : Text) : Prop where
  kept : host.document? = some document
  found : host.site? name = some site
  declares : site.component.controlType.event? event = some declared
  absent : (Tree.parse document.text).control? site.name = none

/-- Only the document counts for a missing tag. -/
theorem Untagged.of_document?_eq {other : Host} {name event : Text} {document : Document}
    {site : Site} {declared : Text} (untagged : host.Untagged name event document site declared)
    (same : other.document? = host.document?) :
    other.Untagged name event document site declared where
  kept := same.trans untagged.kept
  found := by
    unfold site?
    rw [same]
    exact untagged.found
  declares := untagged.declares
  absent := untagged.absent

theorem Untagged.unique {name event : Text} {document document' : Document} {site site' : Site}
    {declared declared' : Text} (untagged : host.Untagged name event document site declared)
    (untagged' : host.Untagged name event document' site' declared') :
    document = document' ∧ site = site' ∧ declared = declared' := by
  obtain rfl := Option.some.inj (untagged.kept.symm.trans untagged'.kept)
  obtain rfl := Option.some.inj (untagged.found.symm.trans untagged'.found)
  exact ⟨rfl, rfl, Option.some.inj (untagged.declares.symm.trans untagged'.declares)⟩

/-- A host with the handler of an event of a component replaced. -/
def withHandler (host : Host) (document : Document) (site : Site) (declared : Text)
    (handler? : Option Text) : Host :=
  { host with document? := some { document with
      surface := withComponent document.surface site.name
        (site.component.withHandler declared handler?) } }

/-- The handler that is asked for is put on the component before its tag is looked for. -/
theorem changeHandler_eq {name event declared : Text} {document : Document} {site : Site}
    (kept : host.document? = some document) (found : host.site? name = some site)
    (declares : site.component.controlType.event? event = some declared)
    (handler? : Option Text) :
    changeHandler name event handler? host =
      (discard (onDocument (Document.updateEvent site.name declared handler?)) : Action Unit)
        (host.withHandler document site declared (handler?.filter (!·.isEmpty))) := by
  have sites := siteNamed_eq name host
  rw [found] at sites
  unfold changeHandler
  rw [bind_of_ok sites]
  dsimp only
  rw [declares]
  dsimp only
  cases handler?.filter (!·.isEmpty) with
  | none =>
      dsimp only
      rw [Component.unbind_eq declares]
      exact bind_of_ok (putComponent_eq kept _ _) _
  | some handler =>
      dsimp only
      rw [Component.bind_eq declares]
      exact bind_of_ok (putComponent_eq kept _ _) _

/-- Work on a handler that fails changes nothing, or all but the tag that is missing. -/
theorem changeHandler_error (orderly : host.Orderly registry) {name event : Text}
    {handler? : Option Text}
    (failed : changeHandler name event handler? host = .error failure after) :
    (host.SameDocument after ∧ ¬ ∃ document site declared,
        host.Untagged name event document site declared) ∨
      ∃ document site declared, host.Untagged name event document site declared ∧
        failure = .tagNotFound site.name ∧
        (host.withHandler document site declared (handler?.filter (!·.isEmpty))).SameDocument
          after := by
  have sites := siteNamed_eq name host
  cases found : host.site? name with
  | none =>
      rw [found] at sites
      unfold changeHandler at failed
      rw [bind_of_error sites] at failed
      obtain ⟨-, rfl⟩ := EStateM.Result.error.inj failed
      refine .inl ⟨.refl _, ?_⟩
      rintro ⟨_, _, _, untagged⟩
      rw [untagged.found] at found
      cases found
  | some site =>
  cases declares : site.component.controlType.event? event with
  | none =>
      rw [found] at sites
      unfold changeHandler at failed
      rw [bind_of_ok sites] at failed
      dsimp only at failed
      rw [declares] at failed
      obtain ⟨-, rfl⟩ := EStateM.Result.error.inj failed
      refine .inl ⟨.refl _, ?_⟩
      rintro ⟨_, _, _, untagged⟩
      have same := untagged.found
      rw [found] at same
      obtain rfl := Option.some.inj same
      rw [untagged.declares] at declares
      cases declares
  | some declared =>
  obtain ⟨document, kept⟩ := exists_document found
  rw [changeHandler_eq kept found declares] at failed
  obtain ⟨document', refuses, rfl⟩ := onDocument_error rfl (error_of_discard failed)
  have sound := (orderly.document document kept).sound
  have sound' := @Document.Sound.withSurface document sound
    (withComponent document.surface site.name
      (site.component.withHandler declared (handler?.filter (!·.isEmpty))))
      (sound.distinct.update site.name _)
  rcases Document.updateEvent_cases sound' site.name declared handler? with
    ⟨absent, refuses'⟩ | ⟨_, _, _, done⟩
  · rw [refuses] at refuses'
    obtain ⟨rfl, rfl⟩ := EStateM.Result.error.inj refuses'
    refine .inr ⟨document, site, declared, ⟨kept, found, declares, absent⟩, rfl, ?_⟩
    exact .of_some rfl rfl (Document.unedited_parse _).resembles
  · rw [refuses] at done
    cases done

/-- Putting a handler on a component changes nothing if and only if it had this handler. -/
theorem sameDocument_withHandler_iff {name event : Text} {document : Document} {site : Site}
    {declared : Text} (untagged : host.Untagged name event document site declared)
    {handler? : Option Text}
    (resembles : (host.withHandler document site declared handler?).SameDocument after) :
    host.SameDocument after ↔ site.component.handler? event = handler? := by
  have there := get?_of_site? untagged.kept untagged.found
  constructor
  · intro unchanged
    obtain ⟨component, found, alike⟩ := unchanged.get? untagged.kept there
    obtain ⟨component', found', alike'⟩ := resembles.get? rfl (get?_withComponent there _)
    rw [found] at found'
    obtain rfl := Option.some.inj found'
    rw [← alike.handlers event, alike'.handlers event,
      Component.handler?_withHandler untagged.declares]
  · intro holds
    have alike : document.surface.Alike (withComponent document.surface site.name
        (site.component.withHandler declared handler?)) := by
      refine ⟨?_, rfl, rfl⟩
      refine Container.alike_update fun component found => ?_
      rw [there] at found
      obtain rfl := Option.some.inj found
      exact Component.alike_withHandler untagged.declares holds
    have unchanged : host.SameDocument (host.withHandler document site declared handler?) :=
      .of_some untagged.kept rfl ⟨⟨rfl, rfl, rfl, rfl⟩, alike⟩
    exact unchanged.trans resembles

/--
Setting the handler of an event, where it fails, changes nothing once the refreshes that
waited are done, unless the component has the event and no tag stands for it.  There it
always leaves the component with the handler, so that nothing changes if and only if the
component had this handler before.
-/
theorem resembles_of_setHandler_error (regular : registry.Regular) {designers : DesignerRegistry}
    {options : Options} (reaches : Reaches registry designers options host) {name event : Text}
    {handler? : Option Text}
    (failed : setHandler name event handler? host = .error failure after) :
    ((¬ ∃ document site declared, host.settled.Untagged name event document site declared) →
        host.settled.Resembles after) ∧
      ∀ document site declared, host.settled.Untagged name event document site declared →
        failure = .tagNotFound site.name ∧
        (host.settled.withHandler document site declared
          (handler?.filter (!·.isEmpty))).Resembles after ∧
        (host.settled.Resembles after ↔
          site.component.handler? event = handler?.filter (!·.isEmpty)) := by
  have orderly := orderly_settled regular (orderly_of_reaches regular reaches)
  rcases error_of_settle_loaded failed with ⟨unloaded, rfl⟩ | failed
  · refine ⟨fun _ => .refl _, fun _ _ _ untagged => ?_⟩
    rw [untagged.kept] at unloaded
    cases unloaded
  obtain ⟨middle, ran, resembles_of⟩ :=
    resembles_of_work (fun _ => keeps_changeHandler regular name event handler?) orderly failed
  rcases changeHandler_error (orderly.opened _) ran with
    ⟨same, tagged⟩ | ⟨document, site, declared, untagged, rfl, same⟩
  · refine ⟨fun _ => resembles_of (.refl _) same, fun document site declared untagged => ?_⟩
    have untagged' : (host.settled.opened ("Bind " ++ name ++ "." ++ event)).Untagged name event
        document site declared := untagged.of_document?_eq rfl
    exact absurd ⟨document, site, declared, untagged'⟩ tagged
  · have untagged' : host.settled.Untagged name event document site declared :=
      untagged.of_document?_eq rfl
    refine ⟨fun tagged => absurd ⟨document, site, declared, untagged'⟩ tagged, ?_⟩
    intro document' site' declared' other
    obtain ⟨rfl, rfl, rfl⟩ := untagged'.unique other
    have resembles : (host.settled.withHandler document site declared
        (handler?.filter (!·.isEmpty))).Resembles after := resembles_of ⟨_, _, rfl⟩ same
    refine ⟨rfl, resembles, ?_⟩
    rw [← sameDocument_withHandler_iff untagged' resembles.document]
    exact ⟨Resembles.document,
      fun same => ⟨same, resembles.frames_eq, resembles.phase_eq, resembles.waiting_eq⟩⟩

/-- A page that has no tag keeps a handler that could not be written. -/
theorem resembles_of_setHandler_error_formless :
    ∃ after, setHandler "Page1" "Load" (some "x") formless =
        .error (.tagNotFound "Page1") after ∧ ¬ formless.settled.Resembles after ∧
      ∃ document site declared, formless.settled.Untagged "Page1" "Load" document site declared ∧
        site.component.handler? "Load" = none ∧
        (formless.settled.withHandler document site declared (some "x")).Resembles after := by
  have lacks : formless.settled.document?.any (fun document =>
      (formless.settled.site? "Page1").any fun site =>
        ((Tree.parse document.text).control? site.name).isNone &&
          (site.component.controlType.event? "Load" == some ("Load" : Text) &&
            site.component.handler? "Load" == none && site.name == ("Page1" : Text))) = true := by
    decide +kernel
  simp only [Option.any_eq_true, Bool.and_eq_true, beq_iff_eq, Option.isNone_iff_eq_none] at lacks
  obtain ⟨document, kept, site, found, absent, ⟨declares, unbound⟩, named⟩ := lacks
  have untagged : formless.settled.Untagged "Page1" "Load" document site "Load" :=
    ⟨kept, found, declares, absent⟩
  have fails : failsWith (fun _ _ => true) (setHandler "Page1" "Load" (some "x")) formless =
      true := by decide +kernel
  obtain ⟨failure, after, ran, -⟩ := exists_of_failsWith fails
  obtain ⟨rfl, changed, same⟩ := (resembles_of_setHandler_error (by decide +kernel)
    (reaches_runAll _ .refl) ran).2 document site "Load" untagged
  rw [named] at ran
  refine ⟨after, ran, fun resembles => ?_, document, site, "Load", untagged, unbound, changed⟩
  have bound := same.mp resembles
  rw [unbound] at bound
  cases bound

end Host

end PageDesigner
