import PageDesigner.Proofs.Document.Upkeep
import PageDesigner.Proofs.Host.Loading
import PageDesigner.Proofs.Host.Parts

/-!
# What holds of the surface of a host

What runs in the transaction of a component changes nothing but the document and what was
told (`Host.Beside`), and the surface only by turns: what is durable of surfaces is kept by
siting a control, by changing a property or a handler, and by renaming (`Host.Holding`).

In the middle of such an operation the surface may be one of which the durable property does
not hold, as that of a component that has its new name while the selection has the former
one.  What holds there is that the surface is exactly this one.
-/

namespace PageDesigner.Host

variable {registry : Registry} {base : Host} {surface : Surface} {holds holds' : Surface → Prop}

/-- Nothing has changed but the document and what was told. -/
def Beside (base host : Host) : Prop := ∃ document? events, host = { base with document?, events }

theorem Beside.refl (host : Host) : host.Beside host := ⟨host.document?, host.events, rfl⟩

theorem Beside.trans {host after : Host} (beside : base.Beside host)
    (beside' : host.Beside after) : base.Beside after := by
  obtain ⟨_, _, rfl⟩ := beside
  obtain ⟨document?, events, rfl⟩ := beside'
  exact ⟨document?, events, rfl⟩

theorem Beside.withDocument {host : Host} (beside : base.Beside host)
    (document? : Option Document) : base.Beside { host with document? } := by
  obtain ⟨_, events, rfl⟩ := beside
  exact ⟨document?, events, rfl⟩

theorem Beside.telling {host : Host} (beside : base.Beside host) (events : List HostEvent) :
    base.Beside { host with events } := by
  obtain ⟨document?, _, rfl⟩ := beside
  exact ⟨document?, events, rfl⟩

/-- The document, if there is one, has a surface of which something holds. -/
structure Holds (registry : Registry) (holds : Surface → Prop) (host : Host) : Prop where
  document : ∀ document, host.document? = some document → document.Holds registry holds
  registry_eq : host.registry = registry

/-- Nothing has changed but the document and what was told, and something holds of the surface. -/
structure Holding (registry : Registry) (holds : Surface → Prop) (base host : Host) : Prop where
  held : host.Holds registry holds
  beside : base.Beside host

/-- What keeps every other part of a host keeps what holds of its surface. -/
theorem keeps_of_holding {α : Type} {action : Action α}
    (keeps : ∀ base, Keeps (Holding registry holds base) action) :
    Keeps (Holds registry holds) action :=
  fun host held => (keeps host host ⟨held, .refl host⟩).held

namespace Holding

variable {host : Host} {document : Document}

theorem mono (holding : Holding registry holds base host)
    (implies : ∀ surface, holds surface → holds' surface) :
    Holding registry holds' base host := by
  refine ⟨⟨fun document kept => ?_, holding.held.registry_eq⟩, holding.beside⟩
  have held := holding.held.document document kept
  exact ⟨held.sound, held.registry_eq, implies _ held.surface⟩

/-- The surface is exactly the one that it is. -/
theorem exactly (holding : Holding registry holds base host)
    (kept : host.document? = some document) :
    Holding registry (· = document.surface) base host := by
  refine ⟨⟨fun document' same => ?_, holding.held.registry_eq⟩, holding.beside⟩
  rw [kept] at same
  obtain rfl := Option.some.inj same
  have held := holding.held.document document kept
  exact ⟨held.sound, held.registry_eq, rfl⟩

/-- What holds of the surface as it is, is what is to hold. -/
theorem of_exactly (holding : Holding registry (· = surface) base host) (held : holds surface) :
    Holding registry holds base host :=
  holding.mono fun _ same => same ▸ held

/-- The surface of the document is replaced by another one with distinct names. -/
theorem withSurface (holding : Holding registry holds base host)
    (kept : host.document? = some document) {surface' : Surface}
    (distinct : surface'.container.Distinct) (held' : holds' surface') :
    Holding registry holds' base
      { host with document? := some { document with surface := surface' } } := by
  have held := holding.held.document document kept
  refine ⟨⟨fun document' same => ?_, holding.held.registry_eq⟩, holding.beside.withDocument _⟩
  rw [← Option.some.inj same]
  exact ⟨held.sound.withSurface distinct, held.registry_eq, held'⟩

end Holding

/-! ## Parts of operations -/

namespace Holding

theorem keeps_tell (events : List HostEvent) :
    Keeps (Holding registry holds base) (tell events) :=
  .modify fun _ holding =>
    ⟨⟨holding.held.document, holding.held.registry_eq⟩, holding.beside.telling _⟩

theorem keeps_onDocument {α : Type} {action : Document.Action α}
    (keeps : Keeps (Document.Holds registry holds) action) :
    Keeps (Holding registry holds base) (onDocument action) := by
  refine keeps_onDocument_of fun {host document} holding kept =>
    ⟨⟨fun document' same => ?_, holding.held.registry_eq⟩, holding.beside.withDocument _⟩
  rw [← Option.some.inj same]
  exact keeps document (holding.held.document document kept)

/-- The surface is changed, if there is a document. -/
theorem keeps_onSurface (durable : Surface.Durable registry holds) {change : Surface → Surface}
    (keeps : ∀ surface, holds surface → holds (change surface)) :
    Keeps (Holding registry holds base) (onSurface change) := by
  refine .modify fun host holding => ?_
  refine ⟨⟨fun document same => ?_, holding.held.registry_eq⟩, holding.beside.withDocument _⟩
  obtain ⟨former, kept, rfl⟩ := Option.map_eq_some_iff.mp same
  have held := holding.held.document former kept
  exact held.withSurface durable (keeps _ held.surface)

theorem keeps_select (durable : Surface.Durable registry holds) (names : List Text)
    (primary : Nat) : Keeps (Holding registry holds base) (select names primary) :=
  (keeps_onSurface durable fun _ held =>
    durable.turned _ _ held (.selected names primary)).seq fun _ =>
      Keeps.get.seq fun _ => keeps_tell _

end Holding

/-! ## Siting a new control -/

/-- A surface on which a new control was sited and given its caption. -/
def sitedNew (surface : Surface) (controlType : ControlType) (name : Text) : Surface :=
  { surface.place name (.fresh controlType) with
    container := (surface.place name (.fresh controlType)).container.update name fun _ =>
      (Component.fresh controlType).initialized }

/-- A new control is sited and given its caption in two turns. -/
theorem holds_sitedNew (durable : Surface.Durable registry holds) (held : holds surface)
    {controlType : ControlType} (listed : controlType ∈ registry.all) {name : Text}
    (free : surface.container.site? name = none) (valid : Naming.isValid name = true) :
    holds (sitedNew surface controlType name) := by
  have found : (surface.place name (.fresh controlType)).container.get? name =
      some (.fresh controlType) :=
    Surface.get?_place_self free ((durable.arranged _ held).isRoot_of_free free) _
  exact durable.turned _ _ (durable.turned _ _ held (.sited listed .kept free valid))
    (.altered found (Component.alters_initialized _))

/-- A new control is sited under a free name, or nothing happens. -/
theorem siteNew_cases_of_arranged {host : Host}
    (arranged : ∀ document, host.document? = some document → document.surface.Arranged)
    {controlType : ControlType} (named : Naming.isValid controlType.name = true)
    (name? : Option Text) :
    (∃ failure, siteNew controlType name? host = .error failure host) ∨
      ∃ document name, host.document? = some document ∧
        document.surface.container.site? name = none ∧ Naming.isValid name = true ∧
        siteNew controlType name? host =
          .ok (name, (Component.fresh controlType).initialized.markup name) { host with
            document? := some { document with
              surface := sitedNew document.surface controlType name } } := by
  unfold siteNew
  simp only [bind, EStateM.bind, loaded_eq]
  cases kept : host.document? with
  | none => exact .inl ⟨.notLoaded, rfl⟩
  | some document =>
  dsimp only
  cases sited : document.surface.siteControl name? (.fresh controlType) with
  | error failure => exact .inl ⟨failure, rfl⟩
  | ok outcome =>
      obtain ⟨name, surface⟩ := outcome
      obtain ⟨free, valid, rfl⟩ := @Surface.siteControl_inv _ _ _ _ _ named sited
      have notRoot := (arranged document kept).isRoot_of_free free
      have found : (document.surface.place name (.fresh controlType)).container.get? name =
          some (.fresh controlType) := Surface.get?_place_self free notRoot _
      obtain ⟨site, there, same⟩ := Option.map_eq_some_iff.mp found
      have named : ({ host with document? := some { document with
          surface := document.surface.place name (.fresh controlType) } } : Host).site? name =
            some site := there
      refine .inr ⟨document, name, rfl, free, valid, ?_⟩
      simp only [modify_eq, EStateM.bind,
        siteNamed_eq, named, same, putComponent, onSurface]
      rfl

theorem Holding.keeps_addControl (durable : Surface.Durable registry holds)
    {controlType : ControlType} (listed : controlType ∈ registry.all)
    (named : Naming.isValid controlType.name = true) (name? : Option Text) :
    Keeps (Holding registry holds base) (addControl controlType name?) := by
  intro host holding
  have arranged : ∀ document, host.document? = some document → document.surface.Arranged :=
    fun document kept => durable.arranged _ (holding.held.document document kept).surface
  unfold addControl
  rcases siteNew_cases_of_arranged arranged named name? with
    ⟨failure, failed⟩ | ⟨document, name, kept, free, valid, done⟩
  · rw [leaves_bind_of_error failed]
    exact holding
  · have held := holds_sitedNew durable (holding.held.document document kept).surface listed
      free valid
    have sited := holding.withSurface kept (durable.arranged _ held).distinct held
    rw [leaves_bind_of_ok done]
    refine (keeps_attempt (keeps_onDocument (Document.Holds.textual.keeps_insertTag _))).bind
      ?_ _ sited
    intro _ outcome middle _ _ holding
    split
    · exact Keeps.seq (keeps_onDocument (Document.Holds.keeps_destroy durable name)).discard
        (fun _ => .throw _) middle holding
    · exact Keeps.seq (keeps_tell _) (fun _ => (keeps_select durable _ _).seq fun _ => .pure _)
        middle holding

/-! ## Changing a component -/

/-- The surface with another component under a name. -/
def withComponent (surface : Surface) (name : Text) (component : Component) : Surface :=
  { surface with container := surface.container.update name fun _ => component }

theorem putComponent_eq {host : Host} {document : Document} (kept : host.document? = some document)
    (name : Text) (component : Component) :
    putComponent name component host =
      .ok () { host with document? := some { document with
        surface := withComponent document.surface name component } } := by
  unfold putComponent onSurface
  simp only [modify_eq, kept, Option.map_some]
  rfl

theorem get?_withComponent {name : Text} {component : Component}
    (found : surface.container.get? name = some component) (changed : Component) :
    (withComponent surface name changed).container.get? name = some changed := by
  unfold withComponent
  rw [Container.get?_update_self, found]
  rfl

/-- A surface is changed into a certain other one, if there is a document. -/
theorem Holding.changed {host : Host} (holding : Holding registry (· = surface) base host)
    (change : Surface → Surface)
    (distinct : surface.container.Distinct → (change surface).container.Distinct) :
    ∃ after, onSurface change host = .ok () after ∧
      Holding registry (· = change surface) base after := by
  refine ⟨_, rfl, ⟨fun document same => ?_, holding.held.registry_eq⟩,
    holding.beside.withDocument _⟩
  obtain ⟨former, kept, rfl⟩ := Option.map_eq_some_iff.mp same
  obtain ⟨sound, registry_eq, rfl⟩ := holding.held.document former kept
  exact ⟨sound.withSurface (distinct sound.distinct), registry_eq, rfl⟩

theorem Holding.put {host : Host} (holding : Holding registry (· = surface) base host)
    (name : Text) (component : Component) :
    ∃ after, putComponent name component host = .ok () after ∧
      Holding registry (· = withComponent surface name component) base after :=
  holding.changed (withComponent · name component) fun distinct => distinct.update name _

/-- What was put back is altered. -/
theorem alters_restored (component : Component) (property : Text) (old? : Option Value) :
    component.Alters (restored component property old?) := by
  unfold restored
  cases old? with
  | none =>
      dsimp only
      split
      · next done => exact .reset done
      · exact .kept
  | some old =>
      dsimp only
      split
      · next done => exact .set done
      · exact .kept

/-- The site with a name in a host is one of its document. -/
theorem get?_of_site? {host : Host} {document : Document} (kept : host.document? = some document)
    {name : Text} {site : Site} (found : host.site? name = some site) :
    document.surface.container.get? site.name = some site.component := by
  unfold site? at found
  rw [kept] at found
  unfold Container.get?
  rw [Container.site?_congr (Container.sameName_of_site? found)]
  exact congrArg (Option.map _) found

/-- Only a host with a document has sites. -/
theorem exists_document {host : Host} {name : Text} {site : Site}
    (found : host.site? name = some site) : ∃ document, host.document? = some document := by
  cases kept : host.document? with
  | none =>
      unfold site? at found
      rw [kept] at found
      cases found
  | some document => exact ⟨document, rfl⟩

theorem Holding.keeps_changeProperty (durable : Surface.Durable registry holds)
    (name property : Text) (value : Value) :
    Keeps (Holding registry holds base) (changeProperty name property value) := by
  refine Keeps.bind (keeps_siteNamed name) fun host site middle holding ran _ => ?_
  rw [siteNamed_eq] at ran
  cases found : host.site? name with
  | none => rw [found] at ran; cases ran
  | some site' =>
      rw [found] at ran
      cases ran
      dsimp only
      split
      · exact holding
      next declared _ =>
        split
        · exact holding
        · next old? changed done =>
            obtain ⟨document, kept⟩ := exists_document found
            have there := get?_of_site? kept found
            have turned : holds (withComponent document.surface site.name changed) :=
              durable.turned _ _ (holding.held.document document kept).surface
                (.altered there (.set done))
            obtain ⟨after, put, exactly⟩ := (holding.exactly kept).put site.name changed
            rw [leaves_bind_of_ok put]
            refine (keeps_attempt (keeps_onDocument
              (Document.Holds.textual.keeps_updateTag _ _ _ _))).follow
                (fun _ exactly => exactly.of_exactly turned) exactly ?_
            intro outcome middle written
            split
            · next failure =>
                have restoring :
                    (withComponent document.surface site.name changed).Turn registry _ :=
                  .altered (get?_withComponent there changed) (alters_restored _ declared.name old?)
                obtain ⟨after', put', exactly'⟩ :=
                  written.put site.name (restored changed declared.name old?)
                rw [leaves_bind_of_ok put']
                exact exactly'.of_exactly (durable.turned _ _ turned restoring)
            · exact keeps_tell _ middle (written.of_exactly turned)

theorem Holding.keeps_changeHandler (durable : Surface.Durable registry holds)
    (name event : Text) (handler? : Option Text) :
    Keeps (Holding registry holds base) (changeHandler name event handler?) := by
  refine Keeps.bind (keeps_siteNamed name) fun host site middle holding ran _ => ?_
  rw [siteNamed_eq] at ran
  cases found : host.site? name with
  | none => rw [found] at ran; cases ran
  | some site' =>
      rw [found] at ran
      cases ran
      obtain ⟨document, kept⟩ := exists_document found
      have there := get?_of_site? kept found
      dsimp only
      split
      · exact holding
      next declared _ =>
        have written : ∀ changed, site.component.Alters changed → Holding registry holds base
            (leaves (putComponent site.name changed >>= fun _ =>
              discard (onDocument (Document.updateEvent site.name declared handler?))) host) := by
          intro changed alters
          have turned := durable.turned _ _ (holding.held.document document kept).surface
            (.altered there alters)
          obtain ⟨after, put, exactly⟩ := (holding.exactly kept).put site.name changed
          rw [leaves_bind_of_ok put]
          exact (keeps_onDocument (Document.Holds.textual.keeps_updateEvent _ _ _)).discard after
            (exactly.of_exactly turned)
        split
        · exact written _ (.unbind declared)
        · split
          · exact holding
          · next bound => exact written _ (.bind bound)

/-! ## Renaming -/

theorem renameSite_unloaded {host : Host} (unloaded : host.document? = none)
    (name newName : Text) : renameSite name newName host = .error .notLoaded host := by
  unfold renameSite
  simp only [bind, EStateM.bind, loaded_eq, unloaded]

theorem renameSite_eq {host : Host} {document : Document} (kept : host.document? = some document)
    (name newName : Text) :
    renameSite name newName host =
      match document.surface.rename name newName with
      | .error failure => .error failure host
      | .ok (previous, surface) =>
          .ok previous { host with document? := some { document with surface } } := by
  unfold renameSite
  simp only [bind, EStateM.bind, loaded_eq, kept]
  cases document.surface.rename name newName <;> rfl

/-- A component that gets its former name again leaves the surface that was there before. -/
theorem Holding.renamed_back {host : Host} (durable : Surface.Durable registry holds)
    (held : holds surface) {after : Surface} (exactly : Holding registry (· = after) base host)
    {name newName previous : Text} (renamed : surface.rename name newName = .ok (previous, after)) :
    Holding registry holds base (leaves (renameSite newName previous) host) := by
  have arranged := durable.arranged _ held
  cases kept : host.document? with
  | none =>
      rw [leaves_of_error (renameSite_unloaded kept newName previous)]
      refine ⟨⟨fun document same => ?_, exactly.held.registry_eq⟩, exactly.beside⟩
      rw [kept] at same
      cases same
  | some document =>
      have runs := renameSite_eq kept newName previous
      rw [(exactly.held.document document kept).surface, arranged.rename_back renamed] at runs
      rw [leaves_of_ok runs]
      exact exactly.withSurface kept arranged.distinct held

/-- A component is renamed with the selection, or it has its former name again. -/
theorem Holding.keeps_changeName (durable : Surface.Durable registry holds)
    (name newName : Text) : Keeps (Holding registry holds base) (changeName name newName) := by
  intro host holding
  unfold changeName
  cases kept : host.document? with
  | none =>
      rw [leaves_bind_of_error (renameSite_unloaded kept name newName)]
      exact holding
  | some document =>
      have held := (holding.held.document document kept).surface
      have runs := renameSite_eq kept name newName
      cases renamed : document.surface.rename name newName with
      | error failure =>
          rw [renamed] at runs
          rw [leaves_bind_of_error runs]
          exact holding
      | ok outcome =>
          obtain ⟨previous, after⟩ := outcome
          rw [renamed] at runs
          rw [leaves_bind_of_ok runs]
          have distinct := Surface.distinct_rename (durable.arranged _ held).distinct renamed
          have exactly : Holding registry (· = after) base _ :=
            holding.withSurface kept distinct rfl
          obtain ⟨outcome, ended⟩ := attempt_ends
            (onDocument (Document.renameTag previous newName))
            { host with document? := some { document with surface := after } }
          have written := keeps_onDocument
            (Document.Holds.textual.keeps_renameTag previous newName) _ exactly
          rw [leaves_bind_of_ok ended]
          split
          · obtain ⟨_, again⟩ := attempt_ends (renameSite newName previous) (leaves
              (onDocument (Document.renameTag previous newName))
              { host with document? := some { document with surface := after } })
            rw [leaves_bind_of_ok (discard_of_ok again)]
            exact written.renamed_back durable held renamed
          · obtain ⟨final, selected, exactly'⟩ := written.changed (fun surface =>
              { surface with selection := surface.selection.rename previous newName }) id
            rw [leaves_bind_of_ok selected]
            exact keeps_tell _ final (exactly'.of_exactly
              (durable.turned _ _ held (.renamed renamed)))

end PageDesigner.Host
