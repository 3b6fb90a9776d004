import PageDesigner.Proofs.Document.Exchanging
import PageDesigner.Proofs.Host.Succeeding

/-!
# What a host has told of its components

Whoever follows the events of a host can keep a table of its components: an entry is added,
struck off or renamed with each event about a component (`HostEvent.recorded`).  After every
operation that is settled, the table is that of the components that are sited, unless a
refresh had to bring the components in line with the markup and the scan has failed behind
passes that have changed them.  Such a refresh tells nothing, so from there on the table is
another one (`Host.told_iff_of_run`).
-/

namespace PageDesigner

/-- A table of components with an event recorded in it. -/
def HostEvent.recorded (table : List (Text × Text)) : HostEvent → List (Text × Text)
  | .added name typeName => table ++ [(name, typeName)]
  | .removed name => table.filter (·.1 ≠ name)
  | .renamed name newName =>
      table.map fun entry => (if entry.1 = name then newName else entry.1, entry.2)
  | _ => table

namespace Host

/-- The table of those who have followed all events. -/
def replayed (host : Host) : List (Text × Text) := host.events.foldl HostEvent.recorded []

/-- The names and types of the components, in the order of siting. -/
def table (host : Host) : List (Text × Text) :=
  (host.document?.map (·.surface.container.table)).getD []

/-- What was told replays to the components that are sited. -/
def Told (host : Host) : Prop := host.replayed = host.table

instance (host : Host) : Decidable host.Told := inferInstanceAs (Decidable (_ = _))

variable {registry : Registry} {host after : Host} {told sited : List (Text × Text)} {α : Type}

theorem table_of_kept {document : Document} (kept : host.document? = some document) :
    host.table = document.surface.container.table := by
  unfold table
  rw [kept]
  rfl

/-! ## Recording -/

/-- Events that are not about components show in no table. -/
def Silent (events : List HostEvent) : Prop :=
  ∀ event ∈ events, ∀ table, event.recorded table = table

theorem recorded_of_silent {events : List HostEvent} (silent : Silent events)
    (table : List (Text × Text)) : events.foldl HostEvent.recorded table = table := by
  induction events generalizing table with
  | nil => rfl
  | cons event rest ih =>
      rw [List.foldl_cons, silent event List.mem_cons_self]
      exact ih (fun other member => silent other (List.mem_cons_of_mem event member)) table

theorem silent_transaction (events : List TransactionEvent) :
    Silent (events.map .transaction) := by
  intro event member table
  obtain ⟨_, _, rfl⟩ := List.mem_map.mp member
  rfl

theorem silent_singleton {event : HostEvent} (silent : ∀ table, event.recorded table = table) :
    Silent [event] := by
  intro other member
  rw [List.mem_singleton.mp member]
  exact silent

theorem recorded_removed (names : List Text) (table : List (Text × Text)) :
    (names.map HostEvent.removed).foldl HostEvent.recorded table =
      table.filter (·.1 ∉ names) := by
  induction names generalizing table with
  | nil => exact (List.filter_eq_self.mpr fun _ _ => decide_eq_true List.not_mem_nil).symm
  | cons name rest ih =>
      rw [List.map_cons, List.foldl_cons, ih]
      unfold HostEvent.recorded
      rw [List.filter_filter]
      refine List.filter_congr fun entry _ => ?_
      simp [Bool.and_comm]

theorem recorded_added (entries table : List (Text × Text)) :
    (entries.map fun entry => HostEvent.added entry.1 entry.2).foldl HostEvent.recorded table =
      table ++ entries := by
  induction entries generalizing table with
  | nil => exact (List.append_nil table).symm
  | cons entry rest ih =>
      rw [List.map_cons, List.foldl_cons, ih]
      unfold HostEvent.recorded
      rw [List.append_assoc]
      rfl

/-! ## Parts of operations -/

/-- Nothing waits, and the table that was told and the one of the components are known. -/
structure Shows (told sited : List (Text × Text)) (host : Host) : Prop where
  replayed_eq : host.replayed = told
  table_eq : host.table = sited
  waiting_eq : host.waiting = []

theorem Shows.telling (shown : Shows told sited host) (events : List HostEvent) :
    Shows (events.foldl HostEvent.recorded told) sited
      { host with events := host.events ++ events } := by
  refine ⟨?_, shown.table_eq, shown.waiting_eq⟩
  unfold replayed
  rw [List.foldl_append]
  exact congrArg (events.foldl HostEvent.recorded) shown.replayed_eq

theorem Shows.withDocument (shown : Shows told sited host) (document : Document) :
    Shows told document.surface.container.table { host with document? := some document } :=
  ⟨shown.replayed_eq, rfl, shown.waiting_eq⟩

/-- Telling what is not about components. -/
theorem shows_tell {events : List HostEvent} (silent : Silent events) :
    Keeps (Shows told sited) (tell events) := by
  refine .modify fun host shown => ?_
  have later := shown.telling events
  rw [recorded_of_silent silent] at later
  exact later

/-- What leaves the table of the document leaves that of the host. -/
theorem shows_onDocument {action : Document.Action α}
    (keeps : ∀ sited,
      Keeps (fun document : Document => document.surface.container.table = sited) action) :
    Keeps (Shows told sited) (onDocument action) := by
  refine keeps_onDocument_of fun {host document} shown kept => ?_
  have same := shown.table_eq
  rw [table_of_kept kept] at same
  exact ⟨shown.replayed_eq, keeps sited document same, shown.waiting_eq⟩

/-- What only parses and edits the text leaves the table. -/
theorem shows_textual {action : Document.Action α}
    (keeps : ∀ holds, Document.Textual holds → Keeps holds action) :
    Keeps (Shows told sited) (onDocument action) :=
  shows_onDocument fun sited =>
    keeps _ (Document.textual_surface fun surface => surface.container.table = sited)

theorem shows_onSurface {change : Surface → Surface}
    (keeps : ∀ surface, (change surface).container.table = surface.container.table) :
    Keeps (Shows told sited) (onSurface change) := by
  refine .modify fun host shown => ⟨shown.replayed_eq, ?_, shown.waiting_eq⟩
  rw [← shown.table_eq]
  unfold table
  dsimp only
  cases host.document? with
  | none => rfl
  | some document => exact keeps document.surface

theorem shows_select (names : List Text) (primary : Nat) :
    Keeps (Shows told sited) (select names primary) := by
  have selected : Keeps (Shows told sited)
      (onSurface fun surface => surface.select (surface.known names) primary) :=
    shows_onSurface fun _ => rfl
  exact selected.seq fun _ => Keeps.get.seq fun _ => shows_tell (silent_singleton fun _ => rfl)

theorem shows_settle : Keeps (Shows told sited) settle := by
  intro host shown
  rw [leaves_of_ok (settle_of_waiting shown.waiting_eq)]
  exact shown

theorem table_draw (context : DrawingContext) (surface : Surface) :
    (DesignHtml.draw context surface).2.container.table = surface.container.table := by
  refine @DesignHtml.holds_draw (·.container.table = surface.container.table) ?_ context surface rfl
  intro drawing name component drawn same found drawn'
  rw [Container.table_update fun component' found' => ?_]
  · exact same
  · rw [found] at found'
    obtain rfl := Option.some.inj found'
    rcases drawn' with rfl | rfl
    · rfl
    · unfold Component.prepared
      split <;> rfl

theorem shows_designHtml : Keeps (Shows told sited)
    (onDocument (modifyGet Document.designHtml) : Action DesignHtml) := by
  refine shows_onDocument fun sited => .modifyGet fun document same => ?_
  have parsed := (Document.textual_surface fun surface => surface.container.table = sited).parse
    document same
  exact (table_draw _ _).trans parsed

theorem shows_drawSurface : Keeps (Shows told sited) drawSurface :=
  keeps_drawing shows_designHtml fun _ => shows_tell (silent_singleton fun _ => rfl)

theorem shows_openTransaction (description : Text) :
    Keeps (Shows told sited) (openTransaction description) := by
  intro host shown
  rw [leaves_of_ok (openTransaction_eq host description)]
  have later := shown.telling [.transaction (.opening description),
    .transaction (.opened description)]
  exact ⟨later.replayed_eq, later.table_eq, later.waiting_eq⟩

theorem shows_closeTransaction (handle : Transaction) (commit : Bool) :
    Keeps (Shows told sited) (closeTransaction handle commit) := by
  refine Keeps.get.seq fun host => ?_
  split
  · exact .throw _
  · exact Keeps.seq (.modify fun _ shown =>
      ⟨shown.replayed_eq, shown.table_eq, shown.waiting_eq⟩) fun _ =>
        (shows_tell (silent_transaction _)).seq fun _ => .pure _

theorem shows_dropTransaction (handle : Transaction) :
    Keeps (Shows told sited) (dropTransaction handle) :=
  Keeps.get.seq fun _ => Keeps.seq (.modify fun _ shown =>
    ⟨shown.replayed_eq, shown.table_eq, shown.waiting_eq⟩) fun _ =>
      shows_tell (silent_transaction _)

/-! ## Changing a component -/

/-- Replacing a component by one of the same type leaves the table. -/
theorem shows_putComponent (distinct : (sited.map fun entry => entry.1.lower).Nodup)
    {name : Text} {component : Component} (listed : (name, component.controlType.name) ∈ sited) :
    Keeps (Shows told sited) (putComponent name component) := by
  refine .modify fun host shown => ⟨shown.replayed_eq, ?_, shown.waiting_eq⟩
  have same := shown.table_eq
  unfold table at same ⊢
  dsimp only
  cases kept : host.document? with
  | none => rw [kept] at same; exact same
  | some document =>
      rw [kept] at same
      replace same : document.surface.container.table = sited := same
      subst same
      exact Container.table_put (Container.distinct_iff_table.mpr distinct) listed

/-- A component that is found stands in the table. -/
theorem Shows.listed (shown : Shows told sited host) {name : Text} {site : Site}
    (found : host.site? name = some site) :
    (site.name, site.component.controlType.name) ∈ sited := by
  obtain ⟨document, kept⟩ := exists_document found
  unfold site? at found
  rw [kept] at found
  rw [← shown.table_eq, table_of_kept kept]
  exact List.mem_map.mpr ⟨site, Container.mem_of_site? found, rfl⟩

/-- What stands in the table is sited. -/
theorem Shows.finds (shown : Shows told sited host) (orderly : host.Orderly registry)
    {entry : Text × Text} (listed : entry ∈ sited) :
    ∃ site, host.site? entry.1 = some site ∧ site.name = entry.1 := by
  rw [← shown.table_eq] at listed
  unfold table at listed
  unfold site?
  cases kept : host.document? with
  | none => rw [kept] at listed; cases listed
  | some document =>
      rw [kept] at listed
      obtain ⟨site, member, rfl⟩ := List.mem_map.mp listed
      exact ⟨site, Container.site?_of_mem (orderly.document document kept).surface.distinct member
        (Text.sameName_refl _), rfl⟩

theorem Shows.distinct (shown : Shows told sited host) (orderly : host.Orderly registry) :
    (sited.map fun entry => entry.1.lower).Nodup := by
  rw [← shown.table_eq]
  unfold table
  cases kept : host.document? with
  | none => exact List.nodup_nil
  | some document =>
      exact Container.distinct_iff_table.mp (orderly.document document kept).surface.distinct

theorem shows_changeProperty (orderly : host.Orderly registry) (shown : Shows told sited host)
    (name property : Text) (value : Value) :
    Shows told sited (leaves (changeProperty name property value) host) := by
  have sites := siteNamed_eq name host
  unfold changeProperty
  cases found : host.site? name with
  | none =>
      rw [found] at sites
      rw [leaves_bind_of_error sites]
      exact shown
  | some site =>
      rw [found] at sites
      rw [leaves_bind_of_ok sites]
      have distinct := shown.distinct orderly
      have listed := shown.listed found
      dsimp only
      split
      · exact shown
      next declared _ =>
      split
      · exact shown
      next old? changed done =>
      have alters : site.component.Alters changed := .set done
      have restores := alters_restored changed declared.name old?
      have put : Keeps (Shows told sited) (putComponent site.name changed) :=
        shows_putComponent distinct (by rw [alters.frame.1]; exact listed)
      have putBack : Keeps (Shows told sited)
          (putComponent site.name (restored changed declared.name old?)) :=
        shows_putComponent distinct (by rw [restores.frame.1, alters.frame.1]; exact listed)
      refine Keeps.seq put (fun _ => (keeps_attempt (shows_textual fun holds textual =>
        textual.keeps_updateTag _ _ _ _)).seq fun outcome => ?_) host shown
      split
      · exact putBack.seq fun _ => .throw _
      · exact shows_tell (silent_singleton fun _ => rfl)

theorem shows_changeHandler (orderly : host.Orderly registry) (shown : Shows told sited host)
    (name event : Text) (handler? : Option Text) :
    Shows told sited (leaves (changeHandler name event handler?) host) := by
  have sites := siteNamed_eq name host
  unfold changeHandler
  cases found : host.site? name with
  | none =>
      rw [found] at sites
      rw [leaves_bind_of_error sites]
      exact shown
  | some site =>
      rw [found] at sites
      rw [leaves_bind_of_ok sites]
      have listed := shown.listed found
      have put : ∀ changed, site.component.Alters changed →
          Keeps (Shows told sited) (putComponent site.name changed) := fun changed alters =>
        shows_putComponent (shown.distinct orderly) (by rw [alters.frame.1]; exact listed)
      dsimp only
      split
      · exact shown
      next declared _ =>
      have written : Keeps (Shows told sited)
          (discard (onDocument (Document.updateEvent site.name declared handler?)) :
            Action PUnit) :=
        (shows_textual fun holds textual => textual.keeps_updateEvent _ _ _).discard
      split
      · exact Keeps.seq (put _ (.unbind declared)) (fun _ => written) host shown
      · split
        · exact shown
        · next bound =>
            exact Keeps.seq (put _ (.bind bound)) (fun _ => written) host shown

/-! ## Calm hosts -/

/-- An orderly host in which nothing waits and everything about components was told. -/
structure Calm (registry : Registry) (host : Host) : Prop where
  orderly : host.Orderly registry
  told : host.Told
  waiting_eq : host.waiting = []

theorem Calm.shows (calm : Calm registry host) : Shows host.table host.table host :=
  ⟨calm.told, rfl, calm.waiting_eq⟩

theorem Shows.calm (shown : Shows sited sited host) (orderly : host.Orderly registry) :
    Calm registry host :=
  ⟨orderly, shown.replayed_eq.trans shown.table_eq.symm, shown.waiting_eq⟩

/-- What changes neither what was told nor the table leaves a host calm. -/
theorem calm_of_shows {action : Action α} (orderly : Keeps (Orderly registry) action)
    (shows' : ∀ host, host.Orderly registry → ∀ sited, Shows sited sited host →
      Shows sited sited (leaves action host)) : Keeps (Calm registry) action :=
  fun host calm =>
    (shows' host calm.orderly _ calm.shows).calm (orderly host calm.orderly)

theorem calm_of_keeps {action : Action α} (orderly : Keeps (Orderly registry) action)
    (shows' : ∀ sited, Keeps (Shows sited sited) action) : Keeps (Calm registry) action :=
  calm_of_shows orderly fun host _ sited => shows' sited host

theorem calm_settle (regular : registry.Regular) : Keeps (Calm registry) settle :=
  calm_of_keeps (keeps_settle regular) fun _ => shows_settle

/-! ## Creating, destroying and renaming -/

/-- Destroying a component in a document strikes its entry off the table of the host. -/
theorem destroy_document (orderly : host.Orderly registry) {document : Document}
    (kept : host.document? = some document) (shown : Shows told sited host) (name : Text) :
    (∃ middle, onDocument (Document.destroy name) host = .ok none middle ∧
        host.site? name = none ∧ Shows told sited middle) ∨
      ∃ site middle, onDocument (Document.destroy name) host = .ok (some site.name) middle ∧
        host.site? name = some site ∧ Shows told (sited.filter (·.1 ≠ site.name)) middle := by
  have same := shown.table_eq
  rw [table_of_kept kept] at same
  have sites : host.site? name = document.surface.container.site? name := by
    unfold site?
    rw [kept]
    rfl
  rw [sites]
  rcases Surface.missing_or_destroyed (orderly.document document kept).surface.distinct name with
    ⟨missing, gone⟩ | ⟨site, after, found, gone, -, table⟩
  · have ran : Document.destroy name document = .ok none document := by
      unfold Document.destroy
      rw [bind_of_ok (get_eq document), gone]
      rfl
    refine .inl ⟨_, onDocument_of_ok kept ran, missing, ?_⟩
    have later := shown.withDocument document
    rw [same] at later
    exact later
  · have ran : Document.destroy name document =
        .ok (some site.name) { document with surface := after } := by
      unfold Document.destroy
      rw [bind_of_ok (get_eq document), gone]
      rfl
    refine .inr ⟨site, _, onDocument_of_ok kept ran, found, ?_⟩
    have later := shown.withDocument { document with surface := after }
    dsimp only at later
    rw [table, same] at later
    exact later

/-- Destroying a component and telling so leaves a host calm. -/
theorem calm_destroyed (regular : registry.Regular) (name : Text) : Keeps (Calm registry) (do
    match ← onDocument (Document.destroy name) with
    | some removed => tell [.removed removed]
    | none => pure () : Action Unit) := by
  intro host calm
  have gone : Keeps (Orderly registry) (onDocument (Document.destroy name)) :=
    keeps_onDocument_orderly (Document.keeps_destroy regular name)
  cases kept : host.document? with
  | none =>
      have failed : onDocument (Document.destroy name) host = .error .notLoaded host := by
        unfold onDocument
        rw [kept]
      rw [leaves_bind_of_error failed]
      exact calm
  | some document =>
      rcases destroy_document calm.orderly kept calm.shows name with
        ⟨middle, ran, -, shown⟩ | ⟨site, middle, ran, -, shown⟩
      · rw [leaves_bind_of_ok ran]
        exact shown.calm (gone.ok calm.orderly ran)
      · rw [leaves_bind_of_ok ran]
        exact (shown.telling [.removed site.name]).calm
          (keeps_telling _ middle (gone.ok calm.orderly ran))

theorem calm_removeTagOf (name : Text) : Keeps (Calm registry) (removeTagOf name) :=
  calm_of_keeps (keeps_removeTagOf name) fun _ =>
    keeps_removingTag (shows_textual fun _ textual => textual.keeps_removeTag name)

theorem calm_destroy (regular : registry.Regular) (name : Text) :
    Keeps (Calm registry) (destroy name) :=
  keeps_destroying (calm_settle regular) calm_removeTagOf (calm_destroyed regular) name

theorem calm_destroyEach (regular : registry.Regular) (names : List Text) :
    Keeps (Calm registry) (destroyEach names) :=
  keeps_destroyingEach (calm_destroy regular) names

theorem table_sitedNew {surface : Surface} (orderly : surface.Orderly) (controlType : ControlType)
    {name : Text} (free : surface.container.site? name = none) :
    (sitedNew surface controlType name).container.table =
      surface.container.table ++ [(name, controlType.name)] := by
  have there := Surface.get?_place_self free (orderly.isRoot_of_free free) (.fresh controlType)
  refine (Container.table_update fun component found => ?_).trans (surface.table_place name _)
  rw [there] at found
  obtain rfl := Option.some.inj found
  exact (Component.alters_initialized _).frame.1

/-- A new control is told of once its tag is written, and destroyed again otherwise. -/
theorem calm_addControl (regular : registry.Regular) {controlType : ControlType}
    (listed : controlType ∈ registry.all) (name? : Option Text) :
    Keeps (Calm registry) (addControl controlType name?) := by
  intro host calm
  have regular' := regular controlType listed
  have after : (leaves (addControl controlType name?) host).Orderly registry :=
    orderly_of_working (fun _ => keeps_addControl regular listed name?) host calm.orderly
  rcases siteNew_cases calm.orderly regular' name? with
    ⟨failure, failed⟩ | ⟨document, name, kept, free, valid, done⟩
  · unfold addControl
    rw [leaves_bind_of_error failed]
    exact calm
  have surface := (calm.orderly.document document kept).surface
  have placed := calm.shows.withDocument
    { document with surface := sitedNew document.surface controlType name }
  dsimp only at placed
  rw [table_sitedNew surface controlType free, ← table_of_kept kept] at placed
  have orderly : Orderly registry { host with document? := some { document with
      surface := sitedNew document.surface controlType name } } := by
    have working : Working registry host host := ⟨calm.orderly, .refl host⟩
    exact ((working.carries kept).withSurface kept
      (holds_sitedNew (Surface.durable_orderly regular) surface listed free valid)).working.orderly
  have struck : (host.table ++ [(name, controlType.name)]).filter (·.1 ≠ name) = host.table := by
    rw [List.filter_append, List.filter_eq_self.mpr fun entry listed => decide_eq_true ?_]
    · simp
    · rintro rfl
      obtain ⟨site, sited, -⟩ := calm.shows.finds calm.orderly listed
      unfold site? at sited
      rw [kept] at sited
      rw [show document.surface.container.site? entry.1 = some site from sited] at free
      cases free
  unfold addControl at after ⊢
  rw [leaves_bind_of_ok done] at after ⊢
  clear done
  generalize ({ host with document? := some { document with
    surface := sitedNew document.surface controlType name } } : Host) = sitedHost at *
  dsimp only at after ⊢
  cases wrote : onDocument (Document.insertTag
      ((Component.fresh controlType).initialized.markup name)) sitedHost with
  | ok result middle =>
      have shown := (shows_textual fun holds textual => textual.keeps_insertTag _).ok placed wrote
      rw [leaves_bind_of_ok (attempt_of_ok wrote)] at after ⊢
      have told := shown.telling [.added name controlType.name]
      exact (((shows_select [name] 0).seq fun _ => .pure name) _ told).calm after
  | error failure middle =>
      have shown :=
        (shows_textual fun holds textual => textual.keeps_insertTag _).error placed wrote
      have orderly' := (keeps_onDocument_orderly (Document.orderly_of_keeps fun _ =>
        Document.textual_carries.keeps_insertTag _)).error orderly wrote
      rw [leaves_bind_of_ok (attempt_of_error wrote)] at after ⊢
      obtain ⟨site, found, named⟩ := shown.finds orderly'
        (List.mem_append_right _ (List.mem_singleton_self _))
      obtain ⟨document', kept'⟩ := exists_document found
      rcases destroy_document orderly' kept' shown name with
        ⟨_, _, missing, -⟩ | ⟨site', last, ran, found', shown'⟩
      · rw [found] at missing
        cases missing
      · rw [found] at found'
        obtain rfl := Option.some.inj found'
        rw [leaves_bind_of_ok (discard_of_ok ran)] at after ⊢
        rw [named, struck] at shown'
        exact shown'.calm after

/-- A component that gets another name in its tag is told of, and has its name back otherwise. -/
theorem calm_changeName (regular : registry.Regular) (name newName : Text) :
    Keeps (Calm registry) (changeName name newName) := by
  intro host calm
  have after : (leaves (changeName name newName) host).Orderly registry :=
    orderly_of_working (fun _ => keeps_changeName regular name newName) host calm.orderly
  cases kept : host.document? with
  | none =>
      unfold changeName
      rw [leaves_bind_of_error (renameSite_unloaded kept name newName)]
      exact calm
  | some document =>
  have renames := renameSite_eq kept name newName
  have orderly := (calm.orderly.document document kept).surface
  cases renamed : document.surface.rename name newName with
  | error cause =>
      rw [renamed] at renames
      unfold changeName
      rw [leaves_bind_of_error renames]
      exact calm
  | ok outcome =>
  obtain ⟨previous, surface⟩ := outcome
  rw [renamed] at renames
  unfold changeName at after ⊢
  rw [leaves_bind_of_ok renames] at after ⊢
  clear renames
  have shown := calm.shows.withDocument { document with surface }
  cases wrote : onDocument (Document.renameTag previous newName)
      { host with document? := some { document with surface } } with
  | ok result middle =>
      rw [leaves_bind_of_ok (attempt_of_ok wrote)] at after ⊢
      have written := (shows_textual fun holds textual => textual.keeps_renameTag _ _).ok
        shown wrote
      have selected := (shows_onSurface fun _ => rfl :
        Keeps (Shows host.table surface.container.table) (onSurface fun surface =>
          { surface with selection := surface.selection.rename previous newName })) middle written
      have told := selected.telling [.renamed previous newName]
      rw [table_of_kept kept, Surface.table_rename orderly.distinct renamed] at told
      exact told.calm after
  | error failure middle =>
      rw [leaves_bind_of_ok (attempt_of_error wrote)] at after ⊢
      obtain ⟨document', refuses, rfl⟩ := onDocument_error rfl wrote
      have unedited := Document.unedited_renameTag _ _ _ _ _ (.refl _) refuses
      have renamesBack := @renameSite_eq { host with document? := some document' } document' rfl
        newName previous
      rw [unedited.surface_eq, orderly.arranged.rename_back renamed] at renamesBack
      rw [leaves_bind_of_ok (discard_of_ok (attempt_of_ok renamesBack))] at after ⊢
      have back := calm.shows.withDocument { document' with surface := document.surface }
      dsimp only at back
      rw [← table_of_kept kept] at back
      exact back.calm after

end Host

end PageDesigner
