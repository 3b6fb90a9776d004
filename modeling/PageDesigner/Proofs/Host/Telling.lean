import PageDesigner.Proofs.Host.EventLog

/-!
# What a host tells of its components

A calm host stays calm through every operation that asks for no refresh.  The others leave
one refresh that waits (`Host.Announced`), and settling it tells what it does to the
components unless the scan fails: the passes before have changed components then, and
nobody is told (`Host.hushes`).  Over a whole run, the events replay to the components that
are sited just as long as no such refresh has been settled (`Host.told_iff_of_run`).
-/

namespace PageDesigner.Host

variable {registry : Registry} {host : Host} {told sited : List (Text × Text)} {α β : Type}

/-! ## Reset and load -/

/-- A reset empties what was told, as long as nothing was told but what is sited. -/
theorem shows_reset (orderly : host.Orderly registry) (shown : Shows told sited host)
    (known : ∀ entry ∈ told, entry.1 ∈ sited.map Prod.fst) :
    Shows [] [] (leaves reset host) := by
  rw [leaves_of_ok (reset_of_waiting shown.waiting_eq)]
  have later := shown.telling
    (((host.document?.map (·.surface.clear.1)).getD []).map HostEvent.removed)
  rw [recorded_removed] at later
  refine ⟨later.replayed_eq.trans (List.filter_eq_nil_iff.mpr fun entry member => ?_), rfl,
    shown.waiting_eq⟩
  have same := shown.table_eq
  have listed := known entry member
  unfold table at same
  cases kept : host.document? with
  | none =>
      rw [kept] at same
      obtain rfl : [] = sited := same
      cases listed
  | some document =>
      rw [kept] at same
      obtain rfl : document.surface.container.table = sited := same
      rw [← Container.names_eq_table] at listed
      have gone := (orderly.document document kept).surface.mem_clear listed
      simpa using gone

theorem calm_reset (regular : registry.Regular) : Keeps (Calm registry) reset := fun host calm =>
  (shows_reset calm.orderly calm.shows fun _ member => List.mem_map_of_mem member).calm
    (keeps_reset regular host calm.orderly)

/-- The first scan destroys nothing, so behind the root is what it reports. -/
theorem table_of_createControls {designers : DesignerRegistry} {options : Options} {text : Text}
    (regular : registry.Regular) {report : ScanReport} {document : Document}
    (created : Document.createControls (startDocument registry designers options text) =
      .ok report document) :
    document.surface.container.table =
      [(rootName registry, (pageType registry).name)] ++ report.created := by
  obtain ⟨table, former⟩ := Document.accounts_of_scan
    (sound_startDocument registry designers options text)
    (fun controlType listed => (regular controlType listed).named) created
  have none' : report.removed = [] := by
    refine List.eq_nil_iff_forall_not_mem.mpr fun name member => ?_
    obtain ⟨notRoot, listed⟩ := former name member
    obtain rfl := List.mem_singleton.mp listed
    have root : (rootSurface registry).isRoot (rootName registry) = true := Text.sameName_refl _
    exact Bool.false_ne_true (notRoot.symm.trans root)
  rw [none'] at table
  exact table

/-- The first scan is told of, and everything is gone again when it fails. -/
theorem shows_firstScan {designers : DesignerRegistry} {options : Options} {text : Text}
    (regular : registry.Regular) (orderly : host.Orderly registry)
    (kept : host.document? = some (startDocument registry designers options text))
    (shown : Shows [(rootName registry, (pageType registry).name)]
      [(rootName registry, (pageType registry).name)] host) :
    ∃ table, Shows table table (leaves (do
      match ← attempt (onDocument Document.createControls) with
      | .error failure =>
          reset
          throw failure
      | .ok report =>
          tellChanges { report with removed := [] }
          modify fun host => { host with phase := .loaded }
          tell [.loadComplete (report.created.length + 1) report.issues.length]
          pure report : Action ScanReport) host) := by
  cases created : Document.createControls (startDocument registry designers options text) with
  | ok report document =>
      rw [leaves_bind_of_ok (attempt_of_ok (onDocument_of_ok kept created))]
      have later := (shown.withDocument document).telling
        (report.created.map fun entry => .added entry.1 entry.2)
      rw [recorded_added, table_of_createControls regular created] at later
      have ends : ∀ table, Keeps (Shows table table) (do
          modify fun host : Host => { host with phase := .loaded }
          tell [.loadComplete (report.created.length + 1) report.issues.length]
          pure report : Action ScanReport) := fun _ =>
        Keeps.seq (.modify fun _ shown => ⟨shown.replayed_eq, shown.table_eq, shown.waiting_eq⟩)
          fun _ => (shows_tell (silent_singleton fun _ => rfl)).seq fun _ => .pure _
      exact ⟨_, ends _ _ later⟩
  | error failure document =>
      have refused := onDocument_of_error kept created
      rw [leaves_bind_of_ok (attempt_of_error refused)]
      have orderly' := (keeps_onDocument_orderly (Document.keeps_scan regular .initial)).error
        orderly refused
      have root : document.surface.root? = some (rootName registry) := by
        rw [← leaves_of_error created]
        exact Document.root?_scan (sound_startDocument registry designers options text) .initial
      have sited := (orderly'.document document rfl).surface.rooted _ root
      rw [Container.names_eq_table] at sited
      have failed := shown.withDocument document
      have gone := shows_reset orderly' failed fun entry member => by
        rw [List.mem_singleton.mp member]
        exact sited
      have empties := reset_of_waiting failed.waiting_eq
      refine ⟨[], ?_⟩
      dsimp only
      rw [leaves_bind_of_ok empties]
      rw [leaves_of_ok empties] at gone
      exact gone

theorem calm_load (regular : registry.Regular) (text : Text) :
    Keeps (Calm registry) (load text) := by
  intro host calm
  have after := keeps_load regular text host calm.orderly
  obtain rfl := calm.orderly.registry_eq
  unfold load at after ⊢
  rw [leaves_bind_of_ok (get_eq host)] at after ⊢
  dsimp only at after ⊢
  split
  · exact calm
  next fresh =>
  rw [if_neg fresh] at after
  have bare : host.table = [] := by
    simp only [Bool.or_eq_true, not_or, Bool.not_eq_true, Option.isSome_eq_false_iff,
      Option.isNone_iff_eq_none] at fresh
    unfold table
    rw [fresh.2]
    rfl
  have begun := (calm.shows.withDocument
    (startDocument host.registry host.designers host.options text)).telling
      [.added (rootName host.registry) (pageType host.registry).name]
  rw [bare] at begun
  rw [leaves_bind_set, leaves_bind_of_ok (onDocument_of_ok rfl siteRoot_eq)] at after ⊢
  have orderly : Orderly host.registry { host with
      phase := .loading
      document? := some (startDocument host.registry host.designers host.options text)
      events := host.events ++ [.added (rootName host.registry) (pageType host.registry).name] } := by
    refine ⟨fun document same => ?_, rfl⟩
    rw [← Option.some.inj same]
    exact (Document.orderly_iff _).mp ((lasting_orderly regular).started _ _ _)
  obtain ⟨table, shown⟩ := shows_firstScan regular orderly rfl
    ⟨begun.replayed_eq, begun.table_eq, begun.waiting_eq⟩
  exact shown.calm after

/-! ## Operations that may ask for a refresh -/

/-- An orderly host in which everything was told, and at most one refresh waits. -/
structure Announced (registry : Registry) (host : Host) : Prop where
  orderly : host.Orderly registry
  told : host.Told
  few : host.waiting.length ≤ 1

theorem Calm.announced (calm : Calm registry host) : Announced registry host :=
  ⟨calm.orderly, calm.told, by rw [calm.waiting_eq]; exact Nat.zero_le 1⟩

/-- From a calm host, the action leaves at most one refresh behind. -/
def Announces (registry : Registry) (action : Action α) : Prop :=
  ∀ host, Calm registry host → Announced registry (leaves action host)

namespace Announces

theorem of_keeps {action : Action α} (keeps : Keeps (Calm registry) action) :
    Announces registry action :=
  fun host calm => (keeps host calm).announced

theorem follow {first : Action α} {next : α → Action β} (keeps : Keeps (Calm registry) first)
    (announces : ∀ result, Announces registry (next result)) :
    Announces registry (first >>= next) := fun _ calm =>
  keeps.follow (fun _ => Calm.announced) calm fun result middle => announces result middle

theorem seq {first : Action α} {next : α → Action β} (announces : Announces registry first)
    (keeps : ∀ result, Keeps (Announced registry) (next result)) :
    Announces registry (first >>= next) := by
  intro host calm
  have middle := announces host calm
  cases ran : first host with
  | ok result after =>
      rw [leaves_of_ok ran] at middle
      rw [leaves_bind_of_ok ran]
      exact keeps result after middle
  | error failure after =>
      rw [leaves_of_error ran] at middle
      rw [leaves_bind_of_error ran]
      exact middle

theorem discard {action : Action α} (announces : Announces registry action) :
    Announces registry (discard action : Action Unit) := by
  intro host calm
  have left := announces host calm
  unfold Functor.discard
  exact (announces.seq fun _ => .pure _) host calm

end Announces

theorem announces_askRefresh (refresh : Refresh) : Announces registry (askRefresh refresh) := by
  intro host calm
  refine ⟨keeps_askRefresh refresh host calm.orderly, ?_, ?_⟩
  · have told := calm.told
    unfold askRefresh leaves Told
    rw [modify_eq]
    dsimp only
    split <;> exact told
  · unfold askRefresh leaves
    rw [modify_eq]
    dsimp only
    split
    · rw [calm.waiting_eq]
      exact Nat.le_refl 1
    · rw [calm.waiting_eq]
      exact Nat.zero_le 1

theorem announces_commit (handle : Transaction) : Announces registry (commit handle) := by
  refine .follow (calm_of_keeps (keeps_closeTransaction handle true) fun _ =>
    shows_closeTransaction handle true) fun closed => .follow .get fun host => ?_
  split
  · exact (announces_askRefresh _).seq fun _ => .pure _
  · exact .of_keeps (.pure _)

theorem announces_withTransaction (description : Text) {work : Action α}
    (keeps : Keeps (Calm registry) work) :
    Announces registry (withTransaction description work) := by
  refine .follow (calm_of_keeps (keeps_openTransaction description) fun _ =>
    shows_openTransaction description) fun handle => .follow (keeps_attempt keeps) fun outcome => ?_
  split
  · exact (announces_commit handle).discard.seq fun _ => .pure _
  · exact .follow (calm_of_keeps (keeps_closeTransaction handle false) fun _ =>
      shows_closeTransaction handle false).discard fun _ => .of_keeps (.throw _)

theorem announces_create (regular : registry.Regular) (typeName : Text) (name? : Option Text) :
    Announces registry (create typeName name?) := by
  refine .follow (calm_settle regular) fun _ => .follow keeps_loaded.discard fun _ => ?_
  intro host calm
  rw [leaves_bind_of_ok (get_eq host)]
  split
  · exact calm.announced
  next controlType named =>
    have listed : controlType ∈ registry.all := by
      rw [← calm.orderly.registry_eq]
      exact List.mem_of_find?_eq_some named
    have created : Announces registry (withTransaction ("Create " ++ controlType.name)
        (addControl controlType name?)) :=
      announces_withTransaction _ (calm_addControl regular listed name?)
    split
    · exact Announces.follow (.throw _) (fun _ => created) host calm
    · exact created host calm

theorem announces_removeSelected (regular : registry.Regular) :
    Announces registry removeSelected :=
  .follow (calm_settle regular) fun _ => .follow keeps_loaded fun _ =>
    announces_withTransaction _ (calm_destroyEach regular _)

theorem announces_setProperty (regular : registry.Regular) (name property : Text)
    (value : Value) : Announces registry (setProperty name property value) :=
  .follow (calm_settle regular) fun _ => .follow keeps_loaded.discard fun _ =>
    announces_withTransaction _ (calm_of_shows
      (orderly_of_working fun _ => keeps_changeProperty regular name property value)
      fun _ orderly _ shown => shows_changeProperty orderly shown name property value)

theorem calm_propertyNamed (regular : registry.Regular) (name property : Text) :
    Keeps (Calm registry) (propertyNamed name property) := by
  refine (calm_settle regular).seq fun _ => (keeps_siteNamed name).seq fun site => ?_
  split
  · exact .pure _
  · exact .throw _

theorem announces_setPropertyText (regular : registry.Regular) (name property written : Text) :
    Announces registry (setPropertyText name property written) := by
  refine .follow (calm_propertyNamed regular name property) fun declared => ?_
  split
  · exact .of_keeps (.throw _)
  · exact announces_setProperty regular _ _ _

theorem announces_resetProperty (regular : registry.Regular) (name property : Text) :
    Announces registry (resetProperty name property) := by
  refine .follow (calm_propertyNamed regular name property) fun declared => ?_
  split
  · exact .of_keeps (.throw _)
  · exact announces_setProperty regular _ _ _

theorem announces_setHandler (regular : registry.Regular) (name event : Text)
    (handler? : Option Text) : Announces registry (setHandler name event handler?) :=
  .follow (calm_settle regular) fun _ => .follow keeps_loaded.discard fun _ =>
    announces_withTransaction _ (calm_of_shows
      (orderly_of_working fun _ => keeps_changeHandler regular name event handler?)
      fun _ orderly _ shown => shows_changeHandler orderly shown name event handler?)

theorem announces_rename (regular : registry.Regular) (name newName : Text) :
    Announces registry (rename name newName) :=
  .follow (calm_settle regular) fun _ => .follow keeps_loaded.discard fun _ =>
    announces_withTransaction _ (calm_changeName regular name newName)

theorem announces_component (regular : registry.Regular) (operation : ComponentOperation) :
    Announces registry operation.run := by
  cases operation with
  | create typeName name? => exact (announces_create regular typeName name?).discard
  | destroy name => exact .of_keeps (calm_destroy regular name)
  | set name property value => exact announces_setProperty regular name property value
  | setText name property written => exact announces_setPropertyText regular name property written
  | reset name property => exact announces_resetProperty regular name property
  | rename name newName => exact announces_rename regular name newName

theorem calm_edit (edit : Edit) : Keeps (Calm registry)
    (onDocument (modifyGet (·.edit edit)) : Action Bool) := by
  refine calm_of_keeps (keeps_edit edit) fun _ => shows_textual fun holds textual => ?_
  exact .modifyGet fun document held => textual.edited document edit held

theorem calm_markDirty : Keeps (Calm registry)
    (onDocument (modify fun document => { document with buffer := document.buffer.markDirty }) :
      Action Unit) :=
  calm_of_keeps keeps_markDirty fun _ => shows_onDocument fun _ => .modify fun _ same => same

theorem announces_replay (regular : registry.Regular) (edit : Edit) :
    Announces registry (replay edit) := by
  refine .follow (calm_settle regular) fun _ => .follow (calm_edit edit) fun done => ?_
  split
  · exact .follow calm_markDirty fun _ => (announces_askRefresh _).seq fun _ => .pure _
  · exact .of_keeps (.pure _)

theorem calm_phase (phase : Phase) :
    Keeps (Calm registry) (modify fun host => { host with phase } : Action Unit) :=
  calm_of_keeps (keeps_modify _ (fun _ => rfl) fun _ => rfl) fun _ =>
    .modify fun _ shown => ⟨shown.replayed_eq, shown.table_eq, shown.waiting_eq⟩

theorem announces_activate (regular : registry.Regular) : Announces registry activate := by
  have selected : ∀ root : Text, Announces registry (do
      onSurface (·.select [root] 0)
      modify fun host => { host with phase := .activated }
      tell [.activated]
      askRefresh .soft : Action Unit) := fun root =>
    .follow (calm_of_keeps (keeps_surface regular fun _ orderly => orderly.withSelection _)
      fun _ => shows_onSurface fun _ => rfl) fun _ =>
    .follow (calm_phase _) fun _ =>
    .follow (calm_of_keeps (keeps_telling _) fun _ => shows_tell (silent_singleton fun _ => rfl))
      fun _ => announces_askRefresh _
  refine .follow .get fun host => ?_
  split
  · refine .follow (.throw _) fun _ => .follow keeps_loaded fun document => ?_
    split
    · exact .of_keeps (.throw _)
    · exact selected _
  · refine .follow keeps_loaded fun document => ?_
    split
    · exact .of_keeps (.throw _)
    · exact selected _

theorem calm_deactivate (regular : registry.Regular) : Keeps (Calm registry) deactivate :=
  keeps_deactivating (calm_settle regular) (calm_phase _)
    (calm_of_keeps (keeps_telling _) fun _ => shows_tell (silent_singleton fun _ => rfl))

theorem calm_select (regular : registry.Regular) (names : List Text) (primary : Nat) :
    Keeps (Calm registry) (select names primary) :=
  calm_of_keeps (keeps_selecting regular names primary) fun _ => shows_select names primary

theorem calm_receive (regular : registry.Regular) (raw : Text) :
    Keeps (Calm registry) (receive raw) :=
  keeps_receiving (calm_settle regular) (calm_select regular) (fun _ _ _ =>
    calm_of_keeps (keeps_telling _) fun _ => shows_tell (silent_singleton fun _ => rfl)) raw

/-- Whether the host hears of what the operation does; a scan of the document goes past it. -/
def Operation.isHeard : Operation → Bool
  | scan _ => false
  | _ => true

/-- An operation of a host leaves at most one refresh behind, whether it fails or not. -/
theorem announces_operation (regular : registry.Regular) {operation : Operation}
    (heard : operation.isHeard = true) : Announces registry operation.run := by
  have orderly := keeps_operation regular operation
  cases operation with
  | component operation => exact announces_component regular operation
  | bind name event handler? => exact announces_setHandler regular name event handler?
  | removeSelected => exact (announces_removeSelected regular).discard
  | load text => exact .of_keeps (calm_load regular text).discard
  | loadFile content =>
      cases content with
      | ok text => exact .of_keeps (calm_load regular text).discard
      | error reason => exact .of_keeps (Keeps.throw _).discard
  | activate => exact announces_activate regular
  | deactivate => exact .of_keeps (calm_deactivate regular)
  | reset => exact .of_keeps (calm_reset regular)
  | askRefresh refresh => exact announces_askRefresh refresh
  | settle => exact .of_keeps (calm_settle regular)
  | serialize =>
      exact .of_keeps (calm_of_keeps (keeps_serialize regular) fun _ =>
        shows_settle.seq fun _ => shows_drawSurface).discard
  | openTransaction description =>
      exact .of_keeps (calm_of_keeps orderly fun _ => (shows_openTransaction description).discard)
  | commit handle => exact (announces_commit handle).discard
  | rollback handle =>
      exact .of_keeps (calm_of_keeps orderly fun _ => (shows_closeTransaction handle false).discard)
  | dropTransaction handle =>
      exact .of_keeps (calm_of_keeps orderly fun _ => shows_dropTransaction handle)
  | replay change => exact (announces_replay regular change).discard
  | select names primary => exact .of_keeps (calm_select regular names primary)
  | receive raw => exact .of_keeps (calm_receive regular raw).discard
  | edit change => exact .of_keeps (calm_edit change).discard
  | markDirty => exact .of_keeps calm_markDirty
  | parse =>
      exact .of_keeps (calm_of_keeps orderly fun _ =>
        (shows_textual fun _ textual => textual.keeps_parsed).discard)
  | draw => exact .of_keeps (calm_of_keeps orderly fun _ => shows_designHtml.discard)
  | scan mode => cases heard
  | reselect selection =>
      exact .of_keeps (calm_of_keeps orderly fun _ => shows_onSurface fun _ => rfl)
  | directives table =>
      have kept : ∀ sited, Keeps (fun document : Document => document.surface.container.table = sited)
          (modify fun document => { document with directives := table } :
            Document.Action Unit) := fun _ => .modify fun _ same => same
      exact .of_keeps (calm_of_keeps orderly fun _ => shows_onDocument kept)

/-! ## Settling -/

theorem Shows.told_iff (shown : Shows told sited host) : host.Told ↔ told = sited := by
  unfold Told
  rw [shown.replayed_eq, shown.table_eq]

theorem shows_draw : Keeps (Shows told sited) (discard drawSurface) := shows_drawSurface.discard

/-- Bringing the components in line fails behind passes that have changed them. -/
def stumbles (document : Document) : Bool :=
  failsWith (fun _ after => after.surface.container.table ≠ document.surface.container.table)
    Document.persist document

/-- A refresh waits that changes the components and tells nothing of it. -/
def hushes (host : Host) : Bool :=
  host.waiting.contains .hard && host.document?.any stumbles

/-- A hard refresh tells of the components unless its scan fails and has changed them. -/
theorem told_perform_hard (regular : registry.Regular) (orderly : host.Orderly registry)
    (shown : Shows sited sited host) :
    (leaves (perform .hard) host).Told ↔ host.document?.any stumbles = false := by
  unfold perform
  cases kept : host.document? with
  | none =>
      have refused : onDocument Document.persist host = .error .notLoaded host := by
        unfold onDocument
        rw [kept]
      rw [leaves_bind_of_ok (attempt_of_error refused)]
      exact iff_of_true ((shows_draw host shown).told_iff.mpr rfl) rfl
  | some document =>
  have same := shown.table_eq
  rw [table_of_kept kept] at same
  rw [Option.any_some]
  unfold stumbles failsWith
  cases ran : Document.persist document with
  | ok report after =>
      have orderly' := orderly.document document kept
      have valid : ∀ controlType ∈ document.registry.all, Naming.isValid controlType.name = true := by
        rw [orderly'.registry_eq]
        exact fun controlType listed => (regular controlType listed).named
      obtain ⟨table, -⟩ := Document.accounts_of_scan orderly'.sound valid ran
      have told := (shown.withDocument after).telling (report.removed.map .removed ++
        report.created.map fun entry => .added entry.1 entry.2)
      rw [List.foldl_append, recorded_removed, recorded_added, table, same] at told
      rw [leaves_bind_of_ok (attempt_of_ok (onDocument_of_ok kept ran))]
      exact iff_of_true ((shows_draw _ told).told_iff.mpr rfl) rfl
  | error failure after =>
      rw [leaves_bind_of_ok (attempt_of_error (onDocument_of_error kept ran))]
      have told := (shows_draw _ (shown.withDocument after)).told_iff
      rw [same]
      dsimp only
      rw [decide_eq_false_iff_not, not_not, eq_comm]
      exact told

/-- Settling at most one refresh tells of the components unless it is hushed. -/
theorem told_settled_iff (regular : registry.Regular) (announced : Announced registry host) :
    host.settled.Told ↔ host.hushes = false := by
  have few := announced.few
  unfold hushes
  cases waits : host.waiting with
  | nil =>
      rw [settled_of_waiting waits]
      exact iff_of_true announced.told rfl
  | cons refresh rest =>
  rw [waits, List.length_cons] at few
  obtain rfl : rest = [] := List.eq_nil_of_length_eq_zero (by omega)
  rw [settled_of_single waits]
  have shown : Shows host.table host.table { host with waiting := [] } :=
    ⟨announced.told, rfl, rfl⟩
  cases refresh with
  | soft => exact iff_of_true ((shows_draw _ shown).told_iff.mpr rfl) rfl
  | hard =>
      exact told_perform_hard regular ⟨announced.orderly.document, announced.orderly.registry_eq⟩
        shown

/-! ## Runs -/

/-- Run operations one after the other, failing or not, and settle after each of them. -/
def runSettled (operations : List Operation) (host : Host) : Host :=
  operations.foldl (fun host operation => (leaves operation.run host).settled) host

theorem runSettled_snoc (former : List Operation) (operation : Operation) (host : Host) :
    runSettled (former ++ [operation]) host =
      (leaves operation.run (runSettled former host)).settled := by
  unfold runSettled
  rw [List.foldl_append]
  rfl

/-- What settles after each operation is orderly, and nothing waits. -/
theorem orderly_runSettled (regular : registry.Regular) (designers : DesignerRegistry)
    (options : Options) (operations : List Operation) :
    (runSettled operations (new registry designers options)).Orderly registry ∧
      (runSettled operations (new registry designers options)).waiting = [] := by
  induction operations using List.reverseRecOn with
  | nil => exact ⟨⟨fun _ kept => (nomatch kept), rfl⟩, rfl⟩
  | append_singleton former operation ih =>
      rw [runSettled_snoc]
      exact ⟨keeps_settle regular _ (keeps_operation regular operation _ ih.1), waiting_settled _⟩

/-- One operation from a calm host, settled, tells of the components unless it is hushed. -/
theorem Calm.told_iff (calm : Calm registry host) (regular : registry.Regular)
    {operation : Operation} (heard : operation.isHeard = true) :
    (leaves operation.run host).settled.Told ↔ (leaves operation.run host).hushes = false :=
  told_settled_iff regular (announces_operation regular heard host calm)

/--
Whatever is asked of a new host, settled after each operation, the events replay to the
names and types of the components that are sited, after every operation, failing or not, if
and only if no refresh was settled that has changed components behind a scan that fails.
-/
theorem told_iff_of_run (regular : registry.Regular) {designers : DesignerRegistry}
    {options : Options} {operations : List Operation}
    (heard : ∀ operation ∈ operations, operation.isHeard = true) :
    (∀ former latter, operations = former ++ latter →
        (runSettled former (new registry designers options)).Told) ↔
      ∀ former operation latter, operations = former ++ operation :: latter →
        (leaves operation.run (runSettled former (new registry designers options))).hushes =
          false := by
  have calm : ∀ former, (runSettled former (new registry designers options)).Told →
      Calm registry (runSettled former (new registry designers options)) := fun former told =>
    have orderly := orderly_runSettled regular designers options former
    ⟨orderly.1, told, orderly.2⟩
  constructor
  · intro told former operation latter same
    have heard' := heard operation (same ▸ List.mem_append_right _ List.mem_cons_self)
    refine ((calm former (told former _ same)).told_iff regular heard').mp ?_
    rw [← runSettled_snoc]
    exact told _ latter (by rw [same, List.append_assoc]; rfl)
  · intro heeded former
    -- The events replay after the operations before, so one more operation is all there is to it.
    induction former using List.reverseRecOn with
    | nil => exact fun _ _ => rfl
    | append_singleton former operation ih =>
        intro latter same
        rw [List.append_assoc, List.singleton_append] at same
        have heard' := heard operation (same ▸ List.mem_append_right _ List.mem_cons_self)
        rw [runSettled_snoc]
        exact ((calm former (ih _ same)).told_iff regular heard').mpr
          (heeded former operation latter same)

/-- A page is loaded, and its text replaced by one with two labels, of which one has no id. -/
def twoLabels : List Operation :=
  [.load "<p></p>", .edit (.replaceAll "<asp:Label id=\"X\" runat=\"server\"/><asp:Label/>")]

/-- A scan of one pass creates the first label and fails at the second one, untold. -/
theorem told_iff_of_run_twoLabels :
    Registry.standard.Regular ∧
      (∀ operation ∈ twoLabels ++ [.askRefresh .hard], operation.isHeard = true) ∧
      ¬ ∀ former latter, twoLabels ++ [.askRefresh .hard] = former ++ latter →
        (runSettled former (new .standard .standard (Options.standard.withScanPasses 1))).Told := by
  have regular : Registry.standard.Regular := by decide
  have heard : ∀ operation ∈ twoLabels ++ [.askRefresh .hard], operation.isHeard = true :=
    List.all_eq_true.mp rfl
  have hushed : (leaves (Operation.askRefresh .hard).run (runSettled twoLabels
      (new .standard .standard (Options.standard.withScanPasses 1)))).hushes = true := by
    decide +kernel
  refine ⟨regular, heard, fun told => Bool.false_ne_true ?_⟩
  have heeded := (told_iff_of_run regular heard).mp told twoLabels (.askRefresh .hard) [] rfl
  exact heeded.symm.trans hushed

end PageDesigner.Host
