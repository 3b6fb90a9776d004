import PageDesigner.Proofs.Document.Splicing
import PageDesigner.Proofs.Host.Succeeding

/-!
# Creating a control

A control that is created gets a tag in the text.  The tag stands for the control: the text
loads again, no id has to be written, and the components are those there were and the new
one, in the order of their tags (`load_of_create`).
-/

namespace PageDesigner.Host

variable {registry : Registry} {host after : Host}

/-! ## The tag of a new control -/

/-- What the tag of a new control states. -/
theorem states_initialized {controlType : ControlType}
    (listed : controlType ∈ Registry.standard.all) (notPage : controlType.kind ≠ .page)
    {component : Component} (new : (Component.fresh controlType).initialized = component)
    (type : component.controlType = controlType) {site : Text}
    (valid : Naming.isValid site = true) :
    component.controlType.isWritable = true ∧
      isControlSaid (component.said site) = true ∧
      Registry.standard.states? (component.said site) =
        some (site, component.controlType, component.values, component.handlers) := by
  rcases standard_said controlType listed with page | ⟨writable, resolved, foreign, taken⟩
  · exact absurd page notPage
  rw [new, ← type] at taken
  rw [← type] at writable resolved foreign
  have id : Entry.id? (component.said site).2 = some site := by
    cases site with
    | nil => cases valid
    | cons char rest => rfl
  refine ⟨writable, ?_, ?_⟩
  · have serves : Entry.runsAtServer (component.said site).2 = true := rfl
    unfold isControlSaid
    rw [serves, Bool.or_true, Bool.and_true]
    exact congrArg (!·) foreign
  · have taking : (Component.fresh component.controlType).taking (component.said site).2 =
        component :=
      ((Component.fresh component.controlType).taking_control site _).trans taken
    unfold Registry.states?
    rw [id]
    have resolved' : Registry.standard.resolve? (component.said site).1 =
        some component.controlType := resolved
    rw [resolved']
    dsimp only
    rw [taking]

/-! ## What creating does -/

/-- A control that is added is sited, and its tag inserted. -/
theorem addControl_ok (orderly : host.Orderly registry) {controlType : ControlType}
    (regular : controlType.Regular) {name? : Option Text} {name : Text}
    (done : addControl controlType name? host = .ok name after) :
    ∃ document document' location selection, host.document? = some document ∧
      document.surface.container.site? name = none ∧ Naming.isValid name = true ∧
      Document.insertTag ((Component.fresh controlType).initialized.markup name)
        { document with surface := sitedNew document.surface controlType name } =
          .ok location document' ∧
      after.document? =
        some { document' with surface := { document'.surface with selection } } := by
  unfold addControl at done
  rcases siteNew_cases orderly regular name? with
    ⟨failure, refused⟩ | ⟨document, name', kept, free, valid, sites⟩
  · obtain ⟨_, _, ran, _⟩ := ok_of_bind done
    rw [refused] at ran
    cases ran
  · rw [bind_of_ok sites] at done
    rcases ok_of_attempt done with ⟨location, middle, ran, ends⟩ | ⟨cause, middle, _, ends⟩
    · obtain ⟨document', inserts, rfl⟩ := onDocument_ok rfl ran
      obtain ⟨rfl, rfl⟩ := EStateM.Result.ok.inj ends
      exact ⟨document, document', location, _, kept, free, valid, inserts, rfl⟩
    · obtain ⟨_, _, _, ends⟩ := ok_of_bind ends
      cases ends

/-- Creating a control is adding it, in a transaction, to a host that has been settled. -/
theorem create_ok (orderly : host.settled.Orderly registry) (regular : registry.Regular)
    {typeName name : Text} {name? : Option Text}
    (done : create typeName name? host = .ok name after) :
    ∃ controlType middle, registry.named? typeName = some controlType ∧
      controlType.kind ≠ .page ∧
      addControl controlType name? (host.settled.opened ("Create " ++ controlType.name)) =
        .ok name middle ∧ after.document? = middle.document? := by
  have ends := ok_of_settle done
  obtain ⟨_, middle, ran, ends⟩ := ok_of_bind ends
  obtain ⟨_, ran⟩ := ok_of_discard ran
  have unchanged : Keeps (· = host.settled) loaded := keeps_loaded
  obtain rfl := unchanged.ok rfl ran
  obtain ⟨_, _, got, ends⟩ := ok_of_bind ends
  obtain ⟨rfl, rfl⟩ := EStateM.Result.ok.inj got
  rw [orderly.registry_eq] at ends
  cases named : registry.named? typeName with
  | none => rw [named] at ends; cases ends
  | some controlType =>
      rw [named] at ends
      dsimp only at ends
      split at ends
      · obtain ⟨_, _, refused, _⟩ := ok_of_bind ends
        cases refused
      · next notPage =>
          have listed : controlType ∈ registry.all := List.mem_of_find?_eq_some named
          obtain ⟨middle, ran, document⟩ := withTransaction_ok
            (fun _ => keeps_addControl regular listed name?) orderly ends
          exact ⟨controlType, middle, rfl, notPage, ran, document⟩

/-- Siting a new control adds what it states. -/
theorem stated_sitedNew {surface : Surface} (orderly : surface.Orderly) {name : Text}
    (free : surface.container.site? name = none) (controlType : ControlType) :
    (sitedNew surface controlType name).stated =
      surface.stated ++ [Site.stated ⟨name, (Component.fresh controlType).initialized⟩] := by
  have relisted : ∀ site : Site,
      (surface.relisted (· ++ [name]) site).stated = site.stated := by
    intro site
    unfold Surface.relisted
    split <;> rfl
  unfold sitedNew Surface.stated
  dsimp only
  rw [orderly.arranged.update_place free, List.map_append, List.map_map]
  exact congrArg (· ++ _) (List.map_congr_left fun site _ => relisted site)

/-! ## Loading what creating leaves -/

theorem regular_standard : Registry.standard.Regular := by decide

/-- A document in which a new control of a standard type was sited, and its tag inserted. -/
structure Creates (before : Document) (controlType : ControlType) (name : Text)
    (after : Document) : Prop where
  listed : controlType ∈ Registry.standard.all
  notPage : controlType.kind ≠ .page
  valid : Naming.isValid name = true
  free : before.surface.container.site? name = none
  inserts : ∃ location document selection,
    Document.insertTag ((Component.fresh controlType).initialized.markup name)
      { before with surface := sitedNew before.surface controlType name } =
        .ok location document ∧
      after = { document with surface := { document.surface with selection } }

/-- Creating a control in a host that has nothing to settle. -/
theorem creates_of_create (orderly : host.Orderly .standard) (waiting : host.waiting = [])
    {typeName name : Text} {name? : Option Text} {created : Host}
    (made : create typeName name? host = .ok name created) :
    ∃ before after controlType, host.document? = some before ∧
      created.document? = some after ∧ Registry.standard.named? typeName = some controlType ∧
      Creates before controlType name after := by
  have same := settled_of_waiting waiting
  obtain ⟨controlType, middle, named, notPage, adds, left⟩ :=
    create_ok (by rw [same]; exact orderly) regular_standard made
  rw [same] at adds
  have listed : controlType ∈ Registry.standard.all := List.mem_of_find?_eq_some named
  have opened : (host.opened ("Create " ++ controlType.name)).Orderly .standard :=
    ⟨orderly.document, orderly.registry_eq⟩
  obtain ⟨before, document, location, selection, kept, free, valid, inserts, left'⟩ :=
    addControl_ok opened (regular_standard controlType listed) adds
  exact ⟨before, _, controlType, kept, left.trans left', named, listed, notPage, valid, free,
    location, document, selection, inserts, rfl⟩

/-- The tag of a control that was created is the only one that says something new: the other tags
have their ids, and state what they stated. -/
theorem Creates.stated {base : Surface} {before after : Document} {controlType : ControlType}
    {name : Text} (creates : Creates before controlType name after)
    (scanned : Document.Scanned base before) (registry_eq : before.registry = .standard)
    (orderly : before.surface.Orderly) :
    ScanPass.Claimable .standard base [] (Tree.parse after.text).controls ∧
      ∃ (values : Table Value) (handlers : Table Text) (former latter : List Stated),
        before.surface.stated = former ++ latter ∧
        after.surface.stated = former ++ latter ++ [(name, controlType, values, handlers)] ∧
        (base.populate .standard (Tree.parse after.text).controls).stated =
          former ++ (name, controlType, values, handlers) :: latter := by
  obtain ⟨listed, notPage, valid, free, location, document, selection, inserts, rfl⟩ := creates
  obtain ⟨front, rest, early, shape, begins, text, surface⟩ := @Document.insertTag_inv
    { before with surface := sitedNew before.surface controlType name } _ _ _
    (scanned.sound.withSurface (holds_sitedNew (Surface.durable_orderly regular_standard) orderly
      listed free valid).distinct) inserts
  have type : (Component.fresh controlType).initialized.controlType = controlType :=
    (Component.alters_initialized _).frame.1
  obtain ⟨writable, control, states⟩ := states_initialized listed notPage rfl type valid
  have notRoot : base.isRoot name = false := by
    have apart := orderly.isRoot_of_free free
    unfold Surface.isRoot at apart ⊢
    rw [scanned.surface_eq, Surface.root?_populate] at apart
    exact apart
  obtain ⟨claimable, former, latter, stated, again⟩ := scanned.spliced registry_eq writable control
    states valid free notRoot shape begins.settled text
  have sited := stated_sitedNew orderly free controlType
  unfold Site.stated at sited
  dsimp only at sited
  rw [type] at sited again
  refine ⟨claimable, _, _, former, latter, stated, ?_, again⟩
  rw [← stated, ← sited]
  exact (congrArg Surface.stated surface :)

/--
Creating a control survives a reload.  A control of a standard type is created in a host
that has just loaded any text.  The text that is left loads again without an id written, and
gives the components that there were with the new one among them: each has the name, the
type, the values and the handlers that it has in the host.
-/
theorem load_of_create {designers : DesignerRegistry} {options : Options} {text : Text}
    {report : ScanReport} {host created : Host} {typeName name : Text} {name? : Option Text}
    (loaded : load text (new .standard designers options) = .ok report host)
    (made : create typeName name? host = .ok name created) :
    ∃ (before after reloaded : Document) (report' : ScanReport) (host' : Host)
      (controlType : ControlType) (values : Table Value) (handlers : Table Text)
      (former latter : List Stated),
      host.document? = some before ∧ created.document? = some after ∧
      Registry.standard.named? typeName = some controlType ∧
      load after.text (new .standard designers options) = .ok report' host' ∧
      report'.ids = [] ∧ host'.document? = some reloaded ∧
      before.surface.stated = former ++ latter ∧
      after.surface.stated = former ++ latter ++ [(name, controlType, values, handlers)] ∧
      reloaded.surface.stated = former ++ (name, controlType, values, handlers) :: latter := by
  have orderly : host.Orderly .standard :=
    orderly_of_reaches regular_standard
      (.single ⟨.load text, (leaves_of_ok (discard_of_ok loaded)).symm⟩)
  obtain ⟨before, scans, kept⟩ := created_of_load loaded
  have waiting : host.waiting = [] := by
    rw [load_eq, scans] at loaded
    obtain ⟨-, rfl⟩ := EStateM.Result.ok.inj loaded
    rfl
  obtain ⟨before', after, controlType, kept', left, named, creates⟩ :=
    creates_of_create orderly waiting made
  rw [kept] at kept'
  obtain rfl := Option.some.inj kept'
  obtain ⟨scanned, registry_eq, allowed⟩ := Document.scanned_of_createControls
    (sound_startDocument .standard designers options text) (bare_rootSurface .standard) scans
  obtain ⟨claimable, values, handlers, former, latter, stated, stated', again⟩ :=
    creates.stated scanned registry_eq (orderly.document before kept).surface
  obtain ⟨report', reloaded, scans', scanned', text_eq, registry_eq', _, ids⟩ :=
    Document.createControls_of_claimable
      (sound_startDocument .standard designers options after.text) (bare_rootSurface .standard)
      allowed claimable
  obtain ⟨host', loads, kept''⟩ := load_of_ok scans'
  refine ⟨before, after, reloaded, report', host', controlType, values, handlers, former, latter,
    kept, left, named, loads, ids, kept'', stated, stated', ?_⟩
  rw [scanned'.surface_eq, registry_eq', text_eq]
  exact again

/-- The hypotheses hold of a button that is created in a form. -/
theorem load_of_create_button :
    ∃ report host created, load "<form runat=\"server\"><asp:Label></form>"
        (new .standard .standard .standard) = .ok report host ∧
      create "button" none host = .ok "Button1" created ∧
      ∃ (before after reloaded : Document) (report' : ScanReport) (host' : Host)
        (controlType : ControlType) (values : Table Value) (handlers : Table Text)
        (former latter : List Stated),
        host.document? = some before ∧ created.document? = some after ∧
        Registry.standard.named? "button" = some controlType ∧
        load after.text (new .standard .standard .standard) = .ok report' host' ∧
        report'.ids = [] ∧ host'.document? = some reloaded ∧
        before.surface.stated = former ++ latter ∧
        after.surface.stated =
          former ++ latter ++ [(("Button1" : Text), controlType, values, handlers)] ∧
        reloaded.surface.stated =
          former ++ (("Button1" : Text), controlType, values, handlers) :: latter := by
  have runs : succeedsWith (fun _ host =>
      succeedsWith (fun name _ => name == ("Button1" : Text)) (create "button" none) host)
      (load "<form runat=\"server\"><asp:Label></form>") (new .standard .standard .standard) =
        true := by decide +kernel
  obtain ⟨report, host, loaded, creates⟩ := exists_of_succeedsWith runs
  obtain ⟨name, created, made, named⟩ := exists_of_succeedsWith creates
  obtain rfl := eq_of_beq named
  exact ⟨report, host, created, loaded, made, load_of_create loaded made⟩

end PageDesigner.Host
