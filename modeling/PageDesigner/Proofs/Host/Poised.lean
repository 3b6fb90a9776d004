import PageDesigner.Proofs.Host.Steady
import PageDesigner.Proofs.Host.Succeeding

/-!
# The phases of a host

A host is idle just as long as it holds no document, and no refresh waits then
(`Host.Poised`).  A load that fails lets go of its document again, an activation needs one, and
every other operation leaves the phase alone, so this holds behind every run of operations
(`Host.poised_of_reaches`).
-/

namespace PageDesigner.Host

/-- What a host was made with, and the phase that it is in: it is idle just as long as it holds no
document, no refresh waits then, and a document is sound. -/
structure Poised (registry : Registry) (designers : DesignerRegistry) (options : Options)
    (host : Host) : Prop where
  registry_eq : host.registry = registry
  designers_eq : host.designers = designers
  options_eq : host.options = options
  idle_iff : host.phase = .idle ↔ host.document? = none
  waiting_eq : host.document? = none → host.waiting = []
  sound : ∀ document, host.document? = some document → document.Sound

namespace Poised

variable {registry : Registry} {designers : DesignerRegistry} {options : Options} {host : Host}
  {α : Type}

theorem aloof : Aloof (Poised registry designers options) where
  of_eq poised same := by
    rw [same]
    exact ⟨poised.registry_eq, poised.designers_eq, poised.options_eq, poised.idle_iff,
      poised.waiting_eq, poised.sound⟩

/-- A host with a document may be in any other phase, with any refreshes waiting. -/
theorem of_some (poised : Poised registry designers options host) {document : Document}
    (sound : document.Sound) (phase : Phase) (busy : phase ≠ .idle) (waiting : List Refresh) :
    Poised registry designers options
      { host with document? := some document, phase, waiting } where
  registry_eq := poised.registry_eq
  designers_eq := poised.designers_eq
  options_eq := poised.options_eq
  idle_iff := iff_of_false busy (Option.some_ne_none document)
  waiting_eq := fun none' => nomatch none'
  sound := fun _ kept => Option.some.inj kept ▸ sound

theorem busy_of_some (poised : Poised registry designers options host) {document : Document}
    (kept : host.document? = some document) : host.phase ≠ .idle := by
  intro idle
  rw [poised.idle_iff.mp idle] at kept
  cases kept

theorem apart : Apart (Poised registry designers options) where
  withDocument {host _ _} poised kept keeps :=
    poised.of_some (keeps (poised.sound _ kept)) host.phase (poised.busy_of_some kept) host.waiting

theorem keeps_askRefresh (refresh : Refresh) :
    Keeps (Poised registry designers options) (askRefresh refresh) := by
  refine .modify fun host poised => ?_
  split
  · next some' =>
      obtain ⟨document, kept⟩ := Option.isSome_iff_exists.mp some'
      have asked := poised.of_some (poised.sound _ kept) host.phase (poised.busy_of_some kept)
        (host.waiting ++ [refresh])
      rw [← kept] at asked
      exact asked
  · exact poised

/-! ## Refreshes -/

theorem keeps_drawSurface : Keeps (Poised registry designers options) drawSurface :=
  keeps_drawing (apart.keeps_onDocument Document.keeps_sound_designHtml) fun _ =>
    aloof.keeps_tell _

theorem keeps_settle : Keeps (Poised registry designers options) settle := by
  have emptied : Keeps (Poised registry designers options)
      (modify fun host => { host with waiting := [] } : Action Unit) :=
    .modify fun host poised => ⟨poised.registry_eq, poised.designers_eq, poised.options_eq,
      poised.idle_iff, fun _ => rfl, poised.sound⟩
  exact keeps_settling emptied (keeps_performing keeps_drawSurface
    (apart.keeps_onDocument (Document.keeps_sound_scan .persist)) fun _ => aloof.keeps_tell _)

theorem steady : Steady (Poised registry designers options) where
  toApart := apart
  telling poised _ := aloof.of_eq poised rfl
  settle := keeps_settle

/-- Settling succeeds, since refreshes only wait as long as there is a document. -/
theorem settle_eq (poised : Poised registry designers options host) :
    settle host = .ok () host.settled := by
  cases kept : host.document? with
  | none =>
      have waiting := poised.waiting_eq kept
      rw [settled_of_waiting waiting]
      exact settle_of_waiting waiting
  | some document =>
      obtain ⟨events, done⟩ := Host.settle_eq kept
      unfold settled
      rw [leaves_of_ok done]
      exact done

/-! ## From loading to reset -/

/-- A reset settles the host, tells that every component is gone and lets go of the document. -/
theorem reset_eq (poised : Poised registry designers options host) :
    reset host = .ok () { host.settled with
      document? := none
      phase := .idle
      events := host.settled.events ++
        ((host.settled.document?.map (·.surface.clear.1)).getD []).map .removed } := by
  have again := reset_of_waiting (waiting_settled host)
  unfold reset at again ⊢
  rw [bind_of_ok (settle_settled host)] at again
  rw [bind_of_ok poised.settle_eq]
  exact again

theorem keeps_reset : Keeps (Poised registry designers options) reset := by
  intro host poised
  have settled : Poised registry designers options host.settled := keeps_settle host poised
  rw [leaves_of_ok poised.reset_eq]
  exact ⟨settled.registry_eq, settled.designers_eq, settled.options_eq, iff_of_true rfl rfl,
    fun _ => waiting_settled host, fun _ kept => nomatch kept⟩

end Poised

theorem tell_eq (events : List HostEvent) (host : Host) :
    tell events host = .ok () { host with events := host.events ++ events } := rfl

/-- Loading into an idle host is the first scan behind the siting of the root page.  When the scan
fails, nothing is left but what was told. -/
theorem load_of_idle {host : Host} (idle : host.phase = .idle) (bare : host.document? = none)
    (waiting : host.waiting = []) (text : Text) :
    load text host =
      match Document.createControls
          (startDocument host.registry host.designers host.options text) with
      | .ok report document => .ok report { host with
          phase := .loaded
          document? := some document
          events := host.events ++ ([.added (rootName host.registry) (pageType host.registry).name] ++
            (report.created.map (fun entry => .added entry.1 entry.2) ++
              [.loadComplete (report.created.length + 1) report.issues.length])) }
      | .error failure document => .error failure { host with
          events := host.events ++ ([.added (rootName host.registry) (pageType host.registry).name] ++
            document.surface.clear.1.map .removed) } := by
  obtain ⟨registry, designers, options, phase, document?, transactions, refreshes, events⟩ := host
  dsimp only at idle bare waiting
  subst idle bare waiting
  have begins : onDocument (Document.siteRoot (pageType registry))
      ⟨registry, designers, options, .loading, some (.ofText registry designers options text),
        transactions, [], events⟩ = .ok (rootName registry)
      ⟨registry, designers, options, .loading, some (startDocument registry designers options text),
        transactions, [], events⟩ :=
    onDocument_of_ok rfl siteRoot_eq
  unfold load
  rw [bind_of_ok (get_eq _), if_neg (by simp)]
  dsimp only
  rw [bind_of_ok (set_eq _ _), bind_of_ok begins, bind_of_ok (tell_eq _ _)]
  cases created : Document.createControls (startDocument registry designers options text) with
  | ok report document =>
      rw [bind_of_ok (attempt_of_ok (onDocument_of_ok rfl created))]
      refine congrArg (EStateM.Result.ok report) ?_
      simp
  | error failure document =>
      rw [bind_of_ok (attempt_of_error (onDocument_of_error rfl created))]
      dsimp only
      rw [bind_of_ok (reset_of_waiting rfl)]
      refine congrArg (EStateM.Result.error failure) ?_
      simp

/-- A host that is not idle refuses to load. -/
theorem load_of_busy {host : Host} (busy : host.phase ≠ .idle) (text : Text) :
    load text host = .error .hostNotReset host := by
  unfold load
  rw [bind_of_ok (get_eq host), if_pos (by rw [decide_eq_true busy, Bool.true_or])]
  rfl

namespace Poised

variable {registry : Registry} {designers : DesignerRegistry} {options : Options} {host : Host}
  {α : Type}

theorem load_eq (poised : Poised registry designers options host) (idle : host.phase = .idle)
    (text : Text) : load text host =
      match Document.createControls (startDocument registry designers options text) with
      | .ok report document => .ok report { host with
          phase := .loaded
          document? := some document
          events := host.events ++ ([.added (rootName registry) (pageType registry).name] ++
            (report.created.map (fun entry => .added entry.1 entry.2) ++
              [.loadComplete (report.created.length + 1) report.issues.length])) }
      | .error failure document => .error failure { host with
          events := host.events ++ ([.added (rootName registry) (pageType registry).name] ++
            document.surface.clear.1.map .removed) } := by
  obtain ⟨rfl, rfl, rfl, idle_iff, waiting_eq, -⟩ := poised
  have bare := idle_iff.mp idle
  exact load_of_idle idle bare (waiting_eq bare) text

theorem keeps_load (text : Text) : Keeps (Poised registry designers options) (load text) := by
  intro host poised
  by_cases idle : host.phase = .idle
  · have sound := Document.keeps_sound_scan .initial _
      (sound_startDocument registry designers options text)
    have loads := poised.load_eq idle text
    cases created : Document.createControls (startDocument registry designers options text) with
    | ok report document =>
        rw [created] at loads
        rw [leaves_of_ok loads]
        have scanned : document.Sound := leaves_of_ok created ▸ sound
        exact aloof.of_eq (poised.of_some scanned .loaded Phase.noConfusion host.waiting) rfl
    | error failure document =>
        rw [created] at loads
        rw [leaves_of_error loads]
        exact aloof.of_eq poised rfl
  · rw [leaves_of_error (load_of_busy idle text)]
    exact poised

theorem keeps_activate : Keeps (Poised registry designers options) activate := by
  refine Keeps.get.seq fun _ => ?_
  split
  · exact .throw _
  refine keeps_loaded_bind fun host document poised kept => ?_
  split
  · exact poised
  next root _ =>
    have activated : Poised registry designers options { host with
        phase := .activated
        document? := host.document?.map (·.onSurface (·.select [root] 0)) } := by
      have sound := poised.sound _ kept
      have selected : (document.onSurface (·.select [root] 0)).Sound :=
        sound.withSurface sound.distinct
      rw [kept, Option.map_some]
      exact poised.of_some selected .activated Phase.noConfusion host.waiting
    exact ((aloof.keeps_tell [.activated]).seq fun _ => keeps_askRefresh .soft) _ activated

/-- Only a surface that is shown is hidden, and it has a document. -/
theorem keeps_deactivate : Keeps (Poised registry designers options) deactivate := by
  refine Keeps.get.bind fun host found middle poised ran _ => ?_
  obtain ⟨rfl, rfl⟩ := EStateM.Result.ok.inj ran
  split
  · next shown =>
    have settled : Poised registry designers options host.settled := keeps_settle host poised
    obtain ⟨document, kept⟩ : ∃ document, host.settled.document? = some document := by
      rw [← Option.ne_none_iff_exists']
      intro none'
      have idle := settled.idle_iff.mpr none'
      rw [phase_settled, shown] at idle
      cases idle
    have hidden := settled.of_some (settled.sound _ kept) .deactivated
      Phase.noConfusion host.settled.waiting
    rw [← kept] at hidden
    rw [leaves_bind_of_ok poised.settle_eq]
    exact aloof.keeps_tell [.deactivated] _ hidden
  · exact poised

/-! ## Operations -/

theorem enclosing : Enclosing fun _ : Unit => Poised registry designers options where
  steady _ := steady
  withTransaction description keeps _ :=
    aloof.keeps_withTransaction (keeps_askRefresh .soft) description (keeps ())

theorem keeps_edit (change : Edit) : Keeps (Poised registry designers options)
    (onDocument (modifyGet (·.edit change)) : Action Bool) :=
  apart.keeps_onDocument (.modifyGet fun _ sound => sound.edited change)

theorem keeps_markDirty : Keeps (Poised registry designers options)
    (onDocument (modify fun document => { document with buffer := document.buffer.markDirty }) :
      Action Unit) :=
  apart.keeps_onDocument (.modify fun _ sound => Document.Step.staled.sound sound)

theorem keeps_replay (change : Edit) :
    Keeps (Poised registry designers options) (replay change) :=
  keeps_replaying keeps_settle (keeps_edit change) keeps_markDirty (keeps_askRefresh .hard)

theorem keeps_receive (raw : Text) : Keeps (Poised registry designers options) (receive raw) :=
  keeps_receiving keeps_settle steady.keeps_select (fun _ _ _ => aloof.keeps_tell _) raw

/-- Whatever is asked of a host, its phase tells whether it holds a document. -/
theorem keeps_operation (operation : Operation) :
    Keeps (Poised registry designers options) operation.run := by
  cases operation with
  | component operation => exact enclosing.keeps_component () operation
  | bind name event handler? => exact enclosing.keeps_setHandler () name event handler?
  | removeSelected => exact (enclosing.keeps_removeSelected ()).discard
  | load text => exact (keeps_load text).discard
  | loadFile content =>
      cases content with
      | ok text => exact (keeps_load text).discard
      | error reason => exact Keeps.discard (.throw _)
  | activate => exact keeps_activate
  | deactivate => exact keeps_deactivate
  | reset => exact keeps_reset
  | askRefresh refresh => exact keeps_askRefresh refresh
  | settle => exact keeps_settle
  | serialize => exact (keeps_settle.seq fun _ => keeps_drawSurface).discard
  | openTransaction description => exact (aloof.keeps_openTransaction description).discard
  | commit handle => exact (aloof.keeps_commit (keeps_askRefresh .soft) handle).discard
  | rollback handle => exact (aloof.keeps_closeTransaction handle false).discard
  | dropTransaction handle => exact aloof.keeps_dropTransaction handle
  | replay change => exact (keeps_replay change).discard
  | select names primary => exact steady.keeps_select names primary
  | receive raw => exact (keeps_receive raw).discard
  | edit change => exact (keeps_edit change).discard
  | markDirty => exact keeps_markDirty
  | parse => exact (apart.keeps_onDocument Document.textual_sound.keeps_parsed).discard
  | draw => exact (apart.keeps_onDocument Document.keeps_sound_designHtml).discard
  | scan mode => exact (apart.keeps_onDocument (Document.keeps_sound_scan mode)).discard
  | reselect selection => exact apart.keeps_onSurface fun _ => id
  | directives table =>
      have kept : Keeps Document.Sound
          (modify fun document => { document with directives := table } : Document.Action Unit) :=
        .modify fun _ sound => ⟨sound.distinct, sound.coherent⟩
      exact apart.keeps_onDocument kept

end Poised

/-- Whatever is asked of a new host, its phase tells whether it holds a document. -/
theorem poised_of_reaches {registry : Registry} {designers : DesignerRegistry} {options : Options}
    {host : Host} (reaches : Reaches registry designers options host) :
    Poised registry designers options host := by
  induction reaches with
  | refl => exact ⟨rfl, rfl, rfl, iff_of_true rfl rfl, fun _ => rfl, fun _ kept => nomatch kept⟩
  | tail _ step ih =>
      obtain ⟨operation, rfl⟩ := step
      exact Poised.keeps_operation operation _ ih

end PageDesigner.Host
