import PageDesigner.Proofs.Host.Failing

/-!
# Operations on components that fail

Every operation does the refreshes that wait first.  What an operation on a component that
fails leaves behind resembles the host settled in this way: the text with its history, the
names, the types, the values, the handlers, the list of controls, the selection and the
open transactions are the same (`resembles_of_error`).
-/

namespace PageDesigner.Host

variable {registry : Registry} {host after : Host} {failure : DesignError}

/-! ## Settling first -/

/-- The host once the refreshes that wait are done. -/
def settled (host : Host) : Host := leaves settle host

theorem beside_onDocument {base : Host} {α : Type} (action : Document.Action α) :
    Keeps base.Beside (onDocument action) :=
  keeps_onDocument_of fun beside _ => beside.withDocument _

theorem beside_tell {base : Host} (events : List HostEvent) : Keeps base.Beside (tell events) :=
  .modify fun _ beside => beside.telling _

/-- A refresh changes the document, and what was told. -/
theorem beside_perform {base : Host} (refresh : Refresh) : Keeps base.Beside (perform refresh) :=
  keeps_performing (keeps_drawing (beside_onDocument _) fun _ => beside_tell _)
    (beside_onDocument _) (fun _ => beside_tell _) refresh

/-- Settling changes the document, and what was told. -/
theorem beside_settled (host : Host) : Beside { host with waiting := [] } host.settled :=
  Keeps.forM beside_perform host.waiting _ (.refl _)

theorem waiting_settled (host : Host) : host.settled.waiting = [] := by
  obtain ⟨_, _, same⟩ := host.beside_settled
  rw [same]

theorem phase_settled (host : Host) : host.settled.phase = host.phase := by
  obtain ⟨_, _, same⟩ := host.beside_settled
  rw [same]

/-- A settled host has nothing to settle. -/
theorem settle_settled (host : Host) : settle host.settled = .ok () host.settled := by
  have waiting := waiting_settled host
  generalize host.settled = other at waiting
  cases other
  cases waiting
  rfl

theorem settled_settled (host : Host) : host.settled.settled = host.settled :=
  leaves_of_ok (settle_settled host)

/-- Drawing the surface fails only without a document. -/
theorem unloaded_of_drawSurface (failed : drawSurface host = .error failure after) :
    after.document? = none := by
  rcases error_of_bind failed with ends | ⟨_, _, _, ends⟩
  · unfold onDocument at ends
    cases kept : host.document? with
    | none =>
        rw [kept] at ends
        obtain ⟨-, rfl⟩ := EStateM.Result.error.inj ends
        exact kept
    | some document => rw [kept] at ends; cases ends
  · cases ends

theorem unloaded_of_perform {refresh : Refresh}
    (failed : perform refresh host = .error failure after) : after.document? = none := by
  unfold perform at failed
  cases refresh with
  | soft => exact unloaded_of_drawSurface (error_of_discard failed)
  | hard =>
      rcases error_of_attempt failed with ⟨_, _, _, ends⟩ | ⟨_, _, _, ends⟩
      · rcases error_of_bind ends with ends | ⟨_, _, _, ends⟩
        · cases ends
        · exact unloaded_of_drawSurface (error_of_discard ends)
      · exact unloaded_of_drawSurface (error_of_discard ends)

/-- The refreshes that wait fail only without a document. -/
theorem unloaded_of_settle (failed : settle host = .error failure after) :
    after.document? = none := by
  suffices refreshes : ∀ (waiting : List Refresh) (host : Host),
      waiting.forM perform host = .error failure after → after.document? = none from
    refreshes host.waiting _ failed
  intro waiting
  induction waiting with
  | nil => exact fun _ failed => nomatch failed
  | cons refresh rest ih =>
      intro host failed
      rcases error_of_bind failed with ends | ⟨_, middle, _, ends⟩
      · exact unloaded_of_perform ends
      · exact ih middle ends

/-- What settles first fails in settling, or behind it. -/
theorem error_of_settle {α : Type} {next : Action α}
    (failed : (settle >>= fun _ => next) host = .error failure after) :
    (host.settled.document? = none ∧ after = host.settled) ∨
      next host.settled = .error failure after := by
  rcases error_of_bind failed with ends | ⟨_, middle, ran, ends⟩
  · have same : host.settled = after := leaves_of_error ends
    rw [same]
    exact .inl ⟨unloaded_of_settle ends, rfl⟩
  · have same : host.settled = middle := leaves_of_ok ran
    rw [same]
    exact .inr ends

theorem error_of_loaded {α : Type} {next : Action α}
    (failed : (discard loaded >>= fun _ => next) host = .error failure after) :
    (host.document? = none ∧ after = host) ∨ next host = .error failure after := by
  rcases error_of_bind failed with ends | ⟨_, middle, ran, ends⟩
  · have refused := error_of_discard ends
    rw [loaded_eq] at refused
    cases kept : host.document? with
    | none =>
        rw [kept] at refused
        exact .inl ⟨rfl, (EStateM.Result.error.inj refused).2.symm⟩
    | some document => rw [kept] at refused; cases refused
  · have unchanged : Keeps (· = host) (discard loaded) := keeps_loaded.discard
    rw [unchanged.ok rfl ran] at ends
    exact .inr ends

/-- What needs a document fails in the settled host, or changes nothing in it. -/
theorem error_of_settle_loaded {α : Type} {next : Action α}
    (failed : (do settle; discard loaded; next : Action α) host = .error failure after) :
    (host.settled.document? = none ∧ after = host.settled) ∨
      next host.settled = .error failure after :=
  (error_of_settle failed).elim .inl error_of_loaded

/-! ## Operations that fail -/

/-- The same document but for its tree and for what no property tells apart, the same open
transactions, the same phase and the same refreshes that wait. -/
structure Resembles (host other : Host) : Prop where
  document : host.SameDocument other
  frames_eq : other.transactions.frames = host.transactions.frames
  phase_eq : other.phase = host.phase
  waiting_eq : other.waiting = host.waiting

theorem Resembles.refl (host : Host) : host.Resembles host := ⟨.refl host, rfl, rfl, rfl⟩

/-- What an operation leaves that fails in a transaction of its own resembles a host that differs in
its document only, if the work leaves the same document. -/
theorem resembles_of_work {α : Type} {description : Text} {work : Action α}
    (keeps : ∀ base, Keeps (Working registry base) work) (orderly : host.Orderly registry)
    (failed : withTransaction description work host = .error failure after) :
    ∃ middle, work (host.opened description) = .error failure middle ∧
      ∀ {base : Host}, host.Beside base → base.SameDocument middle → base.Resembles after := by
  obtain ⟨middle, ran, document, frames, phase, waiting⟩ :=
    withTransaction_error keeps orderly failed
  refine ⟨middle, ran, fun beside same => ?_⟩
  obtain ⟨document?, events, rfl⟩ := beside
  refine ⟨?_, frames, phase, waiting⟩
  unfold SameDocument
  rw [document]
  exact same

/-- An operation resembles what it was if its work does. -/
theorem resembles_of_transaction {α : Type} {description : Text} {work : Action α}
    (keeps : ∀ base, Keeps (Working registry base) work) (orderly : host.Orderly registry)
    (fails : ∀ failure middle, work (host.opened description) = .error failure middle →
      (host.opened description).SameDocument middle)
    (failed : withTransaction description work host = .error failure after) :
    host.Resembles after := by
  obtain ⟨middle, ran, resembles⟩ := resembles_of_work keeps orderly failed
  exact resembles (.refl host) (fails failure middle ran)

theorem Orderly.opened (orderly : host.Orderly registry) (description : Text) :
    (host.opened description).Orderly registry := ⟨orderly.document, orderly.registry_eq⟩

theorem orderly_settled (regular : registry.Regular) (orderly : host.Orderly registry) :
    host.settled.Orderly registry := keeps_settle regular host orderly

theorem setProperty_error (regular : registry.Regular) (orderly : host.Orderly registry)
    {name property : Text} {value : Value}
    (failed : setProperty name property value host = .error failure after) :
    host.settled.Resembles after := by
  have orderly' := orderly_settled regular orderly
  rcases error_of_settle_loaded failed with ⟨-, rfl⟩ | failed
  · exact .refl _
  · exact resembles_of_transaction (fun _ => keeps_changeProperty regular _ _ _) orderly'
      (fun _ _ => changeProperty_error (orderly'.opened _)) failed

theorem rename_error (regular : registry.Regular) (orderly : host.Orderly registry)
    {name newName : Text} (failed : rename name newName host = .error failure after) :
    host.settled.Resembles after := by
  have orderly' := orderly_settled regular orderly
  rcases error_of_settle_loaded failed with ⟨-, rfl⟩ | failed
  · exact .refl _
  · exact resembles_of_transaction (fun _ => keeps_changeName regular _ _) orderly'
      (fun _ _ => changeName_error (orderly'.opened _)) failed

theorem create_error (regular : registry.Regular) (orderly : host.Orderly registry)
    (selected : host.settled.SelectsSited) {typeName : Text} {name? : Option Text}
    (failed : create typeName name? host = .error failure after) :
    host.settled.Resembles after := by
  have orderly' := orderly_settled regular orderly
  rcases error_of_settle_loaded failed with ⟨-, rfl⟩ | failed
  · exact .refl _
  rcases error_of_bind failed with ends | ⟨current, _, ends, failed⟩
  · cases ends
  obtain ⟨rfl, rfl⟩ := EStateM.Result.ok.inj ends
  cases named : host.settled.registry.named? typeName with
  | none =>
      rw [named] at failed
      obtain ⟨-, rfl⟩ := EStateM.Result.error.inj failed
      exact .refl _
  | some controlType =>
  rw [named] at failed
  have listed : controlType ∈ registry.all := by
    rw [← orderly'.registry_eq]
    exact List.mem_of_find?_eq_some named
  have regular' := regular controlType listed
  dsimp only at failed
  split at failed
  · obtain ⟨-, rfl⟩ := EStateM.Result.error.inj failed
    exact .refl _
  · exact resembles_of_transaction (fun _ => keeps_addControl regular listed name?) orderly'
      (fun _ _ => addControl_error (orderly'.opened _) regular' selected) failed

/-- The property that an operation names is looked for in the settled host. -/
theorem error_of_propertyNamed {name property : Text} {α : Type} {next : Property → Action α}
    (failed : (propertyNamed name property >>= next) host = .error failure after) :
    after = host.settled ∨
      ∃ declared, next declared host.settled = .error failure after := by
  obtain ⟨lookup, settles, looked⟩ : ∃ lookup : Action Property,
      propertyNamed name property = (settle >>= fun _ => lookup) ∧
        Keeps (· = host.settled) lookup := by
    refine ⟨_, rfl, (keeps_siteNamed name).seq fun site => ?_⟩
    split
    · exact .pure _
    · exact .throw _
  rw [settles] at failed
  rcases error_of_bind failed with ends | ⟨declared, middle, ran, ends⟩
  · left
    rcases error_of_settle ends with ⟨-, same⟩ | ends
    · exact same
    · exact looked.error rfl ends
  · right
    rcases PageDesigner.ends settle host with ⟨_, done⟩ | ⟨_, refuses⟩
    · have ran' := (bind_of_ok done _).symm.trans ran
      rw [looked.ok rfl ran'] at ends
      exact ⟨declared, ends⟩
    · have ran' := (bind_of_error refuses _).symm.trans ran
      cases ran'

/-- Setting a property in a settled host. -/
theorem setProperty_settled_error (regular : registry.Regular) (orderly : host.Orderly registry)
    {name property : Text} {value : Value}
    (failed : setProperty name property value host.settled = .error failure after) :
    host.settled.Resembles after := by
  have resembles := setProperty_error regular (orderly_settled regular orderly) failed
  rw [settled_settled] at resembles
  exact resembles

theorem setPropertyText_error (regular : registry.Regular) (orderly : host.Orderly registry)
    {name property written : Text}
    (failed : setPropertyText name property written host = .error failure after) :
    host.settled.Resembles after := by
  rcases error_of_propertyNamed failed with rfl | ⟨declared, failed⟩
  · exact .refl _
  cases reads : declared.read written with
  | error cause =>
      rw [reads] at failed
      obtain ⟨-, rfl⟩ := EStateM.Result.error.inj failed
      exact .refl _
  | ok value =>
      rw [reads] at failed
      exact setProperty_settled_error regular orderly failed

theorem resetProperty_error (regular : registry.Regular) (orderly : host.Orderly registry)
    {name property : Text} (failed : resetProperty name property host = .error failure after) :
    host.settled.Resembles after := by
  rcases error_of_propertyNamed failed with rfl | ⟨declared, failed⟩
  · exact .refl _
  cases initial : declared.initial? with
  | none =>
      rw [initial] at failed
      obtain ⟨-, rfl⟩ := EStateM.Result.error.inj failed
      exact .refl _
  | some value =>
      rw [initial] at failed
      exact setProperty_settled_error regular orderly failed

/-- A component of a document can be destroyed. -/
theorem destroy_ok {document : Document} (kept : host.document? = some document) (name : Text) :
    ∃ removed last, onDocument (Document.destroy name) host = .ok removed last := by
  unfold onDocument Document.destroy
  simp only [kept, bind, EStateM.bind, get_eq]
  cases document.surface.destroy? name <;> exact ⟨_, _, rfl⟩

/-- What is told about a destroyed component never fails. -/
theorem destroy_told {document : Document} (kept : host.document? = some document) (name : Text) :
    (do
        match ← onDocument (Document.destroy name) with
        | some removed => tell [.removed removed]
        | none => pure () : Action Unit) host ≠ .error failure after := by
  intro failed
  obtain ⟨removed, last, done⟩ := destroy_ok kept name
  rw [bind_of_ok done] at failed
  cases removed <;> cases failed

/-- A tag that cannot be removed leaves the document unedited. -/
theorem removeTagOf_error {document : Document} (kept : host.document? = some document)
    {name : Text} (failed : removeTagOf name host = .error failure after) :
    host.Resembles after := by
  rcases error_of_attempt failed with ⟨_, _, _, ends⟩ | ⟨cause, middle, refused, ends⟩
  · cases ends
  obtain ⟨document', refuses, rfl⟩ := onDocument_error kept refused
  have unedited := Document.unedited_removeTag _ _ _ _ (.refl _) refuses
  have resembles : host.Resembles { host with document? := some document' } :=
    ⟨.of_some kept rfl unedited.resembles, rfl, rfl, rfl⟩
  cases cause with
  | tagNotFound => cases ends
  | _ =>
      obtain ⟨-, rfl⟩ := EStateM.Result.error.inj ends
      exact resembles

/-- Removing a tag leaves the surface alone. -/
theorem keeps_removeTagOf_carries {base : Host} {surface : Surface} (name : Text) :
    Keeps (Carries registry base surface) (removeTagOf name) :=
  keeps_removingTag (keeps_onDocument_carries (Document.textual_carries.keeps_removeTag name))

theorem destroy_error (regular : registry.Regular) (orderly : host.Orderly registry)
    {name : Text} (failed : destroy name host = .error failure after) :
    host.settled.Resembles after := by
  rcases error_of_settle failed with ⟨-, rfl⟩ | failed
  · exact .refl _
  have loads := loaded_eq host.settled
  cases kept : host.settled.document? with
  | none =>
      rw [kept] at loads
      rw [bind_of_error loads] at failed
      obtain ⟨-, rfl⟩ := EStateM.Result.error.inj failed
      exact .refl _
  | some document =>
  rw [kept] at loads
  rw [bind_of_ok loads] at failed
  cases stands : document.surface.container.storedName? name with
  | none =>
      rw [stands] at failed
      obtain ⟨-, rfl⟩ := EStateM.Result.error.inj failed
      exact .refl _
  | some stored =>
  rw [stands] at failed
  dsimp only at failed
  split at failed
  · rcases error_of_bind failed with ends | ⟨_, middle, removed, ends⟩
    · exact removeTagOf_error kept ends
    · have working : Working registry host.settled host.settled :=
        ⟨orderly_settled regular orderly, .refl _⟩
      have carries := (keeps_removeTagOf_carries stored).ok (working.carries kept) removed
      obtain ⟨document', kept', _⟩ := carries.document
      exact absurd ends (destroy_told kept' stored)
  · exact absurd failed (destroy_told kept stored)

/-! ## Nothing changes -/

/-- Whether the operation sites a new component. -/
def ComponentOperation.isCreation : ComponentOperation → Bool
  | create _ _ => true
  | _ => false

/--
An operation on a component that fails leaves what it found, once the refreshes that waited
are done.  The types are regular, as the standard ones are, and if a component was to be
created, every selected name is that of a component.
-/
theorem resembles_of_error (regular : registry.Regular) {designers : DesignerRegistry}
    {options : Options} (reaches : Reaches registry designers options host)
    {operation : ComponentOperation}
    (selected : operation.isCreation = true → host.settled.SelectsSited)
    (failed : operation.run host = .error failure after) : host.settled.Resembles after := by
  have orderly := orderly_of_reaches regular reaches
  cases operation with
  | create typeName name? =>
      exact create_error regular orderly (selected rfl) (error_of_discard failed)
  | destroy name => exact destroy_error regular orderly failed
  | set name property value => exact setProperty_error regular orderly failed
  | setText name property written => exact setPropertyText_error regular orderly failed
  | reset name property => exact resetProperty_error regular orderly failed
  | rename name newName => exact rename_error regular orderly failed

/-- A page without a form. -/
def formless : Host := runAll [.load "<p></p>"] (new .standard .standard .standard)

/-- A button has no place on a page without a form; it is taken out again. -/
theorem resembles_of_error_formless :
    ∃ after, (ComponentOperation.create "Button" none).run formless =
        .error .noInsertionPoint after ∧ formless.settled.Resembles after := by
  have fails : failsWith (fun failure _ => failure == .noInsertionPoint)
      (ComponentOperation.create "Button" none).run formless = true := by decide +kernel
  obtain ⟨failure, after, ran, same⟩ := exists_of_failsWith fails
  obtain rfl := eq_of_beq same
  exact ⟨after, ran, resembles_of_error (by decide +kernel)
    (reaches_runAll _ .refl) (fun _ => by decide +kernel) ran⟩

/-- The names, the selection and the value of a property. -/
def glance (host : Host) (name property : Text) : List Text × Selection × Option Value :=
  (host.names, host.selection, (host.site? name).bind (·.component.get? property))

/-- Hosts that resemble each other look the same. -/
theorem Resembles.glance_eq (resembles : host.Resembles after) (name property : Text) :
    after.glance name property = host.glance name property := by
  unfold glance Host.names Host.selection Host.site?
  rcases resembles.document.cases with
    ⟨none, none'⟩ | ⟨document, document', kept, kept', ⟨_, container, _, selection⟩⟩
  · rw [none, none']
  · have value : ∀ document : Document,
        (document.site? name).bind (fun site => site.component.get? property) =
          (document.surface.container.get? name).bind (·.get? property) := by
      intro document
      unfold Document.site? Container.get?
      rw [Option.bind_map]
      rfl
    rw [kept, kept']
    simp only [Option.map_some, Option.getD_some, Option.bind_some, value]
    exact Prod.ext container.names_eq (Prod.ext selection (container.value_eq name property))

/-- Operations lead to a loaded host with the given refreshes waiting, and an operation on a
component fails there and leaves something else behind. -/
def Spoils (registry : Registry) (operations : List Operation) (waiting : List Refresh)
    (operation : ComponentOperation) : Prop :=
  let host := runAll operations (new registry .standard .standard)
  Reaches registry .standard .standard host ∧ host.document?.isSome = true ∧
    host.waiting = waiting ∧
    ∃ failure after, operation.run host = .error failure after ∧ ¬ host.Resembles after

/-- Whether an operation fails and leaves a host that looks different. -/
def differs (host : Host) (operation : ComponentOperation) (name property : Text) : Bool :=
  match operation.run host with
  | .ok _ _ => false
  | .error _ after => after.glance name property ≠ host.glance name property

theorem spoils_of_differs {operations : List Operation} {waiting : List Refresh}
    {operation : ComponentOperation} (name property : Text)
    (check : let host := runAll operations (new registry .standard .standard)
      (host.document?.isSome && host.waiting = waiting &&
        host.differs operation name property) = true) :
    Spoils registry operations waiting operation := by
  simp only [Bool.and_eq_true, decide_eq_true_eq] at check
  obtain ⟨⟨loaded, same⟩, differs⟩ := check
  refine ⟨reaches_runAll _ .refl, loaded, same, ?_⟩
  unfold Host.differs at differs
  split at differs
  · cases differs
  · next failure after ran =>
      refine ⟨failure, after, ran, fun resembles => ?_⟩
      rw [resembles.glance_eq name property] at differs
      simp at differs

/-- A page with a property whose declared value is not of its kind. -/
def oddPage : ControlType :=
  { Builtin.page with properties := [⟨"Size", some (.string "big"), some .integer⟩] }

/-- A button whose name is no identifier. -/
def oddButton : ControlType := { Builtin.button with name := "My Button" }

/-- An operation that fails changes something when a refresh waits, when a name is selected that
gets free, when the declared value of a property is not of its kind, and when a generated
name is no identifier. -/
theorem spoils_without_condition :
    Spoils .standard
      [.load "<p></p>", .edit (.replaceAll "<asp:Label id=\"L\" runat=\"server\" />"),
        .askRefresh .hard]
      [.hard] (.create "Unknown" none) ∧
    Spoils .standard
      [.load "<p></p>", .reselect ⟨["Button1"], some "Button1"⟩]
      [] (.create "Button" none) ∧
    Spoils (Registry.standard.register oddPage)
      [.load "<p></p>"] [] (.set "Page1" "Size" (.integer 1)) ∧
    Spoils (Registry.standard.register oddButton)
      [.load "<form id=\"f\" runat=\"server\"></form>", .component (.create "My Button" none),
        .edit (.replaceAll [])]
      [] (.rename "My Button1" "B") :=
  ⟨spoils_of_differs [] [] (by decide +kernel), spoils_of_differs [] [] (by decide +kernel),
    spoils_of_differs "Page1" "Size" (by decide +kernel),
    spoils_of_differs [] [] (by decide +kernel)⟩

end PageDesigner.Host
