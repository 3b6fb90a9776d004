import PageDesigner.Proofs.Host.Failing

/-!
# What operations on components leave alone

An operation on a component settles the host, changes the document and tells of components and
of the selection, in a transaction of its own.  What depends on none of this is kept by all that
happens inside the transaction (`Host.Steady`), and what the transaction leaves alone as well is
kept by the operation, whether it fails or not (`Host.Enclosing.keeps_component`), and by all work
that is put together from such operations, nested to any depth (`Host.Enclosing.keeps_work`).

Whatever the operation does to the document, a sound one stays sound.
-/

namespace PageDesigner

/-! ## Sound documents -/

namespace Document

theorem textual_sound : Textual Sound where
  parse document sound := by
    obtain ⟨after, parses, sound', -⟩ := parse_eq sound
    rw [parses]
    exact sound'
  edited _ edit sound := sound.edited edit

theorem keeps_sound_scan (mode : ScanMode) : Keeps Sound (scan mode) := fun document sound =>
  sound_of_scan sound (ends (scan mode) document)

theorem keeps_sound_destroy (name : Text) : Keeps Sound (destroy name) := by
  refine Keeps.bind .get fun document found middle sound ran _ => ?_
  cases ran
  split
  · exact sound
  · next gone => exact sound.withSurface (Surface.distinct_destroy? sound.distinct gone)

theorem keeps_sound_designHtml : Keeps Sound (modifyGet designHtml : Action DesignHtml) :=
  .modifyGet fun _ sound => Step.drawn.sound sound

end Document

/-- Whether an event tells of components, or of what is selected. -/
def HostEvent.isOfComponents : HostEvent → Bool
  | added _ _ | removed _ | renamed _ _ | changed _ _ _ _ | selected _ _ => true
  | _ => false

namespace Host

/-- What does not depend on how a sound document goes on. -/
structure Apart (holds : Host → Prop) : Prop where
  withDocument : ∀ {host : Host} {document after : Document}, holds host →
    host.document? = some document → (document.Sound → after.Sound) →
    holds { host with document? := some after }

/-- What does not depend on what is told of components either, and is kept by settling. -/
structure Steady (holds : Host → Prop) : Prop extends Apart holds where
  telling : ∀ {host : Host} {events : List HostEvent}, holds host →
    (∀ event ∈ events, event.isOfComponents = true) →
    holds { host with events := host.events ++ events }
  settle : Keeps holds settle

variable {α : Type} {holds : Host → Prop}

/-! ## Parts of operations -/

namespace Apart

variable (apart : Apart holds)

include apart

theorem keeps_onDocument {action : Document.Action α} (keeps : Keeps Document.Sound action) :
    Keeps holds (onDocument action) :=
  keeps_onDocument_of fun held kept => apart.withDocument held kept (keeps _)

/-- Another surface takes the place of that of the document. -/
theorem withSurface {host : Host} {document : Document} {surface : Surface}
    (held : holds host) (kept : host.document? = some document)
    (keeps : document.surface.container.Distinct → surface.container.Distinct) :
    holds { host with document? := some { document with surface } } :=
  apart.withDocument held kept fun sound => sound.withSurface (keeps sound.distinct)

theorem keeps_onSurface {change : Surface → Surface}
    (keeps : ∀ surface, surface.container.Distinct → (change surface).container.Distinct) :
    Keeps holds (onSurface change) := by
  refine .modify fun host held => ?_
  cases kept : host.document? with
  | none =>
      rw [Option.map_none, ← kept]
      exact held
  | some document => exact apart.withSurface held kept (keeps _)

end Apart

namespace Steady

variable (steady : Steady holds)

include steady

theorem keeps_tell {events : List HostEvent}
    (ofComponents : ∀ event ∈ events, event.isOfComponents = true) : Keeps holds (tell events) :=
  .modify fun _ held => steady.telling held ofComponents

/-- One event is told. -/
theorem keeps_tell_one {event : HostEvent} (ofComponents : event.isOfComponents = true) :
    Keeps holds (tell [event]) :=
  steady.keeps_tell fun other member => by
    rw [List.mem_singleton.mp member]
    exact ofComponents

theorem keeps_select (names : List Text) (primary : Nat) : Keeps holds (select names primary) := by
  have selected : Keeps holds (onSurface fun surface =>
      surface.select (surface.known names) primary) := steady.keeps_onSurface fun _ => id
  exact selected.seq fun _ => Keeps.get.seq fun _ => steady.keeps_tell_one rfl

theorem keeps_putComponent (name : Text) (component : Component) :
    Keeps holds (putComponent name component) :=
  steady.keeps_onSurface fun _ distinct => distinct.update name _

/-! ## Work on components -/

theorem keeps_siteNew (controlType : ControlType) (name? : Option Text) :
    Keeps holds (siteNew controlType name?) := by
  refine keeps_loaded_bind fun host document held kept => ?_
  split
  · exact held
  next name surface sited =>
    have placed := steady.withSurface held kept fun distinct =>
      Surface.distinct_siteControl distinct sited
    exact ((keeps_siteNamed name).seq fun _ =>
      (steady.keeps_putComponent name _).seq fun _ => .pure _) _ placed

theorem keeps_addControl (controlType : ControlType) (name? : Option Text) :
    Keeps holds (addControl controlType name?) := by
  refine (steady.keeps_siteNew controlType name?).seq fun (name, markup) => ?_
  refine (keeps_attempt (steady.keeps_onDocument
    (Document.textual_sound.keeps_insertTag markup))).seq fun outcome => ?_
  split
  · exact (steady.keeps_onDocument (Document.keeps_sound_destroy name)).discard.seq fun _ =>
      .throw _
  · exact (steady.keeps_tell_one rfl).seq fun _ =>
      (steady.keeps_select [name] 0).seq fun _ => .pure _

theorem keeps_removeTagOf (name : Text) : Keeps holds (removeTagOf name) :=
  keeps_removingTag (steady.keeps_onDocument (Document.textual_sound.keeps_removeTag name))

theorem keeps_destroy (name : Text) : Keeps holds (destroy name) := by
  refine keeps_destroying steady.settle steady.keeps_removeTagOf (fun stored => ?_) name
  refine (steady.keeps_onDocument (Document.keeps_sound_destroy stored)).seq fun removed? => ?_
  split
  · exact steady.keeps_tell_one rfl
  · exact .pure _

theorem keeps_destroyEach (names : List Text) : Keeps holds (destroyEach names) :=
  keeps_destroyingEach steady.keeps_destroy names

theorem keeps_changeProperty (name property : Text) (value : Value) :
    Keeps holds (changeProperty name property value) := by
  refine (keeps_siteNamed name).seq fun site => ?_
  dsimp only
  split
  · exact .throw _
  split
  · exact .throw _
  refine (steady.keeps_putComponent _ _).seq fun _ => (keeps_attempt (steady.keeps_onDocument
    (Document.textual_sound.keeps_updateTag _ _ _ _))).seq fun outcome => ?_
  split
  · exact (steady.keeps_putComponent _ _).seq fun _ => .throw _
  · exact steady.keeps_tell_one rfl

theorem keeps_changeHandler (name event : Text) (handler? : Option Text) :
    Keeps holds (changeHandler name event handler?) := by
  refine (keeps_siteNamed name).seq fun site => ?_
  split
  · exact .throw _
  next declared _ =>
  have written : ∀ changed, Keeps holds (putComponent site.name changed >>= fun _ =>
      discard (onDocument (Document.updateEvent site.name declared handler?))) := fun changed =>
    (steady.keeps_putComponent _ changed).seq fun _ => (steady.keeps_onDocument
      (Document.textual_sound.keeps_updateEvent _ _ _)).discard
  split
  · exact written _
  · split
    · exact .throw _
    · exact written _

theorem keeps_renameSite (name newName : Text) : Keeps holds (renameSite name newName) := by
  refine keeps_loaded_bind fun host document held kept => ?_
  split
  · exact held
  next renamed =>
    exact steady.withSurface held kept fun distinct =>
      Surface.distinct_rename distinct renamed

theorem keeps_changeName (name newName : Text) : Keeps holds (changeName name newName) := by
  refine (steady.keeps_renameSite name newName).seq fun previous =>
    (keeps_attempt (steady.keeps_onDocument
      (Document.textual_sound.keeps_renameTag previous newName))).seq fun outcome => ?_
  split
  · exact (keeps_attempt (steady.keeps_renameSite _ _)).discard.seq fun _ => .throw _
  · have renamed : Keeps holds (onSurface fun surface =>
        { surface with selection := surface.selection.rename previous newName }) :=
      steady.keeps_onSurface fun _ => id
    exact renamed.seq fun _ => steady.keeps_tell_one rfl

theorem keeps_propertyNamed (name property : Text) :
    Keeps holds (propertyNamed name property) := by
  refine steady.settle.seq fun _ => (keeps_siteNamed name).seq fun site => ?_
  split
  · exact .pure _
  · exact .throw _

end Steady

/-! ## Operations in transactions -/

/-- Commit a transaction or roll it back. -/
def finish : Bool → Transaction → Action Transaction
  | true => commit
  | false => rollback

/-- An operation in a transaction of its own leaves what closing the transaction leaves, either
way. -/
theorem holds_withTransaction {host : Host} {description : Text} {work : Action α}
    (closes : ∀ committed, ∃ closed after,
      finish committed (host.transactions.push description).1
        (leaves work (host.opened description)) = .ok closed after ∧ holds after) :
    holds (leaves (withTransaction description work) host) := by
  obtain ⟨outcome, ended⟩ := attempt_ends work (host.opened description)
  unfold withTransaction
  rw [leaves_bind_of_ok (openTransaction_eq host description), leaves_bind_of_ok ended]
  split
  · obtain ⟨closed, after, ran, held⟩ := closes true
    have commits : commit (host.transactions.push description).1 _ = .ok closed after := ran
    rw [leaves_bind_of_ok (discard_of_ok commits)]
    exact held
  · obtain ⟨closed, after, ran, held⟩ := closes false
    have rolls : rollback (host.transactions.push description).1 _ = .ok closed after := ran
    rw [leaves_bind_of_ok (discard_of_ok rolls)]
    exact held

/-- What may run in a transaction: operations on components, one after the other, whether those
before failed or not, and others of their kind in transactions of their own. -/
inductive Work : {α : Type} → Action α → Prop
  | pure {α : Type} (result : α) : Work (pure result : Action α)
  | throw {α : Type} (failure : DesignError) : Work (throw failure : Action α)
  | get : Work (get : Action Host)
  | bind {α β : Type} {first : Action α} {next : α → Action β} :
      Work first → (∀ result, Work (next result)) → Work (first >>= next)
  | attempt {α : Type} {work : Action α} : Work work → Work (attempt work)
  | component (operation : ComponentOperation) : Work operation.run
  | create (typeName : Text) (name? : Option Text) : Work (create typeName name?)
  | remove (name : Text) : Work (remove name)
  | removeSelected : Work removeSelected
  | setHandler (name event : Text) (handler? : Option Text) : Work (setHandler name event handler?)
  | withTransaction {α : Type} (description : Text) {work : Action α} :
      Work work → Work (withTransaction description work)

/-- A family of steady properties: what keeps all of them keeps them in a transaction as well. -/
structure Enclosing {ι : Type} (holds : ι → Host → Prop) : Prop where
  steady : ∀ index, Steady (holds index)
  withTransaction : ∀ {α : Type} {work : Action α} (description : Text),
    (∀ index, Keeps (holds index) work) →
      ∀ index, Keeps (holds index) (Host.withTransaction description work)

namespace Enclosing

variable {ι : Type} {holds : ι → Host → Prop} (enclosing : Enclosing holds) (index : ι)

include enclosing

theorem keeps_create (typeName : Text) (name? : Option Text) :
    Keeps (holds index) (create typeName name?) := by
  refine (enclosing.steady index).settle.seq fun _ => keeps_loaded.discard.seq fun _ =>
    Keeps.get.seq fun host => ?_
  split
  · exact .throw _
  next controlType _ =>
    have added : Keeps (holds index)
        (Host.withTransaction ("Create " ++ controlType.name) (addControl controlType name?)) :=
      enclosing.withTransaction _ (fun index => (enclosing.steady index).keeps_addControl _ _) index
    dsimp only
    split
    · exact .throw _
    · exact added

theorem keeps_remove (name : Text) : Keeps (holds index) (remove name) :=
  enclosing.withTransaction _ (fun index => (enclosing.steady index).keeps_destroy name) index

theorem keeps_removeSelected : Keeps (holds index) removeSelected :=
  (enclosing.steady index).settle.seq fun _ => keeps_loaded.seq fun _ =>
    enclosing.withTransaction _ (fun index => (enclosing.steady index).keeps_destroyEach _) index

theorem keeps_setProperty (name property : Text) (value : Value) :
    Keeps (holds index) (setProperty name property value) :=
  (enclosing.steady index).settle.seq fun _ => keeps_loaded.discard.seq fun _ =>
    enclosing.withTransaction _
      (fun index => (enclosing.steady index).keeps_changeProperty _ _ _) index

theorem keeps_setHandler (name event : Text) (handler? : Option Text) :
    Keeps (holds index) (setHandler name event handler?) :=
  (enclosing.steady index).settle.seq fun _ => keeps_loaded.discard.seq fun _ =>
    enclosing.withTransaction _
      (fun index => (enclosing.steady index).keeps_changeHandler _ _ _) index

theorem keeps_rename (name newName : Text) : Keeps (holds index) (rename name newName) :=
  (enclosing.steady index).settle.seq fun _ => keeps_loaded.discard.seq fun _ =>
    enclosing.withTransaction _ (fun index => (enclosing.steady index).keeps_changeName _ _) index

/-- Operations on components keep the properties, whether they fail or not. -/
theorem keeps_component (operation : ComponentOperation) :
    Keeps (holds index) operation.run := by
  cases operation with
  | create typeName name? => exact (enclosing.keeps_create index typeName name?).discard
  | destroy name => exact (enclosing.steady index).keeps_destroy name
  | set name property value => exact enclosing.keeps_setProperty index name property value
  | setText name property written =>
      refine ((enclosing.steady index).keeps_propertyNamed name property).seq fun declared => ?_
      split
      · exact .throw _
      · exact enclosing.keeps_setProperty index _ _ _
  | reset name property =>
      refine ((enclosing.steady index).keeps_propertyNamed name property).seq fun declared => ?_
      split
      · exact .throw _
      · exact enclosing.keeps_setProperty index _ _ _
  | rename name newName => exact enclosing.keeps_rename index name newName

/-- Whatever work on components runs keeps the properties, nested to any depth. -/
theorem keeps_work {α : Type} {work : Action α} (allowed : Work work) :
    Keeps (holds index) work := by
  induction allowed generalizing index with
  | pure result => exact .pure _
  | throw failure => exact .throw _
  | get => exact .get
  | bind _ _ first next => exact (first index).seq fun result => next result index
  | attempt _ work => exact keeps_attempt (work index)
  | component operation => exact enclosing.keeps_component index operation
  | create typeName name? => exact enclosing.keeps_create index typeName name?
  | remove name => exact enclosing.keeps_remove index name
  | removeSelected => exact enclosing.keeps_removeSelected index
  | setHandler name event handler? => exact enclosing.keeps_setHandler index name event handler?
  | withTransaction description _ work => exact enclosing.withTransaction description work index

end Enclosing

end Host

end PageDesigner
