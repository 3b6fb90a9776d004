import PageDesigner.Proofs.Document.Failing
import PageDesigner.Proofs.Host.Reachable

/-!
# Work on components that fails

The work of an operation on a component runs in a transaction.  When it fails, what it did
to the surface is taken back: a new control is destroyed again, a property gets its old
value, a component its former name.  The document that is left resembles the one before
(`addControl_error`, `changeProperty_error`, `changeName_error`), and the transaction is
rolled back (`withTransaction_error`).
-/

namespace PageDesigner

/-! ## Putting a value back -/

namespace Component

/-- Components are alike whose values differ for one property only, which reads the same. -/
theorem alike_withValues {component : Component} {property : Property}
    (declared : component.controlType.property? property.name = some property)
    {values : Table Value}
    (reads : (values.get? property.name).or property.initial? = component.get? property.name)
    (others : ∀ name, name ≠ property.name → values.get? name = component.values.get? name) :
    component.Alike { component with values } := by
  refine ⟨⟨rfl, rfl, rfl, rfl⟩, fun name => ?_, fun _ => rfl⟩
  cases found : component.controlType.property? name with
  | none =>
      unfold get?
      simp only [found]
  | some other =>
  have declared' := ControlType.property?_self found
  refine @get?_eq_of_declared component { component with values } rfl name other found ?_
  by_cases same : other.name = property.name
  · rw [same, declared] at declared'
    obtain rfl := Option.some.inj declared'
    rw [get?_withValues declared]
    exact reads
  · rw [get?_withValues declared', others other.name same, ← get?_eq declared']

/-- A property that was set reads as before when its old value is put back. -/
theorem alike_restored {component changed : Component} (regular : component.Regular)
    {property : Property} (declared : component.controlType.property? property.name = some property)
    {value : Value} {old? : Option Value}
    (done : component.set property.name value = .ok (old?, changed)) :
    component.Alike (Host.restored changed property.name old?) := by
  have checked := done
  obtain ⟨property', found, rfl⟩ := set_inv done
  rw [declared] at found
  obtain rfl := Option.some.inj found
  have old : old? = component.get? property.name := by
    unfold Component.set Component.property at checked
    rw [declared] at checked
    dsimp only at checked
    split at checked
    · cases checked
    · exact (Prod.mk.inj (Except.ok.inj checked)).1.symm
  cases old? with
  | none =>
      have put : Host.restored { component with
          values := Table.put property.name value component.values } property.name none =
            { component with
              values := (Table.put property.name value component.values).erase property.name } := by
        unfold Host.restored Component.reset Component.property
        simp only [declared]
      rw [put]
      refine alike_withValues declared ?_ fun name differs => ?_
      · rw [get?_eq declared] at old
        rw [Table.get?_erase_self, Option.none_or, get?_eq declared, ← old]
        exact (Option.or_eq_none_iff.mp old.symm).2
      · rw [Table.get?_erase_of_ne _ differs, Table.get?_put_of_ne _ _ differs]
  | some old' =>
      have kind : property.checkKind old' = .ok () := regular.get? declared old.symm
      have put : Host.restored { component with
          values := Table.put property.name value component.values } property.name (some old') =
            { component with
              values := Table.put property.name old'
                (Table.put property.name value component.values) } := by
        unfold Host.restored Component.set Component.property
        simp only [declared, kind]
      rw [put]
      refine alike_withValues declared ?_ fun name differs => ?_
      · rw [Table.get?_put_self, Option.some_or, ← old]
      · rw [Table.get?_put_of_ne _ _ differs, Table.get?_put_of_ne _ _ differs]

end Component

namespace Container

/-- Of two components put under one name, the later one counts. -/
theorem update_update (container : Container) (name : Text) (first second : Component) :
    (container.update name fun _ => first).update name (fun _ => second) =
      container.update name fun _ => second := by
  obtain ⟨sites⟩ := container
  induction sites with
  | nil => rfl
  | cons site rest ih =>
      rw [update_cons, update_cons]
      by_cases same : site.name.sameName name = true
      · rw [if_pos same, if_pos same, update_cons, if_pos same]
      · rw [if_neg same, if_neg same, update_cons, if_neg same]
        exact congrArg (fun later : Container => Container.mk (site :: later.sites)) ih

end Container

namespace Selection

/-- Only a selected name can be taken out of the selection. -/
theorem without_of_not_contains {selection : Selection} {name : Text}
    (absent : selection.contains name = false) : selection.without name = selection := by
  unfold without
  rw [absent]
  rfl

end Selection

/-- The innermost transaction is closed with its handle. -/
theorem TransactionStack.close_of_top {stack : TransactionStack} {handle : Transaction}
    {top : TransactionFrame} {rest : List TransactionFrame} (unclosed : handle.isClosed = false)
    (frames : stack.frames = top :: rest) (own : top.id = handle.id) (commit : Bool) :
    stack.close handle commit =
      .ok ({ handle with isClosed := true }, { stack with frames := rest },
        [.closing handle.description commit, .closed handle.description commit]) := by
  unfold close
  rw [unclosed, if_neg Bool.false_ne_true, frames]
  exact if_pos own

namespace Host

variable {registry : Registry} {host after : Host} {failure : DesignError}

/-! ## Parts of operations -/

theorem attempt_of_ok {α : Type} {action : Action α} {result : α}
    (ran : action host = .ok result after) : attempt action host = .ok (.ok result) after := by
  unfold attempt
  rw [ran]

theorem attempt_of_error {α : Type} {action : Action α}
    (ran : action host = .error failure after) :
    attempt action host = .ok (.error failure) after := by
  unfold attempt
  rw [ran]

/-- What follows an attempt fails behind a result or behind a failure. -/
theorem error_of_attempt {α β : Type} {action : Action α} {next : Except DesignError α → Action β}
    (failed : (attempt action >>= next) host = .error failure after) :
    (∃ result middle, action host = .ok result middle ∧
        next (.ok result) middle = .error failure after) ∨
      ∃ cause middle, action host = .error cause middle ∧
        next (.error cause) middle = .error failure after := by
  cases ran : action host with
  | ok result middle =>
      rw [bind_of_ok (attempt_of_ok ran)] at failed
      exact .inl ⟨result, middle, rfl, failed⟩
  | error cause middle =>
      rw [bind_of_ok (attempt_of_error ran)] at failed
      exact .inr ⟨cause, middle, rfl, failed⟩

theorem onDocument_error {α : Type} {action : Document.Action α} {document : Document}
    (kept : host.document? = some document)
    (failed : onDocument action host = .error failure after) :
    ∃ document', action document = .error failure document' ∧
      after = { host with document? := some document' } := by
  unfold onDocument at failed
  rw [kept] at failed
  dsimp only at failed
  cases ran : action document with
  | ok result document' => rw [ran] at failed; cases failed
  | error failure' document' =>
      rw [ran] at failed
      obtain ⟨rfl, rfl⟩ := EStateM.Result.error.inj failed
      exact ⟨document', rfl, rfl⟩

/-! ## Transactions -/

/-- A host with one more open transaction. -/
def opened (host : Host) (description : Text) : Host :=
  { host with
    transactions := (host.transactions.push description).2.1
    events := host.events ++ [.transaction (.opening description),
      .transaction (.opened description)] }

theorem openTransaction_eq (host : Host) (description : Text) :
    openTransaction description host =
      .ok (host.transactions.push description).1 (host.opened description) := rfl

/-- The innermost transaction can be closed with its handle. -/
theorem closeTransaction_of_top {handle : Transaction} {top : TransactionFrame}
    {rest : List TransactionFrame} (unclosed : handle.isClosed = false)
    (frames : host.transactions.frames = top :: rest) (own : top.id = handle.id) (commit : Bool) :
    closeTransaction handle commit host = .ok { handle with isClosed := true } { host with
      transactions := { host.transactions with frames := rest }
      events := host.events ++ [.transaction (.closing handle.description commit),
        .transaction (.closed handle.description commit)] } := by
  unfold closeTransaction
  rw [bind_of_ok (get_eq host), TransactionStack.close_of_top unclosed frames own commit]
  rfl

/-- The transaction that was opened last can be closed. -/
theorem closeTransaction_eq {base : Host} {description : Text}
    (beside : (base.opened description).Beside host) (commit : Bool) :
    ∃ handle after, closeTransaction (base.transactions.push description).1 commit host =
        .ok handle after ∧ after.document? = host.document? ∧
      after.transactions.frames = base.transactions.frames ∧ after.phase = base.phase ∧
      after.waiting = base.waiting := by
  obtain ⟨document?, events, rfl⟩ := beside
  exact ⟨_, _, closeTransaction_of_top rfl rfl rfl commit, rfl, rfl, rfl, rfl⟩

/-- Committing only fails where closing does. -/
theorem commit_of_close {handle closed : Transaction} {middle : Host}
    (closes : closeTransaction handle true host = .ok closed middle) :
    ∃ last, commit handle host = .ok closed last := by
  unfold commit
  simp only [bind, EStateM.bind, closes, get_eq]
  split <;> exact ⟨_, rfl⟩

/-- An operation that fails in a transaction of its own leaves the document as its work leaves
it, and the transactions and refreshes as they were. -/
theorem withTransaction_error {α : Type} {description : Text} {work : Action α}
    (keeps : ∀ base, Keeps (Working registry base) work) (orderly : host.Orderly registry)
    (failed : withTransaction description work host = .error failure after) :
    ∃ middle, work (host.opened description) = .error failure middle ∧
      after.document? = middle.document? ∧
      after.transactions.frames = host.transactions.frames ∧ after.phase = host.phase ∧
      after.waiting = host.waiting := by
  have working : Working registry (host.opened description) (host.opened description) :=
    ⟨⟨orderly.document, orderly.registry_eq⟩, .refl _⟩
  have left := keeps _ _ working
  unfold withTransaction at failed
  rw [bind_of_ok (openTransaction_eq host description)] at failed
  rcases error_of_attempt failed with ⟨result, middle, ran, ends⟩ | ⟨cause, middle, ran, ends⟩
  · rw [leaves_of_ok ran] at left
    obtain ⟨_, closed, closes, _⟩ := closeTransaction_eq left.beside true
    obtain ⟨last, commits⟩ := commit_of_close closes
    rcases error_of_bind ends with ends | ⟨_, _, _, ends⟩
    · have ends' := error_of_discard ends
      rw [commits] at ends'
      cases ends'
    · cases ends
  · rw [leaves_of_error ran] at left
    obtain ⟨_, closed, closes, document, frames, phase, waiting⟩ :=
      closeTransaction_eq left.beside false
    obtain ⟨rfl, rfl⟩ := eq_of_bind_throw (discard_of_ok closes) ends
    exact ⟨middle, ran, document, frames, phase, waiting⟩

/-! ## Work that fails -/

/-- The documents of two hosts resemble each other. -/
def SameDocument (host other : Host) : Prop :=
  Option.Rel Document.Resembles host.document? other.document?

theorem SameDocument.refl (host : Host) : host.SameDocument host := by
  unfold SameDocument
  cases host.document? with
  | none => exact .none
  | some document => exact .some (Document.Unedited.refl document).resembles

theorem SameDocument.of_some {other : Host} {document document' : Document}
    (kept : host.document? = some document) (kept' : other.document? = some document')
    (resembles : document.Resembles document') : host.SameDocument other := by
  unfold SameDocument
  rw [kept, kept']
  exact .some resembles

/-- Either both hosts have a document, or neither has. -/
theorem SameDocument.cases {other : Host} (same : host.SameDocument other) :
    (host.document? = none ∧ other.document? = none) ∨
      ∃ document document', host.document? = some document ∧
        other.document? = some document' ∧ document.Resembles document' := by
  unfold SameDocument at same
  cases kept : host.document? with
  | none => cases kept' : other.document? with
    | none => exact .inl ⟨rfl, rfl⟩
    | some document' => rw [kept, kept'] at same; cases same
  | some document => cases kept' : other.document? with
    | none => rw [kept, kept'] at same; cases same
    | some document' =>
        rw [kept, kept'] at same
        cases same with
        | some resembles => exact .inr ⟨document, document', rfl, rfl, resembles⟩

theorem SameDocument.trans {first second third : Host} (same : first.SameDocument second)
    (same' : second.SameDocument third) : first.SameDocument third := by
  unfold SameDocument at *
  generalize first.document? = document? at *
  generalize second.document? = document?' at *
  generalize third.document? = document?'' at *
  cases same with
  | none => exact same'
  | some resembles => cases same' with
    | some resembles' => exact .some (resembles.trans resembles')

/-- What a name stands for in the same document is alike. -/
theorem SameDocument.get? {other : Host} {document : Document} (same : host.SameDocument other)
    (kept : host.document? = some document) {name : Text} {component : Component}
    (found : document.surface.container.get? name = some component) :
    ∃ component', (other.document?.bind (·.surface.container.get? name)) = some component' ∧
      component.Alike component' := by
  rcases same.cases with ⟨none, _⟩ | ⟨document', other', kept', there, resembles⟩
  · rw [kept] at none
    cases none
  · rw [kept] at kept'
    obtain rfl := Option.some.inj kept'
    rw [there, Option.bind_some]
    exact resembles.surface.container.of_get? found

/-- Every selected name is that of a sited component. -/
def SelectsSited (host : Host) : Prop :=
  ∀ name ∈ host.selection.names, (host.site? name).isSome = true

instance (host : Host) : Decidable host.SelectsSited :=
  inferInstanceAs (Decidable (∀ name ∈ host.selection.names, (host.site? name).isSome = true))

theorem SelectsSited.contains {document : Document} (selected : host.SelectsSited)
    (kept : host.document? = some document) :
    ∀ name ∈ document.surface.selection.names,
      document.surface.container.contains name = true := by
  unfold SelectsSited selection site? at selected
  rw [kept] at selected
  exact selected

/-- A name that no component has is not selected. -/
theorem not_contains_of_free {surface : Surface}
    (selected : ∀ name ∈ surface.selection.names, surface.container.contains name = true)
    {name : Text} (free : surface.container.site? name = none) :
    surface.selection.contains name = false := by
  unfold Selection.contains Naming.isTaken
  rw [List.any_eq_false]
  intro other member
  rw [Bool.not_eq_true, Bool.eq_false_iff]
  intro same
  have sited := selected other member
  unfold Container.contains at sited
  rw [Container.site?_congr same, free] at sited
  cases sited

/-- A new control that was sited can be destroyed again, and then the surface is as it was. -/
theorem destroy_sitedNew {surface : Surface} (orderly : surface.Orderly) {name : Text}
    (free : surface.container.site? name = none)
    (selected : ∀ name ∈ surface.selection.names, surface.container.contains name = true)
    (controlType : ControlType) :
    (sitedNew surface controlType name).destroy? name = some (name, surface) := by
  have notRoot : (sitedNew surface controlType name).isRoot name = false := by
    unfold sitedNew Surface.isRoot
    dsimp only
    rw [Surface.root?_place]
    exact orderly.isRoot_of_free free
  have found : (sitedNew surface controlType name).container.get? name =
      some (Component.fresh controlType).initialized := by
    unfold sitedNew
    dsimp only
    rw [Container.get?_update_self, Surface.get?_place_self free (orderly.isRoot_of_free free)]
    rfl
  obtain ⟨site, there, _⟩ := Option.map_eq_some_iff.mp found
  have same := Container.sameName_of_site? there
  have named : site.name = name := by
    have member : site.name ∈ surface.container.names ++ [name] := by
      rw [← Surface.names_place surface name (.fresh controlType), ← Container.names_update]
      exact List.mem_map_of_mem (Container.mem_of_site? there)
    rcases List.mem_append.mp member with former | last
    · obtain ⟨other, sited, same'⟩ := List.mem_map.mp former
      rw [← same'] at same
      rw [Container.site?_of_mem orderly.distinct sited same] at free
      cases free
    · exact List.mem_singleton.mp last
  have back := orderly.arranged.withoutControl_update_place free (.fresh controlType)
    fun _ => (Component.fresh controlType).initialized
  have stays := Selection.without_of_not_contains (not_contains_of_free selected free)
  rw [Surface.destroy?_eq notRoot, there, Option.map_some, named]
  refine congrArg (fun left => some (name, left)) (back.trans ?_)
  rw [stays]

theorem addControl_error (orderly : host.Orderly registry) {controlType : ControlType}
    (regular : controlType.Regular) (selected : host.SelectsSited) {name? : Option Text}
    (failed : addControl controlType name? host = .error failure after) :
    host.SameDocument after := by
  unfold addControl at failed
  rcases siteNew_cases orderly regular name? with
    ⟨failure', sites⟩ | ⟨document, name, kept, free, valid, sites⟩
  · rw [bind_of_error sites] at failed
    obtain ⟨-, rfl⟩ := EStateM.Result.error.inj failed
    exact .refl _
  · rw [bind_of_ok sites] at failed
    rcases error_of_attempt failed with ⟨_, _, _, ends⟩ | ⟨cause, written, refused, ends⟩
    · cases ends
    · obtain ⟨document', refuses, rfl⟩ := onDocument_error rfl refused
      have unedited := Document.unedited_insertTag _ _ _ _ (.refl _) refuses
      obtain ⟨destroyed, gone⟩ : ∃ stored, Document.destroy name document' =
          .ok stored { document' with surface := document.surface } := by
        refine ⟨some name, ?_⟩
        unfold Document.destroy
        simp only [bind, EStateM.bind, get_eq,
          unedited.surface_eq, destroy_sitedNew (orderly.document document kept).surface free
            (selected.contains kept) controlType]
        rfl
      have destroys : onDocument (Document.destroy name)
          { host with document? := some document' } = .ok destroyed
            { host with document? := some { document' with surface := document.surface } } := by
        unfold onDocument
        simp only [gone]
      obtain ⟨rfl, rfl⟩ := eq_of_bind_throw (discard_of_ok destroys) ends
      exact .of_some kept rfl ⟨unedited.toSameText.withSurface _, .refl _⟩

/-- The surface with a property of a component set and put back looks alike. -/
theorem alike_putBack {surface : Surface} {name : Text} {component changed : Component}
    (found : surface.container.get? name = some component)
    {restored : Component} (alike : component.Alike restored) :
    surface.Alike (withComponent (withComponent surface name changed) name restored) := by
  refine ⟨?_, rfl, rfl⟩
  unfold withComponent
  dsimp only
  rw [Container.update_update]
  refine Container.alike_update fun other found' => ?_
  rw [found] at found'
  obtain rfl := Option.some.inj found'
  exact alike

theorem changeProperty_error (orderly : host.Orderly registry) {name property : Text}
    {value : Value} (failed : changeProperty name property value host = .error failure after) :
    host.SameDocument after := by
  unfold changeProperty at failed
  have sites := siteNamed_eq name host
  cases found : host.site? name with
  | none =>
      rw [found] at sites
      rw [bind_of_error sites] at failed
      obtain ⟨-, rfl⟩ := EStateM.Result.error.inj failed
      exact .refl _
  | some site =>
  rw [found] at sites
  rw [bind_of_ok sites] at failed
  cases declares : site.component.controlType.property? property with
  | none =>
      rw [declares] at failed
      obtain ⟨-, rfl⟩ := EStateM.Result.error.inj failed
      exact .refl _
  | some declared =>
  rw [declares] at failed
  dsimp only at failed
  cases done : site.component.set declared.name value with
  | error cause =>
      rw [done] at failed
      obtain ⟨-, rfl⟩ := EStateM.Result.error.inj failed
      exact .refl _
  | ok outcome =>
  obtain ⟨old?, changed⟩ := outcome
  rw [done] at failed
  obtain ⟨document, kept⟩ := exists_document found
  have there := get?_of_site? kept found
  have put := putComponent_eq kept site.name changed
  have failed' := (bind_of_ok put _).symm.trans failed
  rcases error_of_attempt failed' with ⟨_, _, _, ends⟩ | ⟨cause, written, refused, ends⟩
  · cases ends
  · obtain ⟨document', refuses, rfl⟩ := onDocument_error rfl refused
    have unedited := Document.unedited_updateTag _ _ _ _ _ _ _ (.refl _) refuses
    have putBack := @putComponent_eq { host with document? := some document' } document' rfl
      site.name (restored changed declared.name old?)
    obtain ⟨rfl, rfl⟩ := eq_of_bind_throw putBack ends
    have regular := (orderly.document document kept).surface.regular_of_get? there
    have alike := Component.alike_restored regular (ControlType.property?_self declares) done
    refine .of_some kept rfl ⟨unedited.toSameText.withSurface _, ?_⟩
    dsimp only
    rw [unedited.surface_eq]
    exact alike_putBack there alike

theorem changeName_error (orderly : host.Orderly registry) {name newName : Text}
    (failed : changeName name newName host = .error failure after) :
    host.SameDocument after := by
  unfold changeName at failed
  cases kept : host.document? with
  | none =>
      rw [bind_of_error (renameSite_unloaded kept name newName)] at failed
      obtain ⟨-, rfl⟩ := EStateM.Result.error.inj failed
      exact .refl _
  | some document =>
  have renames := renameSite_eq kept name newName
  cases renamed : document.surface.rename name newName with
  | error cause =>
      rw [renamed] at renames
      rw [bind_of_error renames] at failed
      obtain ⟨-, rfl⟩ := EStateM.Result.error.inj failed
      exact .refl _
  | ok outcome =>
  obtain ⟨previous, surface⟩ := outcome
  rw [renamed] at renames
  rw [bind_of_ok renames] at failed
  rcases error_of_attempt failed with ⟨_, _, _, ends⟩ | ⟨cause, written, refused, ends⟩
  · cases ends
  · obtain ⟨document', refuses, rfl⟩ := onDocument_error rfl refused
    have unedited := Document.unedited_renameTag _ _ _ _ _ (.refl _) refuses
    have back := (orderly.document document kept).surface.arranged.rename_back renamed
    have renamesBack := @renameSite_eq { host with document? := some document' } document' rfl
      newName previous
    rw [unedited.surface_eq, back] at renamesBack
    obtain ⟨rfl, rfl⟩ := eq_of_bind_throw (discard_of_ok (attempt_of_ok renamesBack)) ends
    exact .of_some kept rfl ⟨unedited.toSameText.withSurface _, .refl _⟩

end Host

end PageDesigner
