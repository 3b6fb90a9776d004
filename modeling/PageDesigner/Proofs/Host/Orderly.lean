import PageDesigner.Proofs.Host.Lasting

/-!
# Orderly hosts

The document of a host stays orderly, whatever the host does (`Host.Orderly`), as long as
the types of its registry are regular.  What runs in the transaction of a component
changes nothing but the document and what was told (`Host.Working`).
-/

namespace PageDesigner.Host

variable {registry : Registry} {base : Host} {surface : Surface}

/-- The document, if there is one, is orderly. -/
structure Orderly (registry : Registry) (host : Host) : Prop where
  document : ∀ document, host.document? = some document → document.Orderly registry
  registry_eq : host.registry = registry

/-- An orderly host in which only the document and what was told have changed. -/
structure Working (registry : Registry) (base host : Host) : Prop where
  orderly : host.Orderly registry
  beside : base.Beside host

/-- An orderly host with a document that has the given surface. -/
structure Carries (registry : Registry) (base : Host) (surface : Surface) (host : Host) : Prop where
  beside : base.Beside host
  registry_eq : host.registry = registry
  document : ∃ document, host.document? = some document ∧ document.Carries registry surface

theorem Carries.working {host : Host} (carries : Carries registry base surface host) :
    Working registry base host := by
  refine ⟨⟨fun document kept => ?_, carries.registry_eq⟩, carries.beside⟩
  obtain ⟨document', kept', carried⟩ := carries.document
  rw [kept] at kept'
  obtain rfl := Option.some.inj kept'
  exact carried.orderly

theorem Working.carries {host : Host} (working : Working registry base host)
    {document : Document} (kept : host.document? = some document) :
    Carries registry base document.surface host :=
  ⟨working.beside, working.orderly.registry_eq, document, kept,
    working.orderly.document document kept, rfl⟩

/-- The surface of the document is replaced by another orderly one. -/
theorem Carries.withSurface {host : Host} (carries : Carries registry base surface host)
    {document : Document} (kept : host.document? = some document) {surface' : Surface}
    (orderly : surface'.Orderly) :
    Carries registry base surface'
      { host with document? := some { document with surface := surface' } } := by
  obtain ⟨document', kept', carried⟩ := carries.document
  rw [kept] at kept'
  obtain rfl := Option.some.inj kept'
  exact ⟨carries.beside.withDocument _, carries.registry_eq, _, rfl,
    carried.orderly.withSurface orderly, rfl⟩

theorem orderly_iff (host : Host) :
    host.Holds registry Surface.Orderly ↔ host.Orderly registry :=
  ⟨fun held => ⟨fun document kept => (Document.orderly_iff document).mp (held.document _ kept),
      held.registry_eq⟩,
    fun orderly => ⟨fun document kept =>
      (Document.orderly_iff document).mpr (orderly.document _ kept), orderly.registry_eq⟩⟩

theorem working_iff (host : Host) :
    Holding registry Surface.Orderly base host ↔ Working registry base host :=
  ⟨fun holding => ⟨(orderly_iff host).mp holding.held, holding.beside⟩,
    fun working => ⟨(orderly_iff host).mpr working.orderly, working.beside⟩⟩

/-- What keeps every other part of a host keeps the host orderly. -/
theorem orderly_of_working {α : Type} {action : Action α}
    (keeps : ∀ base, Keeps (Working registry base) action) : Keeps (Orderly registry) action :=
  fun host orderly => (keeps host host ⟨orderly, .refl host⟩).orderly

theorem regular_pageType (regular : registry.Regular) : (pageType registry).Regular := by
  unfold pageType
  cases named : registry.named? "Page" with
  | none => decide
  | some page => exact regular page (List.mem_of_find?_eq_some named)

/-- Surfaces are orderly behind every operation, as long as the types are regular. -/
theorem lasting_orderly (regular : registry.Regular) : Lasting registry Surface.Orderly where
  durable := Surface.durable_orderly regular
  root := (arranged_rootSurface registry).orderly fun site member => by
    rw [List.mem_singleton.mp member]
    exact Component.regular_fresh (regular_pageType regular)
  named := fun controlType listed => (regular controlType listed).named

/-! ## Parts of operations -/

theorem keeps_onDocument_carries {α : Type} {action : Document.Action α}
    (keeps : Keeps (Document.Carries registry surface) action) :
    Keeps (Carries registry base surface) (onDocument action) := by
  intro host carries
  obtain ⟨document, kept, carried⟩ := carries.document
  rw [leaves_onDocument action kept]
  exact ⟨carries.beside.withDocument _, carries.registry_eq, _, rfl, keeps document carried⟩

/-- A new control is sited under a free name, or nothing happens. -/
theorem siteNew_cases {host : Host} (orderly : host.Orderly registry) {controlType : ControlType}
    (regular : controlType.Regular) (name? : Option Text) :
    (∃ failure, siteNew controlType name? host = .error failure host) ∨
      ∃ document name, host.document? = some document ∧
        document.surface.container.site? name = none ∧ Naming.isValid name = true ∧
        siteNew controlType name? host =
          .ok (name, (Component.fresh controlType).initialized.markup name) { host with
            document? := some { document with
              surface := sitedNew document.surface controlType name } } :=
  siteNew_cases_of_arranged (fun document kept => (orderly.document document kept).surface.arranged)
    regular.named name?

section Regular

variable (regular : registry.Regular)

include regular

theorem keeps_addControl {controlType : ControlType} (listed : controlType ∈ registry.all)
    (name? : Option Text) : Keeps (Working registry base) (addControl controlType name?) :=
  (Holding.keeps_addControl (Surface.durable_orderly regular) listed
    (regular controlType listed).named name?).congr working_iff

theorem keeps_changeProperty (name property : Text) (value : Value) :
    Keeps (Working registry base) (changeProperty name property value) :=
  (Holding.keeps_changeProperty (Surface.durable_orderly regular) name property value).congr
    working_iff

theorem keeps_changeHandler (name event : Text) (handler? : Option Text) :
    Keeps (Working registry base) (changeHandler name event handler?) :=
  (Holding.keeps_changeHandler (Surface.durable_orderly regular) name event handler?).congr
    working_iff

theorem keeps_changeName (name newName : Text) :
    Keeps (Working registry base) (changeName name newName) :=
  (Holding.keeps_changeName (Surface.durable_orderly regular) name newName).congr working_iff

end Regular

end PageDesigner.Host
