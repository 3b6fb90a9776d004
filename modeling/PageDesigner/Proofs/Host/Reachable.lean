import PageDesigner.Proofs.Host.Orderly

/-!
# Hosts that can be reached

`Host.Operation` lists what can be asked of a host and of its document, failing or not.
What lasts holds behind every one of them but a selection behind the back of the host, which
may select anything (`Host.Holds.keeps_operation`).  Every host that such operations reach
from a new one is orderly, as long as the types of its registry are regular
(`Host.orderly_of_reaches`).
-/

namespace PageDesigner.Host

variable {registry : Registry}

/-! ## Everything that can happen -/

/-- An operation on a component. -/
inductive ComponentOperation where
  | create (typeName : Text) (name? : Option Text)
  | destroy (name : Text)
  | set (name property : Text) (value : Value)
  | setText (name property written : Text)
  | reset (name property : Text)
  | rename (name newName : Text)
  deriving DecidableEq, Repr

/-- Run an operation on a component. -/
def ComponentOperation.run : ComponentOperation → Action Unit
  | create typeName name? => discard (Host.create typeName name?)
  | destroy name => Host.destroy name
  | set name property value => setProperty name property value
  | setText name property written => setPropertyText name property written
  | reset name property => resetProperty name property
  | rename name newName => Host.rename name newName

/-- Something that can be asked of a host, or of its document. -/
inductive Operation where
  | component (operation : ComponentOperation)
  | bind (name event : Text) (handler? : Option Text)
  | removeSelected
  | load (text : Text)
  | loadFile (content : Except Text Text)
  | activate
  | deactivate
  | reset
  | askRefresh (refresh : Refresh)
  | settle
  | serialize
  | openTransaction (description : Text)
  | commit (handle : Transaction)
  | rollback (handle : Transaction)
  | dropTransaction (handle : Transaction)
  | replay (change : Edit)
  | select (names : List Text) (primary : Nat)
  | receive (raw : Text)
  /-- An edit of the text behind the back of the host. -/
  | edit (change : Edit)
  | markDirty
  | parse
  | draw
  | scan (mode : ScanMode)
  /-- The selection may be told any names. -/
  | reselect (selection : Selection)
  | directives (table : DirectiveTable)

/-- Run an operation, whatever it gives. -/
def Operation.run : Operation → Action Unit
  | component operation => operation.run
  | bind name event handler? => setHandler name event handler?
  | removeSelected => discard Host.removeSelected
  | load text => discard (Host.load text)
  | loadFile content => discard (Host.loadFile content)
  | activate => Host.activate
  | deactivate => Host.deactivate
  | reset => Host.reset
  | askRefresh refresh => Host.askRefresh refresh
  | settle => Host.settle
  | serialize => discard Host.serialize
  | openTransaction description => discard (Host.openTransaction description)
  | commit handle => discard (Host.commit handle)
  | rollback handle => discard (Host.rollback handle)
  | dropTransaction handle => Host.dropTransaction handle
  | replay change => discard (Host.replay change)
  | select names primary => Host.select names primary
  | receive raw => discard (Host.receive raw)
  | edit change => discard (onDocument (modifyGet (·.edit change)))
  | markDirty =>
      onDocument (modify fun document => { document with buffer := document.buffer.markDirty })
  | parse => discard (onDocument Document.parsed)
  | draw => discard (onDocument (modifyGet Document.designHtml))
  | scan mode => discard (onDocument (Document.scan mode))
  | reselect selection => onSurface fun surface => { surface with selection }
  | directives table => onDocument (modify fun document => { document with directives := table })

namespace Holds

variable {holds : Surface → Prop} (lasting : Lasting registry holds)

include lasting

/-- What lasts holds behind operations on components, whether they fail or not. -/
theorem keeps_component (operation : ComponentOperation) :
    Keeps (Holds registry holds) operation.run := by
  have durable := lasting.durable
  cases operation with
  | create typeName name? => exact (keeps_create lasting typeName name?).discard
  | destroy name => exact keeps_destroy durable name
  | set name property value => exact keeps_setProperty durable name property value
  | setText name property written => exact keeps_setPropertyText durable name property written
  | reset name property => exact keeps_resetProperty durable name property
  | rename name newName => exact keeps_rename durable name newName

/-- What lasts holds behind every operation, whether it fails or not, as long as it holds with any
selection that is made behind the back of the host. -/
theorem keeps_operation (operation : Operation)
    (reselected : ∀ selection, operation = .reselect selection →
      ∀ surface, holds surface → holds { surface with selection }) :
    Keeps (Holds registry holds) operation.run := by
  have durable := lasting.durable
  cases operation with
  | component operation => exact keeps_component lasting operation
  | bind name event handler? => exact keeps_setHandler durable name event handler?
  | removeSelected => exact (keeps_removeSelected durable).discard
  | load text => exact (keeps_load lasting text).discard
  | loadFile content => exact (keeps_loadFile lasting content).discard
  | activate => exact keeps_activate durable
  | deactivate => exact keeps_deactivate durable
  | reset => exact keeps_reset durable
  | askRefresh refresh => exact keeps_askRefresh refresh
  | settle => exact keeps_settle durable
  | serialize => exact (keeps_serialize durable).discard
  | openTransaction description => exact (aloof.keeps_openTransaction description).discard
  | commit handle => exact (aloof.keeps_commit (keeps_askRefresh .soft) handle).discard
  | rollback handle => exact (aloof.keeps_closeTransaction handle false).discard
  | dropTransaction handle => exact aloof.keeps_dropTransaction handle
  | replay change => exact (keeps_replay durable change).discard
  | select names primary => exact keeps_select durable names primary
  | receive raw => exact (keeps_receive durable raw).discard
  | edit change => exact (keeps_edit change).discard
  | markDirty => exact keeps_markDirty
  | parse => exact (keeps_onDocument Document.Holds.textual.keeps_parsed).discard
  | draw => exact (keeps_onDocument (Document.Holds.keeps_designHtml durable)).discard
  | scan mode => exact (keeps_onDocument (Document.Holds.keeps_scan durable mode)).discard
  | reselect selection =>
      exact keeps_onSurface durable fun surface held =>
        reselected selection rfl surface held
  | directives table =>
      have kept : Keeps (Document.Holds registry holds)
          (modify fun document => { document with directives := table } :
            Document.Action Unit) :=
        .modify fun _ held =>
          ⟨⟨held.sound.distinct, held.sound.coherent⟩, held.registry_eq, held.surface⟩
      exact keeps_onDocument kept

end Holds

/-! ## Orderly hosts -/

theorem keeps_modify (change : Host → Host)
    (document : ∀ host, (change host).document? = host.document?)
    (registry' : ∀ host, (change host).registry = host.registry) :
    Keeps (Orderly registry) (modify change : Action Unit) :=
  (Holds.keeps_modify change document registry').congr orderly_iff

theorem keeps_telling (events : List HostEvent) : Keeps (Orderly registry) (tell events) :=
  (Holds.aloof.keeps_tell events).congr orderly_iff

theorem keeps_onDocument_orderly {α : Type} {action : Document.Action α}
    (keeps : Keeps (Document.Orderly registry) action) :
    Keeps (Orderly registry) (onDocument action) :=
  (Holds.keeps_onDocument (keeps.congr fun document =>
    (Document.orderly_iff document).symm)).congr orderly_iff

theorem keeps_surface (regular : registry.Regular) {change : Surface → Surface}
    (keeps : ∀ surface, surface.Orderly → (change surface).Orderly) :
    Keeps (Orderly registry) (onSurface change) :=
  (Holds.keeps_onSurface (Surface.durable_orderly regular) keeps).congr orderly_iff

theorem keeps_askRefresh (refresh : Refresh) : Keeps (Orderly registry) (askRefresh refresh) :=
  (Holds.keeps_askRefresh refresh).congr orderly_iff

theorem keeps_openTransaction (description : Text) :
    Keeps (Orderly registry) (openTransaction description) :=
  (Holds.aloof.keeps_openTransaction description).congr orderly_iff

theorem keeps_closeTransaction (handle : Transaction) (commit : Bool) :
    Keeps (Orderly registry) (closeTransaction handle commit) :=
  (Holds.aloof.keeps_closeTransaction handle commit).congr orderly_iff

theorem keeps_removeTagOf (name : Text) : Keeps (Orderly registry) (removeTagOf name) :=
  (Holds.keeps_removeTagOf name).congr orderly_iff

theorem keeps_edit (edit : Edit) : Keeps (Orderly registry)
    (onDocument (modifyGet (·.edit edit)) : Action Bool) :=
  (Holds.keeps_edit edit).congr orderly_iff

theorem keeps_markDirty : Keeps (Orderly registry)
    (onDocument (modify fun document => { document with buffer := document.buffer.markDirty }) :
      Action Unit) :=
  Holds.keeps_markDirty.congr orderly_iff

section Regular

variable (regular : registry.Regular)

include regular

theorem keeps_settle : Keeps (Orderly registry) settle :=
  (Holds.keeps_settle (Surface.durable_orderly regular)).congr orderly_iff

theorem keeps_reset : Keeps (Orderly registry) reset :=
  (Holds.keeps_reset (Surface.durable_orderly regular)).congr orderly_iff

theorem keeps_load (text : Text) : Keeps (Orderly registry) (load text) :=
  (Holds.keeps_load (lasting_orderly regular) text).congr orderly_iff

theorem keeps_serialize : Keeps (Orderly registry) serialize :=
  (Holds.keeps_serialize (Surface.durable_orderly regular)).congr orderly_iff

theorem keeps_destroy (name : Text) : Keeps (Orderly registry) (destroy name) :=
  (Holds.keeps_destroy (Surface.durable_orderly regular) name).congr orderly_iff

theorem keeps_selecting (names : List Text) (primary : Nat) :
    Keeps (Orderly registry) (select names primary) :=
  (Holds.keeps_select (Surface.durable_orderly regular) names primary).congr orderly_iff

/-- Every operation keeps a host orderly, whether it fails or not. -/
theorem keeps_operation (operation : Operation) : Keeps (Orderly registry) operation.run :=
  (Holds.keeps_operation (lasting_orderly regular) operation fun selection _ _ orderly =>
    orderly.withSelection selection).congr orderly_iff

end Regular

/-- What one operation leaves of a host. -/
def Step (host next : Host) : Prop := ∃ operation : Operation, next = leaves operation.run host

/-- Operations lead from a new host to this one. -/
def Reaches (registry : Registry) (designers : DesignerRegistry) (options : Options)
    (host : Host) : Prop :=
  Relation.ReflTransGen Step (new registry designers options) host

/-- Whatever is asked of a new host, it stays orderly. -/
theorem orderly_of_reaches (regular : registry.Regular) {designers : DesignerRegistry}
    {options : Options} {host : Host} (reaches : Reaches registry designers options host) :
    host.Orderly registry := by
  induction reaches with
  | refl => exact ⟨fun _ kept => (nomatch kept), rfl⟩
  | tail _ step ih =>
      obtain ⟨operation, rfl⟩ := step
      exact keeps_operation regular operation _ ih

/-- Run operations one after the other, whether they fail or not. -/
def runAll (operations : List Operation) (host : Host) : Host :=
  operations.foldl (fun host operation => leaves operation.run host) host

theorem reaches_runAll {designers : DesignerRegistry} {options : Options} {host : Host}
    (operations : List Operation) (reaches : Reaches registry designers options host) :
    Reaches registry designers options (runAll operations host) := by
  induction operations generalizing host with
  | nil => exact reaches
  | cons operation rest ih => exact ih (reaches.tail ⟨operation, rfl⟩)

/-- What lasts holds behind a run of operations that leaves the selection to the host. -/
theorem Holds.runAll {holds : Surface → Prop} (lasting : Lasting registry holds)
    {operations : List Operation}
    (selecting : ∀ operation ∈ operations, ∀ selection, operation ≠ .reselect selection)
    {host : Host} (held : host.Holds registry holds) :
    (runAll operations host).Holds registry holds := by
  induction operations generalizing host with
  | nil => exact held
  | cons operation rest ih =>
      refine ih (fun other later => selecting other (List.mem_cons_of_mem _ later)) ?_
      refine keeps_operation lasting operation (fun selection same => ?_) host held
      exact absurd same (selecting operation List.mem_cons_self selection)

end PageDesigner.Host
