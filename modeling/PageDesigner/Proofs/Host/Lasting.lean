import PageDesigner.Proofs.Host.Holding
import PageDesigner.Proofs.Host.Showing

/-!
# What lasts through the operations of a host

What is durable of surfaces and holds of one with nothing but the root page
(`Host.Lasting`) holds of the surface of a host behind every operation, whether the
operation fails or not: a load starts with the root page, a reset lets go of the document,
and everything else is made of turns.
-/

namespace PageDesigner.Host

variable {registry : Registry} {holds : Surface → Prop}

/-- A surface with nothing but the root page is arranged. -/
theorem arranged_rootSurface (registry : Registry) : (rootSurface registry).Arranged := by
  refine ⟨distinct_rootSurface registry, fun name member => ?_, fun root rooted => ?_,
    fun site member _ => ?_⟩
  · rw [List.mem_singleton.mp member]
    exact Naming.isValid_unused (isValid_pageType registry) []
  · rw [← Option.some.inj rooted]
    exact List.mem_singleton_self _
  · rw [List.mem_singleton.mp member]
    exact List.nil_subset _

/-- What is durable holds of a surface with nothing but the root page, and the names of the types
are identifiers. -/
structure Lasting (registry : Registry) (holds : Surface → Prop) : Prop where
  durable : Surface.Durable registry holds
  root : holds (rootSurface registry)
  named : ∀ controlType ∈ registry.all, Naming.isValid controlType.name = true

/-- A document that was started for a load. -/
theorem Lasting.started (lasting : Lasting registry holds) (designers : DesignerRegistry)
    (options : Options) (text : Text) :
    (startDocument registry designers options text).Holds registry holds :=
  ⟨sound_startDocument registry designers options text, rfl, lasting.root⟩

namespace Holds

/-! ## Refreshes -/

/-- What neither the document nor the registry depends on may change. -/
theorem keeps_modify (change : Host → Host)
    (document : ∀ host, (change host).document? = host.document?)
    (registry' : ∀ host, (change host).registry = host.registry) :
    Keeps (Holds registry holds) (modify change : Action Unit) := by
  refine .modify fun host held => ⟨fun kept same => ?_, ?_⟩
  · rw [document] at same
    exact held.document kept same
  · rw [registry']
    exact held.registry_eq

theorem aloof : Aloof (Holds registry holds) where
  of_eq held same := by
    rw [same]
    exact ⟨held.document, held.registry_eq⟩

theorem keeps_onDocument {α : Type} {action : Document.Action α}
    (keeps : Keeps (Document.Holds registry holds) action) :
    Keeps (Holds registry holds) (onDocument action) :=
  keeps_of_holding fun _ => Holding.keeps_onDocument keeps

theorem keeps_onSurface (durable : Surface.Durable registry holds) {change : Surface → Surface}
    (keeps : ∀ surface, holds surface → holds (change surface)) :
    Keeps (Holds registry holds) (onSurface change) :=
  keeps_of_holding fun _ => Holding.keeps_onSurface durable keeps

theorem keeps_askRefresh (refresh : Refresh) :
    Keeps (Holds registry holds) (askRefresh refresh) := by
  refine keeps_modify _ (fun host => ?_) fun host => ?_ <;> split <;> rfl

section Durable

variable (durable : Surface.Durable registry holds)

include durable

theorem keeps_drawSurface : Keeps (Holds registry holds) drawSurface :=
  keeps_drawing (keeps_onDocument (Document.Holds.keeps_designHtml durable)) fun _ =>
    aloof.keeps_tell _

theorem keeps_settle : Keeps (Holds registry holds) settle :=
  keeps_settling (keeps_modify _ (fun _ => rfl) fun _ => rfl) (keeps_performing
    (keeps_drawSurface durable) (keeps_onDocument (Document.Holds.keeps_scan durable .persist))
    fun _ => aloof.keeps_tell _)

/-! ## From loading to reset -/

theorem keeps_reset : Keeps (Holds registry holds) reset :=
  keeps_resetting (keeps_settle durable) (fun _ => aloof.keeps_tell _)
    (.modify fun _ held => ⟨fun _ kept => (nomatch kept), held.registry_eq⟩)

theorem keeps_activate : Keeps (Holds registry holds) activate := by
  refine Keeps.get.seq fun _ => ?_
  split
  · exact fun _ held => held
  refine keeps_loaded_bind fun host document held kept => ?_
  split
  · exact held
  next root rooted =>
    have surface := (held.document document kept).surface
    obtain ⟨after, selected, exactly⟩ := (Holding.mk held (.refl host)).exactly kept |>.changed
      (·.select [root] 0) id
    have held' := (exactly.of_exactly (durable.turned _ _ surface
      ((durable.arranged _ surface).turn_root rooted))).held
    rw [leaves_bind_of_ok selected]
    exact Keeps.seq (keeps_modify (fun host => { host with phase := .activated })
      (fun _ => rfl) fun _ => rfl) (fun _ => (aloof.keeps_tell _).seq fun _ => keeps_askRefresh _)
        after held'

theorem keeps_deactivate : Keeps (Holds registry holds) deactivate :=
  keeps_deactivating (keeps_settle durable) (keeps_modify _ (fun _ => rfl) fun _ => rfl)
    (aloof.keeps_tell _)

theorem keeps_serialize : Keeps (Holds registry holds) serialize :=
  (keeps_settle durable).seq fun _ => keeps_drawSurface durable

end Durable

theorem keeps_load (lasting : Lasting registry holds) (text : Text) :
    Keeps (Holds registry holds) (load text) := by
  refine Keeps.bind .get fun host found middle held ran _ => ?_
  cases ran
  dsimp only
  split
  · exact held
  have registry_eq := held.registry_eq
  subst registry_eq
  have begins : onDocument (Document.siteRoot (pageType host.registry))
      { host with
        phase := .loading
        document? := some (Document.ofText host.registry host.designers host.options text) } =
      .ok (rootName host.registry) { host with
        phase := .loading
        document? := some (startDocument host.registry host.designers host.options text) } := by
    unfold onDocument
    dsimp only
    rw [siteRoot_eq]
  have started : Holds host.registry holds { host with
      phase := .loading
      document? := some (startDocument host.registry host.designers host.options text) } := by
    refine ⟨fun document same => ?_, rfl⟩
    rw [← Option.some.inj same]
    exact lasting.started _ _ _
  rw [leaves_bind_set, leaves_bind_of_ok begins]
  refine Keeps.seq (aloof.keeps_tell _) (fun _ => (keeps_attempt (keeps_onDocument
    (Document.Holds.keeps_scan lasting.durable .initial))).seq fun outcome => ?_) _ started
  split
  · exact (keeps_reset lasting.durable).seq fun _ => .throw _
  · exact (aloof.keeps_tell _).seq fun _ => (keeps_modify (fun host =>
      { host with phase := .loaded }) (fun _ => rfl) fun _ => rfl).seq fun _ =>
        (aloof.keeps_tell _).seq fun _ => .pure _

theorem keeps_loadFile (lasting : Lasting registry holds) (content : Except Text Text) :
    Keeps (Holds registry holds) (loadFile content) := by
  unfold loadFile
  split
  · exact keeps_load lasting _
  · exact .throw _

/-! ## Operations on components -/

theorem keeps_withTransaction {α : Type} (description : Text) {work : Action α}
    (keeps : Keeps (Holds registry holds) work) :
    Keeps (Holds registry holds) (withTransaction description work) :=
  aloof.keeps_withTransaction (keeps_askRefresh .soft) description keeps

theorem keeps_create (lasting : Lasting registry holds) (typeName : Text) (name? : Option Text) :
    Keeps (Holds registry holds) (create typeName name?) := by
  refine (keeps_settle lasting.durable).seq fun _ => keeps_loaded.discard.seq fun _ => ?_
  refine Keeps.bind .get fun host found middle held ran _ => ?_
  cases ran
  split
  · exact held
  next controlType known =>
    have listed : controlType ∈ registry.all := by
      rw [← held.registry_eq]
      exact List.mem_of_find?_eq_some known
    have created : Keeps (Holds registry holds) _ := keeps_withTransaction
      ("Create " ++ controlType.name) (keeps_of_holding fun _ =>
        Holding.keeps_addControl lasting.durable listed (lasting.named _ listed) name?)
    split
    · exact held
    · exact created host held

theorem keeps_removeTagOf (name : Text) : Keeps (Holds registry holds) (removeTagOf name) :=
  keeps_removingTag (keeps_onDocument (Document.Holds.textual.keeps_removeTag name))

section Durable

variable (durable : Surface.Durable registry holds)

include durable

theorem keeps_destroy (name : Text) : Keeps (Holds registry holds) (destroy name) := by
  refine keeps_destroying (keeps_settle durable) keeps_removeTagOf (fun stored => ?_) name
  refine (keeps_onDocument (Document.Holds.keeps_destroy durable stored)).seq fun removed? => ?_
  split
  · exact aloof.keeps_tell _
  · exact .pure _

theorem keeps_destroyEach (names : List Text) :
    Keeps (Holds registry holds) (destroyEach names) :=
  keeps_destroyingEach (keeps_destroy durable) names

theorem keeps_removeSelected : Keeps (Holds registry holds) removeSelected :=
  (keeps_settle durable).seq fun _ => keeps_loaded.seq fun _ =>
    keeps_withTransaction _ (keeps_destroyEach durable _)

theorem keeps_setProperty (name property : Text) (value : Value) :
    Keeps (Holds registry holds) (setProperty name property value) :=
  (keeps_settle durable).seq fun _ => keeps_loaded.discard.seq fun _ =>
    keeps_withTransaction _ (keeps_of_holding fun _ =>
      Holding.keeps_changeProperty durable _ _ _)

theorem keeps_propertyNamed (name property : Text) :
    Keeps (Holds registry holds) (propertyNamed name property) := by
  refine (keeps_settle durable).seq fun _ => (keeps_siteNamed name).seq fun site => ?_
  split
  · exact .pure _
  · exact .throw _

theorem keeps_setPropertyText (name property written : Text) :
    Keeps (Holds registry holds) (setPropertyText name property written) := by
  refine (keeps_propertyNamed durable name property).seq fun declared => ?_
  split
  · exact .throw _
  · exact keeps_setProperty durable _ _ _

theorem keeps_resetProperty (name property : Text) :
    Keeps (Holds registry holds) (resetProperty name property) := by
  refine (keeps_propertyNamed durable name property).seq fun declared => ?_
  split
  · exact .throw _
  · exact keeps_setProperty durable _ _ _

theorem keeps_setHandler (name event : Text) (handler? : Option Text) :
    Keeps (Holds registry holds) (setHandler name event handler?) :=
  (keeps_settle durable).seq fun _ => keeps_loaded.discard.seq fun _ =>
    keeps_withTransaction _ (keeps_of_holding fun _ => Holding.keeps_changeHandler durable _ _ _)

theorem keeps_rename (name newName : Text) :
    Keeps (Holds registry holds) (rename name newName) :=
  (keeps_settle durable).seq fun _ => keeps_loaded.discard.seq fun _ =>
    keeps_withTransaction _ (keeps_of_holding fun _ => Holding.keeps_changeName durable _ _)

theorem keeps_select (names : List Text) (primary : Nat) :
    Keeps (Holds registry holds) (select names primary) :=
  keeps_of_holding fun _ => Holding.keeps_select durable names primary

end Durable

/-! ## Operations on the text -/

theorem keeps_edit (edit : Edit) : Keeps (Holds registry holds)
    (onDocument (modifyGet (·.edit edit)) : Action Bool) :=
  keeps_onDocument (.modifyGet fun document held =>
    Document.Holds.textual.edited document edit held)

theorem keeps_markDirty : Keeps (Holds registry holds)
    (onDocument (modify fun document => { document with buffer := document.buffer.markDirty }) :
      Action Unit) :=
  keeps_onDocument (.modify fun _ held =>
    ⟨.of_isDirty held.sound.distinct rfl, held.registry_eq, held.surface⟩)

theorem keeps_replay (durable : Surface.Durable registry holds) (edit : Edit) :
    Keeps (Holds registry holds) (replay edit) :=
  keeps_replaying (keeps_settle durable) (keeps_edit edit) keeps_markDirty (keeps_askRefresh .hard)

theorem keeps_receive (durable : Surface.Durable registry holds) (raw : Text) :
    Keeps (Holds registry holds) (receive raw) :=
  keeps_receiving (keeps_settle durable) (keeps_select durable)
    (fun _ _ _ => aloof.keeps_tell _) raw

end Holds

end PageDesigner.Host
