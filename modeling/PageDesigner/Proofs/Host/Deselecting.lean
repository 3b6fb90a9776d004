import PageDesigner.Proofs.Document.Exchanging
import PageDesigner.Proofs.Document.Redrawing
import PageDesigner.Proofs.Host.Removing

/-!
# What stays selected when components are destroyed

Components are destroyed on request, or by a refresh that finds their tags gone or turned into tags
of other types.  Whichever it is, exactly the lost components are deselected
(`Host.exchanged_of_destruction`).  A selection with none of them is left alone, and any other one
is made anew from the names that are left, so that the first of these becomes the primary one.
-/

namespace PageDesigner

namespace Document

/-- Drawing a document leaves its table and its selection. -/
theorem Undisturbed.exchanged {document after : Document} (undisturbed : document.Undisturbed after)
    {surface : Surface} {removed : List Text} {created : List (Text × Text)}
    (exchanged : surface.Exchanged removed created document.surface) :
    surface.Exchanged removed created after.surface := by
  have same : after.surface.container.table = document.surface.container.table := by
    refine Container.Related.table_eq (List.Forall₂.imp ?_ undisturbed.sites)
    rintro site site' ⟨name, component⟩
    refine ⟨name, ?_⟩
    unfold Container.SameType
    rw [component]
  have selection : after.surface.selection = document.surface.selection := by
    rw [undisturbed.rest_eq]
  refine ⟨same.trans exchanged.table_eq, exchanged.former, exchanged.fresh, ?_⟩
  exact selection.trans exchanged.selection_eq

end Document

namespace Host

variable {registry : Registry} {host : Host} {document : Document}

/-- Whatever became of its tag, a component is destroyed last. -/
theorem exchanged_behind_tag (kept : host.document? = some document)
    (distinct : document.surface.container.Distinct) (stored : Text) :
    let rest : Action Unit := do
      match ← onDocument (Document.destroy stored) with
      | some removed => tell [.removed removed]
      | none => pure ()
    host.Beside (leaves rest host) ∧
      ∃ removed after, (leaves rest host).document? = some after ∧
        document.surface.Exchanged removed [] after.surface := by
  dsimp only
  cases gone : document.surface.destroy? stored with
  | none =>
      have ran : Document.destroy stored document = .ok none document := by
        unfold Document.destroy
        rw [bind_of_ok (get_eq document), gone]
        rfl
      rw [leaves_bind_of_ok (onDocument_of_ok kept ran)]
      exact ⟨⟨_, _, rfl⟩, [], document, rfl, document.surface.exchanged_refl⟩
  | some outcome =>
      obtain ⟨removed, after⟩ := outcome
      have ran : Document.destroy stored document =
          .ok (some removed) { document with surface := after } := by
        unfold Document.destroy
        rw [bind_of_ok (get_eq document), gone]
        rfl
      rw [leaves_bind_of_ok (onDocument_of_ok kept ran)]
      exact ⟨⟨_, _, rfl⟩, [removed], { document with surface := after }, rfl,
        Surface.exchanged_destroy? distinct gone⟩

/-- Destroying a component in a settled host destroys the one with the name, or nothing. -/
theorem exchanged_of_destroy (settles : host.waiting = []) (kept : host.document? = some document)
    (sound : document.Sound) (name : Text) :
    host.Beside (leaves (destroy name) host) ∧
      ∃ removed after, (leaves (destroy name) host).document? = some after ∧
        document.surface.Exchanged removed [] after.surface := by
  have loads := loaded_eq host
  rw [kept] at loads
  unfold destroy
  rw [leaves_bind_of_ok (settle_of_waiting settles), leaves_bind_of_ok loads]
  cases document.surface.container.storedName? name with
  | none => exact ⟨.refl host, [], document, kept, document.surface.exchanged_refl⟩
  | some stored =>
      dsimp only
      cases document.surface.isRoot stored with
      | true => exact exchanged_behind_tag kept sound.distinct stored
      | false =>
          rw [if_pos (show (!false) = true from rfl)]
          obtain ⟨middle, surface, ⟨-, ran⟩ | ⟨element, -, -, -, ran⟩⟩ :=
            removeTagOf_cases kept sound stored
          · rw [leaves_bind_of_ok ran, ← surface]
            exact @exchanged_behind_tag { host with document? := some middle } middle rfl
              (by rw [surface]; exact sound.distinct) stored
          · rw [leaves_bind_of_error ran, ← surface]
            exact ⟨⟨_, _, rfl⟩, [], middle, rfl, middle.surface.exchanged_refl⟩

/-- Work in a transaction of its own leaves the document as it does outside of one. -/
theorem document?_withTransaction {α : Type} {description : Text} {work : Action α} {base : Host}
    (same : base.transactions = host.transactions)
    (beside : (base.opened description).Beside (leaves work (host.opened description))) :
    (leaves (withTransaction description work) host).document? =
      (leaves work (host.opened description)).document? := by
  rcases ends work (host.opened description) with ⟨_, ran⟩ | ⟨_, ran⟩
  · obtain ⟨after, done, document⟩ := withTransaction_of_ok same beside ran
    rw [leaves_of_ok done, document]
  · obtain ⟨after, failed, document, -⟩ := withTransaction_of_error same beside ran
    rw [leaves_of_error failed, document]

/-! ## Destroying components -/

/-- The operations that destroy components: on request, and where their tags are gone. -/
inductive Destruction where
  | destroy (name : Text)
  | remove (name : Text)
  | refresh
  deriving DecidableEq, Repr

/-- Destroy components. -/
def Destruction.run : Destruction → Action Unit
  | destroy name => Host.destroy name
  | remove name => Host.remove name
  | refresh => do
      askRefresh .hard
      settle

/-- A hard refresh that is asked for is done behind those that wait. -/
theorem document?_refresh (kept : host.document? = some document) :
    (leaves Destruction.refresh.run host).document? =
      some (refreshed (host.waiting.foldl refreshed document) .hard) := by
  have asked : askRefresh .hard host =
      .ok () { host with waiting := host.waiting ++ [.hard] } := by
    unfold askRefresh
    rw [modify_eq, kept]
    rfl
  unfold Destruction.run
  rw [leaves_bind_of_ok asked]
  obtain ⟨events, settles⟩ := @settle_eq { host with waiting := host.waiting ++ [.hard] } _ kept
  rw [leaves_of_ok settles, List.foldl_append]
  rfl

/-- Whichever way components are destroyed, the refreshes that wait are done first, and then some
components are exchanged. -/
theorem exchanged_of_destruction (regular : registry.Regular) (orderly : host.Orderly registry)
    (loaded : host.document?.isSome = true) (destruction : Destruction) :
    ∃ before removed created after, host.settled.document? = some before ∧
      (leaves destruction.run host).document? = some after ∧
      before.surface.Exchanged removed created after.surface := by
  obtain ⟨former, kept⟩ := Option.isSome_iff_exists.mp loaded
  obtain ⟨events, settles⟩ := settled_eq kept
  have kept' : host.settled.document? = some (host.waiting.foldl refreshed former) := by
    rw [settles]
  have orderly' := (orderly_settled regular orderly).document _ kept'
  refine ⟨host.waiting.foldl refreshed former, ?_⟩
  cases destruction with
  | destroy name =>
      have settled : leaves (destroy name) host = leaves (destroy name) host.settled := by
        unfold destroy
        rw [leaves_bind_of_ok (settle_of_kept kept'), leaves_bind_of_ok (settle_settled host)]
      obtain ⟨-, removed, after, last, exchanged⟩ :=
        exchanged_of_destroy (waiting_settled host) kept' orderly'.sound name
      exact ⟨removed, [], after, kept', (congrArg document? settled).trans last, exchanged⟩
  | remove name =>
      -- The refreshes that wait are done inside the transaction.
      obtain ⟨same, opened⟩ := settled_opened kept ("Remove " ++ name)
      rw [kept'] at same
      have settled : leaves (destroy name) (host.opened ("Remove " ++ name)) =
          leaves (destroy name) (host.opened ("Remove " ++ name)).settled := by
        unfold destroy
        rw [leaves_bind_of_ok (settle_of_kept same), leaves_bind_of_ok (settle_settled _)]
      obtain ⟨beside, removed, after, last, exchanged⟩ :=
        exchanged_of_destroy (waiting_settled _) same orderly'.sound name
      rw [← settled] at beside last
      refine ⟨removed, [], after, kept', ?_, exchanged⟩
      refine Eq.trans ?_ last
      exact @document?_withTransaction host _ _ _ { host with waiting := [] } rfl
        (opened.trans beside)
  | refresh =>
      have valid : ∀ controlType ∈ (host.waiting.foldl refreshed former).registry.all,
          Naming.isValid controlType.name = true := by
        rw [orderly'.registry_eq]
        exact fun controlType listed => (regular controlType listed).named
      obtain ⟨removed, created, exchanged, -, -⟩ :=
        @Document.exchanged_scan .persist _ orderly'.sound valid
      exact ⟨removed, created, _, kept', document?_refresh kept,
        (Document.undisturbed_designHtml _).exchanged exchanged⟩

/--
Destroying components leaves a selection alone if none of them is selected.  Otherwise the names
that are left stay selected in their order, without those that repeat an earlier one, and the first
of them becomes the primary one.
-/
theorem selected_of_destruction (regular : registry.Regular) {designers : DesignerRegistry}
    {options : Options} (reaches : Reaches registry designers options host)
    (loaded : host.document?.isSome = true) (destruction : Destruction) :
    ∃ before after, host.settled.document? = some before ∧
      (leaves destruction.run host).document? = some after ∧
      let left := before.surface.selection.apartFrom (before.surface.lost after.surface)
      (if left = before.surface.selection.names then
          after.surface.selection = before.surface.selection
        else after.surface.selection.names = Selection.distinct left ∧
          after.surface.selection.primary? = left.head?) ∧
      ((left.map Text.lower).Nodup → after.surface.selection.names = left) := by
  obtain ⟨before, removed, created, after, kept, last, exchanged⟩ :=
    exchanged_of_destruction regular (orderly_of_reaches regular reaches) loaded destruction
  refine ⟨before, after, kept, last, ?_⟩
  have selection := exchanged.selection_lost
  rw [Selection.withoutAll_eq] at selection
  dsimp only
  generalize before.surface.selection.apartFrom (before.surface.lost after.surface) = left
    at selection ⊢
  split at selection
  · next whole =>
      rw [if_pos whole, selection]
      exact ⟨rfl, fun _ => whole.symm⟩
  · next fewer =>
      rw [if_neg fewer, selection]
      refine ⟨⟨rfl, Selection.primary?_ofNames_zero left⟩, fun unrepeated => ?_⟩
      exact Selection.distinct_of_nodup unrepeated

/-- Three labels that are selected, the last one as primary. -/
def threeLabels : Host :=
  runAll [.load ("<asp:Label id=\"A\" runat=\"server\"/><asp:Label id=\"B\" runat=\"server\"/>" ++
    "<asp:Label id=\"C\" runat=\"server\"/>"), .select ["A", "B", "C"] 2]
    (new .standard .standard .standard)

/-- Whether something holds of the surfaces before and behind an operation that destroys
components. -/
def comparesWith (check : Surface → Surface → Bool) (host : Host) (destruction : Destruction) :
    Bool :=
  host.settled.document?.any fun before =>
    (leaves destruction.run host).document?.any fun after => check before.surface after.surface

theorem exists_of_comparesWith {check : Surface → Surface → Bool} {destruction : Destruction}
    (compares : comparesWith check host destruction = true) :
    ∃ before after, host.settled.document? = some before ∧
      (leaves destruction.run host).document? = some after ∧
      check before.surface after.surface = true := by
  unfold comparesWith at compares
  simp only [Option.any_eq_true] at compares
  obtain ⟨before, kept, after, last, checked⟩ := compares
  exact ⟨before, after, kept, last, checked⟩

/-- Destroying the first one of them makes the second one the primary one. -/
theorem selected_of_destruction_threeLabels :
    ∃ before after, threeLabels.settled.document? = some before ∧
      (leaves (Destruction.destroy "A").run threeLabels).document? = some after ∧
      after.surface.selection.names = ["B", "C"] ∧
      after.surface.selection.primary? = some "B" := by
  obtain ⟨before, after, kept, last, selected, -⟩ := @selected_of_destruction .standard threeLabels
    (by decide +kernel) _ _ (reaches_runAll _ .refl) (by decide +kernel) (.destroy "A")
  have compares : comparesWith (fun before after =>
      before.selection.names = (["A", "B", "C"] : List Text) &&
        before.selection.apartFrom (before.lost after) = (["B", "C"] : List Text))
      threeLabels (.destroy "A") = true := by decide +kernel
  obtain ⟨before', after', kept', last', checked⟩ := exists_of_comparesWith compares
  obtain rfl := Option.some.inj (kept'.symm.trans kept)
  obtain rfl := Option.some.inj (last'.symm.trans last)
  simp only [Bool.and_eq_true, decide_eq_true_eq] at checked
  rw [checked.1, checked.2, if_neg (by decide)] at selected
  exact ⟨_, _, kept', last', selected.1, selected.2⟩

/-- A label that has been given a name that was selected before it was there. -/
def ghostLabel : Host :=
  runAll [.load "<asp:Label id=\"A\" runat=\"server\"/><asp:Label id=\"C\" runat=\"server\"/>",
    .reselect (.ofNames ["A", "Ghost", "C"] 0), .component (.rename "A" "Ghost")]
    (new .standard .standard .standard)

/-- An operation that disturbs no other selection: what it does not lose stays selected in the same
order, and the primary one stays the primary one. -/
structure Spares (host : Host) (destruction : Destruction) : Prop where
  names_eq : ∀ before after, host.settled.document? = some before →
    (leaves destruction.run host).document? = some after →
    after.surface.selection.names =
      before.surface.selection.apartFrom (before.surface.lost after.surface)
  primary_eq : ∀ before after name, host.settled.document? = some before →
    (leaves destruction.run host).document? = some after →
    before.surface.selection.primary? = some name →
    Naming.isTaken (before.surface.lost after.surface) name = false →
    after.surface.selection.primary? = some name

/-- The third label is no longer the primary one when the first one is destroyed, and a name that is
selected twice is selected once when another label is destroyed. -/
theorem not_spares_destroy :
    ¬ threeLabels.Spares (.destroy "A") ∧ ¬ ghostLabel.Spares (.destroy "C") := by
  constructor
  · intro spares
    have compares : comparesWith (fun before after =>
        before.selection.primary? = some ("C" : Text) &&
          Naming.isTaken (before.lost after) "C" = false &&
          after.selection.primary? ≠ some ("C" : Text)) threeLabels (.destroy "A") = true := by
      decide +kernel
    obtain ⟨before, after, kept, last, checked⟩ := exists_of_comparesWith compares
    simp only [Bool.and_eq_true, decide_eq_true_eq] at checked
    exact checked.2 (spares.primary_eq before after "C" kept last checked.1.1 checked.1.2)
  · intro spares
    have compares : comparesWith (fun before after =>
        after.selection.names ≠ before.selection.apartFrom (before.lost after)) ghostLabel
          (.destroy "C") = true := by
      decide +kernel
    obtain ⟨before, after, kept, last, checked⟩ := exists_of_comparesWith compares
    exact of_decide_eq_true checked (spares.names_eq before after kept last)

end Host

end PageDesigner
